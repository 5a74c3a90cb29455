import Mathlib.Algebra.Order.Field.Basic
import Mathlib.Algebra.Order.Field.Rat
import BidScope.L6Retrieval.Search

/-!
# Rank fusion

The laws of `_reciprocal_rank_fuse` for two lists without repeated ids and
positive weights, with scores as exact rationals.

* `reciprocalRankFuse_eq`: the candidates are the ids in the order they are
  first counted, each with its ranks and its score, sorted by score.
* `place_le`: an id whose score rises while no other does is not moved down.
* `fusion_laws`: union, scores, order, ties, what a better rank does, and the
  fusion with an empty list.
* `search_degraded`: a search whose embedding fails returns the lexical list.
-/
namespace BidScope.L6

open BidScope.L1 BidScope.L2
open BidScope.L5 (NoticeVersion)

/-! ## Scores -/

/-- The rank of an id in a list, from 1 on. -/
def rankIn (ranked : List String) (id : String) : Option Nat :=
  if id ∈ ranked then some (ranked.idxOf id + 1) else none

variable (searcher : Searcher) (lexical vector : List String)

/-- What one list adds to the score of an id. -/
def share (weight : ℚ) (ranked : List String) (id : String) : ℚ :=
  match rankIn ranked id with
  | none => 0
  | some rank => weight / (searcher.rrfK + rank : ℚ)

def scoreOf (id : String) : ℚ :=
  share searcher searcher.lexicalWeight lexical id + share searcher searcher.vectorWeight vector id

def fusedCandidate (id : String) : RetrievalCandidate where
  noticeVersionId := id
  score := scoreOf searcher lexical vector id
  lexicalRank := rankIn lexical id
  vectorRank := rankIn vector id

/-- The ids in the order they are first counted. -/
def firstSeen : List String := lexical ++ vector.filter (· ∉ lexical)

def fusedIds : List String :=
  (reciprocalRankFuse searcher lexical vector).map (·.noticeVersionId)

/-- `raised` is `ranked` with one id further up and the others in their order. -/
def RaisedIn (id : String) (ranked raised : List String) : Prop :=
  ∃ above between below, ranked = above ++ (between ++ id :: below) ∧
    raised = above ++ id :: (between ++ below)

/-- The laws of the fusion. -/
structure FusionLaw : Prop where
  once : (fusedIds searcher lexical vector).Nodup
  union : ∀ id, id ∈ fusedIds searcher lexical vector ↔ id ∈ lexical ∨ id ∈ vector
  scored : ∀ c ∈ reciprocalRankFuse searcher lexical vector,
    c.score = scoreOf searcher lexical vector c.noticeVersionId ∧
      c.lexicalRank = rankIn lexical c.noticeVersionId ∧ c.vectorRank = rankIn vector c.noticeVersionId
  descending : (reciprocalRankFuse searcher lexical vector).Pairwise fun a b => b.score ≤ a.score
  ties : (reciprocalRankFuse searcher lexical vector).Pairwise fun a b => a.score = b.score →
    (lexical ++ vector).idxOf a.noticeVersionId < (lexical ++ vector).idxOf b.noticeVersionId
  raisedLexical : ∀ id raised, RaisedIn id lexical raised →
    (fusedIds searcher raised vector).idxOf id ≤ (fusedIds searcher lexical vector).idxOf id
  raisedVector : ∀ id raised, RaisedIn id vector raised →
    (fusedIds searcher lexical raised).idxOf id ≤ (fusedIds searcher lexical vector).idxOf id
  degraded : vector = [] → fusedIds searcher lexical vector = lexical

/-! ## What is counted -/

variable {searcher lexical vector} {weight : ℚ} {mark : Nat → RetrievalCandidate → RetrievalCandidate}
  {id : String}

theorem get_countIn_of_not_mem : ∀ {ranked : List String} (rank : Nat)
    (scores : Dict String RetrievalCandidate), id ∉ ranked →
    (countIn searcher weight mark rank ranked scores).get id = scores.get id
  | [], _, _, _ => rfl
  | x :: rest, rank, scores, h => by
    obtain ⟨hx, hrest⟩ := List.ne_and_not_mem_of_not_mem_cons h
    rw [countIn, get_countIn_of_not_mem (rank + 1) _ hrest, Dict.get_set_ne _ _ (Ne.symm hx)]

/-- An id of the list is counted once, at its rank. -/
theorem get_countIn_of_mem : ∀ {ranked : List String} (rank : Nat)
    (scores : Dict String RetrievalCandidate), ranked.Nodup → id ∈ ranked →
    (countIn searcher weight mark rank ranked scores).get id =
      let candidate := (scores.get id).getD { noticeVersionId := id, score := 0 }
      let score := candidate.score + weight / (searcher.rrfK + (rank + ranked.idxOf id : Nat) : ℚ)
      some (mark (rank + ranked.idxOf id) { candidate with score })
  | x :: rest, rank, scores, hd, h => by
    obtain ⟨hx, hrest⟩ := List.nodup_cons.mp hd
    rw [countIn]
    by_cases hid : x = id
    · subst hid
      rw [get_countIn_of_not_mem (rank + 1) _ hx, Dict.get_set_self, List.idxOf_cons_self, Nat.add_zero]
    · have hmem : id ∈ rest := (List.mem_cons.mp h).resolve_left (Ne.symm hid)
      rw [get_countIn_of_mem (rank + 1) _ hrest hmem, Dict.get_set_ne _ _ hid,
        List.idxOf_cons_ne _ hid, Nat.add_right_comm, Nat.succ_eq_add_one, Nat.add_assoc]

theorem keys_countIn : ∀ {ranked : List String} (rank : Nat) (scores : Dict String RetrievalCandidate),
    ranked.Nodup → (countIn searcher weight mark rank ranked scores).keys =
      scores.keys ++ ranked.filter (· ∉ scores.keys)
  | [], _, scores, _ => (List.append_nil scores.keys).symm
  | x :: rest, rank, scores, hd => by
    obtain ⟨hx, hrest⟩ := List.nodup_cons.mp hd
    rw [countIn, keys_countIn (rank + 1) _ hrest]
    cases hget : scores.get x with
    | some c =>
      have hmem : x ∈ scores.keys := by
        rw [Dict.mem_keys, hget]
        rfl
      rw [Dict.keys_set_of_get hget, List.filter_cons_of_neg (by simpa using hmem)]
    | none =>
      have hnot : x ∉ scores.keys := (Dict.get_eq_none scores x).mp hget
      have hsame : rest.filter (· ∉ scores.keys ++ [x]) = rest.filter (· ∉ scores.keys) := by
        refine List.filter_congr fun y hy => ?_
        have hne : y ≠ x := by
          rintro rfl
          exact hx hy
        simp [hne]
      rw [Dict.keys_set hget, List.filter_cons_of_pos (by simpa using hnot), hsame, List.append_assoc]
      rfl

theorem keys_fusedScores (hl : lexical.Nodup) (hv : vector.Nodup) :
    (fusedScores searcher lexical vector).keys = firstSeen lexical vector := by
  have hfirst : ∀ (w : ℚ) (m : Nat → RetrievalCandidate → RetrievalCandidate),
      (countIn searcher w m 1 lexical .empty).keys = lexical := fun w m => by
    rw [keys_countIn 1 _ hl]
    simp [Dict.keys, Dict.empty]
  rw [fusedScores, keys_countIn 1 _ hv, hfirst, firstSeen]

theorem rankIn_of_mem {ranked : List String} (h : id ∈ ranked) :
    rankIn ranked id = some (1 + ranked.idxOf id) := by
  rw [rankIn, if_pos h, Nat.add_comm]

theorem rankIn_of_not_mem {ranked : List String} (h : id ∉ ranked) : rankIn ranked id = none := by
  rw [rankIn, if_neg h]

theorem share_of_mem {ranked : List String} (h : id ∈ ranked) :
    share searcher weight ranked id = weight / (searcher.rrfK + (1 + ranked.idxOf id : Nat) : ℚ) := by
  rw [share, rankIn_of_mem h]

theorem share_of_not_mem {ranked : List String} (h : id ∉ ranked) :
    share searcher weight ranked id = 0 := by
  rw [share, rankIn_of_not_mem h]

theorem get_fusedScores (hl : lexical.Nodup) (hv : vector.Nodup) (h : id ∈ firstSeen lexical vector) :
    (fusedScores searcher lexical vector).get id = some (fusedCandidate searcher lexical vector id) := by
  have hmem : id ∈ lexical ∨ id ∈ vector := by
    rcases List.mem_append.mp h with h | h
    · exact .inl h
    · exact .inr (List.mem_of_mem_filter h)
  rw [fusedScores, fusedCandidate, scoreOf]
  by_cases hvec : id ∈ vector
  · rw [get_countIn_of_mem 1 _ hv hvec, share_of_mem hvec, rankIn_of_mem hvec]
    by_cases hlex : id ∈ lexical
    · rw [get_countIn_of_mem 1 _ hl hlex, share_of_mem hlex, rankIn_of_mem hlex]
      simp
    · rw [get_countIn_of_not_mem 1 _ hlex, share_of_not_mem hlex, rankIn_of_not_mem hlex]
      simp
  · have hlex : id ∈ lexical := hmem.resolve_right hvec
    rw [get_countIn_of_not_mem 1 _ hvec, get_countIn_of_mem 1 _ hl hlex, share_of_mem hlex,
      share_of_not_mem hvec, rankIn_of_mem hlex, rankIn_of_not_mem hvec]
    simp

/-- The fusion sorts the ids, in the order they are first counted, by their scores. -/
theorem reciprocalRankFuse_eq (hl : lexical.Nodup) (hv : vector.Nodup) :
    reciprocalRankFuse searcher lexical vector =
      (KeyOrder.orderBy (fun id => -scoreOf searcher lexical vector id) (firstSeen lexical vector)).map
        (fusedCandidate searcher lexical vector) := by
  have hvalues : (fusedScores searcher lexical vector).entries.map Prod.snd =
      (firstSeen lexical vector).map (fusedCandidate searcher lexical vector) := by
    have hkeys : (fusedScores searcher lexical vector).keys = firstSeen lexical vector :=
      keys_fusedScores hl hv
    rw [← hkeys]
    refine Dict.values_eq fun id h => get_fusedScores hl hv ?_
    rwa [hkeys] at h
  rw [reciprocalRankFuse, hvalues, ← KeyOrder.map_orderBy]
  rfl

theorem fusedIds_eq (hl : lexical.Nodup) (hv : vector.Nodup) : fusedIds searcher lexical vector =
    KeyOrder.orderBy (fun id => -scoreOf searcher lexical vector id) (firstSeen lexical vector) := by
  rw [fusedIds, reciprocalRankFuse_eq hl hv, List.map_map]
  exact List.map_id _

theorem nodup_firstSeen (hl : lexical.Nodup) (hv : vector.Nodup) : (firstSeen lexical vector).Nodup := by
  refine List.nodup_append.mpr ⟨hl, hv.filter _, fun a ha b hb hab => ?_⟩
  have hnot : b ∉ lexical := by simpa using List.of_mem_filter hb
  exact hnot (hab ▸ ha)

theorem mem_firstSeen : id ∈ firstSeen lexical vector ↔ id ∈ lexical ∨ id ∈ vector := by
  rw [firstSeen, List.mem_append, List.mem_filter, decide_eq_true_eq]
  constructor
  · rintro (h | ⟨h, -⟩)
    · exact .inl h
    · exact .inr h
  · rintro (h | h)
    · exact .inl h
    · by_cases hlex : id ∈ lexical
      · exact .inl hlex
      · exact .inr ⟨h, hlex⟩

/-- Leaving out what came before does not change what comes first. -/
theorem idxOf_firstSeen {a b : String} (ha : a ∈ firstSeen lexical vector)
    (hb : b ∈ firstSeen lexical vector)
    (h : (firstSeen lexical vector).idxOf a < (firstSeen lexical vector).idxOf b) :
    (lexical ++ vector).idxOf a < (lexical ++ vector).idxOf b := by
  have hfilter : ∀ {l : List String}, a ∈ l → b ∈ l → a ∉ lexical → b ∉ lexical →
      (l.filter (· ∉ lexical)).idxOf a < (l.filter (· ∉ lexical)).idxOf b → l.idxOf a < l.idxOf b := by
    intro l
    induction l with
    | nil => intro ha; cases ha
    | cons x rest ih =>
      intro hal hbl hna hnb hlt
      by_cases hxa : x = a
      · subst hxa
        have hxb : x ≠ b := by
          rintro rfl
          exact absurd hlt (lt_irrefl _)
        rw [List.idxOf_cons_self, List.idxOf_cons_ne _ hxb]
        exact Nat.succ_pos _
      · by_cases hxb : x = b
        · subst hxb
          rw [List.filter_cons_of_pos (by simpa using hnb), List.idxOf_cons_self] at hlt
          exact absurd hlt (Nat.not_lt_zero _)
        · rw [List.idxOf_cons_ne _ hxa, List.idxOf_cons_ne _ hxb]
          refine Nat.succ_lt_succ (ih ((List.mem_cons.mp hal).resolve_left (Ne.symm hxa))
            ((List.mem_cons.mp hbl).resolve_left (Ne.symm hxb)) hna hnb ?_)
          by_cases hx : x ∈ lexical
          · rwa [List.filter_cons_of_neg (by simpa using hx)] at hlt
          · rw [List.filter_cons_of_pos (by simpa using hx), List.idxOf_cons_ne _ hxa,
              List.idxOf_cons_ne _ hxb] at hlt
            exact Nat.lt_of_succ_lt_succ hlt
  rw [firstSeen, List.idxOf_append, List.idxOf_append] at h
  rw [List.idxOf_append, List.idxOf_append]
  by_cases hla : a ∈ lexical
  · by_cases hlb : b ∈ lexical
    · rwa [if_pos hla, if_pos hlb] at h ⊢
    · rw [if_pos hla, if_neg hlb]
      exact lt_of_lt_of_le (List.idxOf_lt_length_of_mem hla) (Nat.le_add_left _ _)
  · have hva : a ∈ vector := (mem_firstSeen.mp ha).resolve_left hla
    by_cases hlb : b ∈ lexical
    · rw [if_neg hla, if_pos hlb] at h
      exact absurd (lt_trans h (List.idxOf_lt_length_of_mem hlb)) (Nat.not_lt.mpr (Nat.le_add_left _ _))
    · have hvb : b ∈ vector := (mem_firstSeen.mp hb).resolve_left hlb
      rw [if_neg hla, if_neg hlb] at h ⊢
      exact Nat.add_lt_add_right (hfilter hva hvb hla hlb (Nat.lt_of_add_lt_add_right h)) _

/-! ## Better ranks -/

theorem divisor_pos (searcher : Searcher) (i : Nat) : (0 : ℚ) < searcher.rrfK + (1 + i : Nat) := by
  have hk : (0 : ℚ) ≤ searcher.rrfK := Nat.cast_nonneg _
  have hrank : (0 : ℚ) < (1 + i : Nat) := Nat.cast_pos.mpr (by omega)
  exact add_pos_of_nonneg_of_pos hk hrank

/-- A place further down is worth no more. -/
theorem share_le {a b : String} {ranked raised : List String} (hw : 0 < weight) (ha : a ∈ ranked)
    (hb : b ∈ raised) (hle : ranked.idxOf a ≤ raised.idxOf b) :
    share searcher weight raised b ≤ share searcher weight ranked a := by
  rw [share_of_mem ha, share_of_mem hb]
  have hcast : ((1 + ranked.idxOf a : Nat) : ℚ) ≤ (1 + raised.idxOf b : Nat) :=
    Nat.cast_le.mpr (Nat.add_le_add_left hle 1)
  exact div_le_div_of_nonneg_left hw.le (divisor_pos searcher _) (add_le_add_right hcast _)

theorem share_lt {a b : String} {ranked raised : List String} (hw : 0 < weight) (ha : a ∈ ranked)
    (hb : b ∈ raised) (hlt : raised.idxOf b < ranked.idxOf a) :
    share searcher weight ranked a < share searcher weight raised b := by
  rw [share_of_mem ha, share_of_mem hb]
  have hcast : ((1 + raised.idxOf b : Nat) : ℚ) < (1 + ranked.idxOf a : Nat) :=
    Nat.cast_lt.mpr (Nat.add_lt_add_left hlt 1)
  exact div_lt_div_of_pos_left hw (divisor_pos searcher _) (add_lt_add_right hcast _)

theorem RaisedIn.perm {ranked raised : List String} (h : RaisedIn id ranked raised) :
    raised.Perm ranked := by
  obtain ⟨above, between, below, rfl, rfl⟩ := h
  exact (List.perm_middle.symm).append_left above

/-- An id that is raised is the same list or has a higher share; the others keep theirs or lose. -/
theorem RaisedIn.shares {ranked raised : List String} (h : RaisedIn id ranked raised)
    (hd : ranked.Nodup) (hw : 0 < weight) :
    raised = ranked ∨ share searcher weight ranked id < share searcher weight raised id ∧
      ∀ y, y ≠ id → share searcher weight raised y ≤ share searcher weight ranked y := by
  have hperm := h.perm
  obtain ⟨above, between, below, rfl, rfl⟩ := h
  by_cases hnil : between = []
  · subst hnil
    exact .inl rfl
  right
  have hid : id ∉ above ∧ id ∉ between := by
    rw [List.nodup_append] at hd
    refine ⟨fun ha => hd.2.2 id ha id (by simp) rfl, fun hb => ?_⟩
    exact (List.nodup_append.mp hd.2.1).2.2 id hb id (by simp) rfl
  constructor
  · refine share_lt hw (by simp) (by simp) ?_
    rw [List.idxOf_append, if_neg hid.1, List.idxOf_cons_self, List.idxOf_append, if_neg hid.1,
      List.idxOf_append, if_neg hid.2, List.idxOf_cons_self]
    have := List.length_pos_iff.mpr hnil
    omega
  · intro y hy
    by_cases hmem : y ∈ above ++ (between ++ id :: below)
    · refine share_le hw hmem (hperm.symm.subset hmem) ?_
      rw [List.idxOf_append, List.idxOf_append, List.idxOf_append, List.idxOf_cons_ne _ (Ne.symm hy),
        List.idxOf_cons_ne _ (Ne.symm hy), List.idxOf_append]
      split
      · exact le_refl _
      · split <;> omega
    · rw [share_of_not_mem hmem, share_of_not_mem fun hm => hmem (hperm.subset hm)]

/-- An id whose score rises while no other does is not moved down. -/
theorem place_le {lexical' vector' : List String} (hl : lexical.Nodup) (hv : vector.Nodup)
    (hlexical : lexical'.Perm lexical) (hvector : vector'.Perm vector)
    (hrises : scoreOf searcher lexical vector id < scoreOf searcher lexical' vector' id)
    (hothers : ∀ y, y ≠ id → scoreOf searcher lexical' vector' y ≤ scoreOf searcher lexical vector y) :
    (fusedIds searcher lexical' vector').idxOf id ≤ (fusedIds searcher lexical vector).idxOf id := by
  have hl' : lexical'.Nodup := hlexical.nodup_iff.mpr hl
  have hv' : vector'.Nodup := hvector.nodup_iff.mpr hv
  have hseen : (firstSeen lexical' vector').Perm (firstSeen lexical vector) := by
    rw [List.perm_ext_iff_of_nodup (nodup_firstSeen hl' hv') (nodup_firstSeen hl hv)]
    intro a
    rw [mem_firstSeen, mem_firstSeen, hlexical.mem_iff, hvector.mem_iff]
  rw [fusedIds_eq hl hv, fusedIds_eq hl' hv']
  by_cases hid : id ∈ firstSeen lexical vector
  · rw [KeyOrder.idxOf_orderBy (nodup_firstSeen hl hv) hid,
      KeyOrder.idxOf_orderBy (nodup_firstSeen hl' hv') (hseen.symm.subset hid), hseen.countP_eq]
    refine List.countP_mono_left fun y _ hy => ?_
    rw [decide_eq_true_eq] at hy ⊢
    -- what still comes before the id has at least its new score
    have hne : y ≠ id := by
      rintro rfl
      exact KeyOrder.before_asymm _ _ hy hy
    have hle : scoreOf searcher lexical' vector' id ≤ scoreOf searcher lexical' vector' y := by
      rcases hy with hlt | ⟨heq, -⟩
      · exact (neg_lt_neg_iff.mp hlt).le
      · exact (neg_injective heq).ge
    left
    exact neg_lt_neg (lt_of_lt_of_le hrises (hle.trans (hothers y hne)))
  · have hnot : ∀ {key : String → ℚ} {rows : List String}, rows.Perm (firstSeen lexical vector) →
        id ∉ KeyOrder.orderBy key rows := fun hp hmem =>
      hid (hp.subset ((KeyOrder.orderBy_perm _ _).subset hmem))
    rw [List.idxOf_eq_length (hnot hseen), List.idxOf_eq_length (hnot (List.Perm.refl _)),
      (KeyOrder.orderBy_perm _ _).length_eq, (KeyOrder.orderBy_perm _ _).length_eq, hseen.length_eq]

/-! ## The laws -/

theorem lexical_descending (hw : 0 < searcher.lexicalWeight) (hl : lexical.Nodup) :
    lexical.Pairwise fun a b => -scoreOf searcher lexical [] a ≤ -scoreOf searcher lexical [] b := by
  have hidx : lexical.Pairwise fun a b => lexical.idxOf a < lexical.idxOf b := by
    rw [List.pairwise_iff_getElem]
    intro i j hi hj hij
    rwa [hl.idxOf_getElem i hi, hl.idxOf_getElem j hj]
  refine hidx.imp_of_mem fun {a b} ha hb hlt => neg_le_neg ?_
  rw [scoreOf, scoreOf, share_of_not_mem (List.not_mem_nil), share_of_not_mem (List.not_mem_nil),
    add_zero, add_zero]
  exact share_le hw ha hb hlt.le

/-- With no vector list the fusion is the lexical list. -/
theorem fusedIds_degraded (hw : 0 < searcher.lexicalWeight) (hl : lexical.Nodup) :
    fusedIds searcher lexical [] = lexical := by
  rw [fusedIds_eq hl List.nodup_nil]
  have hseen : firstSeen lexical [] = lexical := List.append_nil lexical
  rw [hseen]
  exact (lexical_descending hw hl).insertionSort_eq

/-- **The fusion keeps its laws** for lists without repeated ids, any `rrf_k`
and positive weights. -/
theorem fusion_laws (searcher : Searcher) (lexical vector : List String)
    (hlw : 0 < searcher.lexicalWeight) (hvw : 0 < searcher.vectorWeight) (hl : lexical.Nodup)
    (hv : vector.Nodup) : FusionLaw searcher lexical vector := by
  have hids := @reciprocalRankFuse_ids searcher lexical vector
  have hsorted : (KeyOrder.orderBy (fun id => -scoreOf searcher lexical vector id)
      (firstSeen lexical vector)).Pairwise _ := KeyOrder.orderBy_stable (nodup_firstSeen hl hv)
  have hmem : ∀ {x}, x ∈ KeyOrder.orderBy (fun id => -scoreOf searcher lexical vector id)
      (firstSeen lexical vector) → x ∈ firstSeen lexical vector := fun h =>
    (KeyOrder.orderBy_perm _ _).subset h
  refine ⟨hids.1, hids.2, fun c hc => ?_, ?_, ?_, fun id raised hr => ?_, fun id raised hr => ?_, ?_⟩
  · rw [reciprocalRankFuse_eq hl hv] at hc
    obtain ⟨id, -, rfl⟩ := List.mem_map.mp hc
    exact ⟨rfl, rfl, rfl⟩
  · rw [reciprocalRankFuse_eq hl hv, List.pairwise_map]
    exact (KeyOrder.orderBy_sorted _ _).imp fun h => neg_le_neg_iff.mp h
  · rw [reciprocalRankFuse_eq hl hv, List.pairwise_map]
    refine hsorted.imp_of_mem fun {a b} ha hb hbefore heq => ?_
    rcases hbefore with hlt | ⟨-, hidx⟩
    · exact absurd heq (neg_lt_neg_iff.mp hlt).ne'
    · exact idxOf_firstSeen (hmem ha) (hmem hb) hidx
  · rcases hr.shares hl hlw with rfl | ⟨hrises, hothers⟩
    · exact le_refl _
    · exact place_le hl hv hr.perm (List.Perm.refl _) (add_lt_add_left hrises _)
        fun y hy => add_le_add_left (hothers y hy) _
  · rcases hr.shares hv hvw with rfl | ⟨hrises, hothers⟩
    · exact le_refl _
    · exact place_le hl hv (List.Perm.refl _) hr.perm (add_lt_add_right hrises _)
        fun y hy => add_le_add_right (hothers y hy) _
  · rintro rfl
    exact fusedIds_degraded hlw hl

/-- With the weights of the code, an id of both lists is first. -/
theorem fusion_laws_both : fusedIds {} ["a", "b"] ["b", "c"] = ["b", "a", "c"] ∧
    FusionLaw {} ["a", "b"] ["b", "c"] :=
  ⟨by decide +kernel, fusion_laws {} ["a", "b"] ["b", "c"] (by decide) (by decide) (by decide)
    (by decide)⟩

/-- A search whose embedding fails returns the lexical list, in its order. -/
theorem search_degraded {db : Postgres} {embed : String → Except String (List (List ℚ))}
    {versions : List NoticeVersion} {query e : String} {filters : RetrievalFilter}
    (hw : 0 < searcher.lexicalWeight) (hids : (versions.map (·.id)).Nodup)
    (he : embedQuery embed query = .error e) :
    (search db searcher embed versions query filters).1.map (·.noticeVersionId) =
        lexicalRecall db searcher query (amongCandidates db versions filters 1) ∧
      (search db searcher embed versions query filters).2 = ["vector_unavailable"] := by
  have hscan : ((db.scan 1 versions).map (·.id)).Nodup :=
    ((db.scan_perm 1 versions).map _).nodup_iff.mpr hids
  have hamong : ((amongCandidates db versions filters 1).map (·.id)).Nodup :=
    hscan.sublist (List.filter_sublist.map _)
  have hlexical : (lexicalRecall db searcher query (amongCandidates db versions filters 1)).Nodup := by
    refine List.Nodup.sublist ((List.take_sublist _ _).map _) ?_
    exact ((KeyOrder.orderBy_perm _ _).map _).nodup_iff.mpr hamong
  constructor
  · rw [search_fst, he]
    exact fusedIds_degraded hw hlexical
  · simp only [search, he, vectorRecall]

end BidScope.L6
