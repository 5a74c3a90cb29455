import Mathlib.Data.List.Pairwise
import BidScope.L2Graph.Run
import BidScope.L2Graph.Verified

/-!
# Duplicates and opportunities

`resolve_duplicates` visits each pair of candidates in both orders and records
a group for every pair found exact, and for every ambiguous pair the model is
asked about; `verify_evidence` makes an opportunity of every candidate that has
a view and does not read the groups.

* `mem_recorded`: which groups are recorded. The `i`-th ambiguous pair in loop
  order gets the model's `i`-th answer.
* `pairDecision_comm`: the classifier's decision does not depend on the order.
* `deduplicated_iff`: the groups and the opportunities are de-duplicated exactly
  when there is nothing to de-duplicate: no two candidates are exact, and the
  model says of no ambiguous pair that it is, nor contradicts itself.
-/
namespace BidScope.L2

open BidScope.L1

variable {lib : Lib} {p : Ports} {s : RunState} {u : Update} {views : Dict String NoticeView}

/-! ## The groups recorded -/

/-- What `classify_duplicate` decides of two notices that have views. -/
def pairDecision (lib : Lib) (views : Dict String NoticeView) (pair : String × String) :
    Option DuplicateDecision :=
  match views.get pair.1, views.get pair.2 with
  | some source, some target => some (classifyDuplicate lib source target []).decision
  | _, _ => none

/-- The pairs the model is asked about, in order. -/
def asked (lib : Lib) (views : Dict String NoticeView) (pairs : List (String × String)) :
    List (String × String) :=
  pairs.filter fun pair => pairDecision lib views pair = some .ambiguous

/-- The model's answer to its call number `k`, on this pair. -/
def answer (p : Ports) (views : Dict String NoticeView) (k : Nat) (pair : String × String) :
    Option DuplicateDecision :=
  match views.get pair.1, views.get pair.2 with
  | some source, some target =>
    match p.classify k source target with
    | .ok m => some m.decision
    | .error _ => none
  | _, _ => none

theorem pairDecision_some {pair : String × String} {d : DuplicateDecision}
    (h : pairDecision lib views pair = some d) :
    ∃ source target, views.get pair.1 = some source ∧ views.get pair.2 = some target ∧
      (classifyDuplicate lib source target []).decision = d := by
  unfold pairDecision at h
  split at h
  · rename_i source target hsource htarget
    exact ⟨source, target, hsource, htarget, Option.some.inj h⟩
  · cases h

/-- One pair: an exact one is recorded, an ambiguous one with the model's answer. -/
theorem resolvePair_cases {acc acc' : Nat × List DuplicateGroup} {pair : String × String}
    (h : resolvePair lib p views acc pair = .ok acc') :
    (pairDecision lib views pair = some .exact ∧
        acc' = (acc.1, acc.2 ++ [⟨pair.1, [pair.2], .exact⟩])) ∨
      (pairDecision lib views pair = some .ambiguous ∧
        ∃ d, answer p views acc.1 pair = some d ∧
          acc' = (acc.1 + 1, acc.2 ++ [⟨pair.1, [pair.2], d⟩])) ∨
      (pairDecision lib views pair ≠ some .exact ∧ pairDecision lib views pair ≠ some .ambiguous ∧
        acc' = acc) := by
  have hunseen : views.get pair.1 = none ∨ views.get pair.2 = none →
      pairDecision lib views pair = none ∧ acc' = acc := by
    intro hnone
    unfold resolvePair at h
    unfold pairDecision
    cases hsource : views.get pair.1 with
    | none =>
      simp only [hsource] at h
      exact ⟨rfl, (Except.ok.inj h).symm⟩
    | some source =>
      have htarget : views.get pair.2 = none := hnone.resolve_left (by simp [hsource])
      simp only [hsource, htarget] at h
      refine ⟨?_, (Except.ok.inj h).symm⟩
      simp only [htarget]
  cases hsource : views.get pair.1 with
  | none =>
    obtain ⟨hd, hsame⟩ := hunseen (Or.inl hsource)
    exact Or.inr (Or.inr ⟨by simp [hd], by simp [hd], hsame⟩)
  | some source =>
    cases htarget : views.get pair.2 with
    | none =>
      obtain ⟨hd, hsame⟩ := hunseen (Or.inr htarget)
      exact Or.inr (Or.inr ⟨by simp [hd], by simp [hd], hsame⟩)
    | some target =>
      have hpair : pairDecision lib views pair =
          some (classifyDuplicate lib source target []).decision := by
        simp only [pairDecision, hsource, htarget]
      simp only [resolvePair, hsource, htarget] at h
      rw [hpair]
      cases hd : (classifyDuplicate lib source target []).decision with
      | ambiguous =>
        rw [hd] at h
        right; left
        cases hm : p.classify acc.1 source target with
        | error e =>
          rw [hm] at h
          cases h
        | ok m =>
          rw [hm] at h
          refine ⟨rfl, m.decision, ?_, (Except.ok.inj h).symm⟩
          simp only [answer, hsource, htarget, hm]
      | exact =>
        rw [hd] at h
        exact Or.inl ⟨rfl, (Except.ok.inj h).symm⟩
      | distinct =>
        rw [hd] at h
        right; right
        exact ⟨by simp, by simp, (Except.ok.inj h).symm⟩

/-- The groups of a loop over the pairs, `k` being the number of the next call. -/
def recorded (lib : Lib) (p : Ports) (views : Dict String NoticeView) :
    Nat → List (String × String) → List DuplicateGroup
  | _, [] => []
  | k, pair :: rest =>
    match pairDecision lib views pair with
    | some .exact => ⟨pair.1, [pair.2], .exact⟩ :: recorded lib p views k rest
    | some .ambiguous =>
      (answer p views k pair).toList.map (fun d => ⟨pair.1, [pair.2], d⟩) ++
        recorded lib p views (k + 1) rest
    | _ => recorded lib p views k rest

theorem resolveFold_recorded :
    ∀ {pairs : List (String × String)} {acc acc' : Nat × List DuplicateGroup},
      pairs.foldlM (resolvePair lib p views) acc = .ok acc' →
      acc'.2 = acc.2 ++ recorded lib p views acc.1 pairs
  | [], acc, acc', h => by
    obtain rfl := Except.ok.inj h
    simp [recorded]
  | pair :: pairs, acc, acc', h => by
    rw [List.foldlM_cons] at h
    cases hone : resolvePair lib p views acc pair with
    | error e =>
      rw [hone] at h
      cases h
    | ok acc₁ =>
      rw [hone] at h
      rw [resolveFold_recorded h, recorded]
      rcases resolvePair_cases hone with ⟨hd, rfl⟩ | ⟨hd, d, hanswer, rfl⟩ | ⟨hne, hna, rfl⟩
      · simp [hd]
      · simp [hd, hanswer]
      · cases hd : pairDecision lib views pair with
        | none => rfl
        | some d =>
          rw [hd] at hne hna
          cases d with
          | exact => exact absurd rfl hne
          | ambiguous => exact absurd rfl hna
          | distinct => rfl

/-- A loop that ends had every call answered. -/
theorem asked_answered :
    ∀ {pairs : List (String × String)} {acc acc' : Nat × List DuplicateGroup},
      pairs.foldlM (resolvePair lib p views) acc = .ok acc' → ∀ i pair,
        (asked lib views pairs)[i]? = some pair → ∃ d, answer p views (acc.1 + i) pair = some d
  | [], acc, acc', h, i, pair', hi => by simp [asked] at hi
  | pair :: pairs, acc, acc', h, i, pair', hi => by
    rw [List.foldlM_cons] at h
    cases hone : resolvePair lib p views acc pair with
    | error e =>
      rw [hone] at h
      cases h
    | ok acc₁ =>
      rw [hone] at h
      have ih := asked_answered h
      unfold asked at hi ih
      rcases resolvePair_cases hone with ⟨hd, rfl⟩ | ⟨hd, d, hanswer, rfl⟩ | ⟨-, hna, rfl⟩
      · rw [List.filter_cons_of_neg (by simp [hd])] at hi
        exact ih i pair' hi
      · rw [List.filter_cons_of_pos (by simp [hd])] at hi
        cases i with
        | zero =>
          obtain rfl := Option.some.inj hi
          exact ⟨d, hanswer⟩
        | succ i =>
          obtain ⟨d', hd'⟩ := ih i pair' hi
          exact ⟨d', by rw [show acc.1 + (i + 1) = acc.1 + 1 + i by omega]; exact hd'⟩
      · rw [List.filter_cons_of_neg (by simp [hna])] at hi
        exact ih i pair' hi

theorem mem_recorded {g : DuplicateGroup} : ∀ {pairs : List (String × String)} {k : Nat},
    g ∈ recorded lib p views k pairs ↔
      (∃ pair ∈ pairs, pairDecision lib views pair = some .exact ∧
        g = ⟨pair.1, [pair.2], .exact⟩) ∨
      ∃ i pair d, (asked lib views pairs)[i]? = some pair ∧
        answer p views (k + i) pair = some d ∧ g = ⟨pair.1, [pair.2], d⟩
  | [], k => by simp [recorded, asked]
  | pair :: pairs, k => by
    have hasked : ∀ {d}, pairDecision lib views pair = d → d ≠ some .ambiguous →
        asked lib views (pair :: pairs) = asked lib views pairs := by
      intro d hd hne
      exact List.filter_cons_of_neg (by simpa [hd] using hne)
    cases hd : pairDecision lib views pair with
    | none =>
      rw [hasked hd (by simp), recorded, hd, mem_recorded]
      simp [hd]
    | some d =>
      cases d with
      | exact =>
        rw [hasked hd (by simp), recorded, hd, List.mem_cons, mem_recorded]
        simp [hd, or_assoc]
      | distinct =>
        rw [hasked hd (by simp), recorded, hd, mem_recorded]
        simp [hd]
      | ambiguous =>
        have hcons : asked lib views (pair :: pairs) = pair :: asked lib views pairs :=
          List.filter_cons_of_pos (by simpa using hd)
        have hshift : ∀ i, k + (i + 1) = k + 1 + i := fun i => by omega
        rw [hcons, recorded, hd, List.mem_append, mem_recorded]
        constructor
        · intro h
          rcases h with h | h | ⟨i, pair', d, hi, hanswer, rfl⟩
          · obtain ⟨d, hanswer, rfl⟩ := List.mem_map.mp h
            exact Or.inr ⟨0, pair, d, rfl, Option.mem_toList.mp hanswer, rfl⟩
          · obtain ⟨pair', hpair', hexact, rfl⟩ := h
            exact Or.inl ⟨pair', List.mem_cons_of_mem _ hpair', hexact, rfl⟩
          · exact Or.inr ⟨i + 1, pair', d, hi, by rw [hshift]; exact hanswer, rfl⟩
        · intro h
          rcases h with ⟨pair', hpair', hexact, rfl⟩ | ⟨i, pair', d, hi, hanswer, rfl⟩
          · rcases List.mem_cons.mp hpair' with rfl | hpair'
            · rw [hd] at hexact
              cases hexact
            · exact Or.inr (Or.inl ⟨pair', hpair', hexact, rfl⟩)
          · cases i with
            | zero =>
              obtain rfl := Option.some.inj hi
              exact Or.inl (List.mem_map.mpr ⟨d, Option.mem_toList.mpr hanswer, rfl⟩)
            | succ i =>
              rw [hshift] at hanswer
              exact Or.inr (Or.inr ⟨i, pair', d, hi, hanswer, rfl⟩)

/-! ## The decision does not depend on the order -/

/-- The strong evidence that two notices are one. -/
def StrongEvidence (lib : Lib) (v w : NoticeView) : Prop :=
  v.contentHash = w.contentHash ∨
    (strip (orEmpty v.projectNumber) ≠ "" ∧
      strip (orEmpty v.projectNumber) = strip (orEmpty w.projectNumber)) ∨
    (v.source = w.source ∧ canonicalizeUrl lib v.canonicalUrl = canonicalizeUrl lib w.canonicalUrl)

/-- The conflict that makes two notices distinct. -/
def Conflict (lib : Lib) (v w : NoticeView) : Prop :=
  truthy v.projectNumber = true ∧ truthy w.projectNumber = true ∧
    v.projectNumber ≠ w.projectNumber ∧
    (normalizeText lib v.purchaser ≠ normalizeText lib w.purchaser ∨
      v.budgetMinorUnits ≠ w.budgetMinorUnits ∨
      normalizeText lib v.region ≠ normalizeText lib w.region)

theorem strongEvidence_comm {v w : NoticeView} (h : StrongEvidence lib v w) :
    StrongEvidence lib w v := by
  rcases h with hhash | ⟨hne, hnumber⟩ | ⟨hsource, hurl⟩
  · exact Or.inl hhash.symm
  · exact Or.inr (Or.inl ⟨hnumber ▸ hne, hnumber.symm⟩)
  · exact Or.inr (Or.inr ⟨hsource.symm, hurl.symm⟩)

theorem conflict_comm {v w : NoticeView} (h : Conflict lib v w) : Conflict lib w v := by
  obtain ⟨hv, hw, hne, hfields⟩ := h
  refine ⟨hw, hv, hne.symm, ?_⟩
  rcases hfields with h | h | h
  · exact Or.inl h.symm
  · exact Or.inr (Or.inl h.symm)
  · exact Or.inr (Or.inr h.symm)

theorem distinctReasons_ne_nil {v w : NoticeView} :
    distinctReasons lib v w ≠ [] ↔ Conflict lib v w := by
  unfold distinctReasons Conflict
  by_cases hv : truthy v.projectNumber = true
  · by_cases hw : truthy w.projectNumber = true
    · by_cases hne : v.projectNumber = w.projectNumber
      · simp [hne]
      · by_cases hp : normalizeText lib v.purchaser = normalizeText lib w.purchaser <;>
          by_cases hb : v.budgetMinorUnits = w.budgetMinorUnits <;>
          by_cases hr : normalizeText lib v.region = normalizeText lib w.region <;>
          simp [hv, hw, hne, hp, hb, hr]
    · simp [hw]
  · simp [hv]

/-- The pair of sources is one of the mappings, in either order. -/
def Mapped (ids : List (String × String)) (v w : NoticeView) : Prop :=
  ∃ pair ∈ ids, (pair.1 = v.source ∧ pair.2 = w.source) ∨ (pair.1 = w.source ∧ pair.2 = v.source)

theorem mapped_comm {ids : List (String × String)} {v w : NoticeView} (h : Mapped ids v w) :
    Mapped ids w v := by
  obtain ⟨pair, hmem, hpair⟩ := h
  exact ⟨pair, hmem, hpair.symm⟩

theorem find_mapped {ids : List (String × String)} {v w : NoticeView} :
    (ids.find? fun x => x.1 == v.source && x.2 == w.source ||
      x.1 == w.source && x.2 == v.source).isSome = true ↔ Mapped ids v w := by
  simp only [List.find?_isSome, Bool.or_eq_true, Bool.and_eq_true, beq_iff_eq, Mapped]

theorem classifyDuplicate_ids_cases (lib : Lib) (v w : NoticeView) (ids : List (String × String)) :
    ((StrongEvidence lib v w ∨ Mapped ids v w) ∧
        (classifyDuplicate lib v w ids).decision = .exact) ∨
      (¬ (StrongEvidence lib v w ∨ Mapped ids v w) ∧ Conflict lib v w ∧
        (classifyDuplicate lib v w ids).decision = .distinct) ∨
      (¬ (StrongEvidence lib v w ∨ Mapped ids v w) ∧ ¬ Conflict lib v w ∧
        (classifyDuplicate lib v w ids).decision = .ambiguous) := by
  have hstrong : (if v.contentHash = w.contentHash then
        ["identical content hash: " ++ v.contentHash] else []) ++
      (if strip (orEmpty v.projectNumber) ≠ "" ∧ strip (orEmpty w.projectNumber) ≠ "" ∧
          strip (orEmpty v.projectNumber) = strip (orEmpty w.projectNumber) then
        ["identical project number: " ++ strip (orEmpty v.projectNumber)] else []) ++
      (if v.source = w.source ∧
          canonicalizeUrl lib v.canonicalUrl = canonicalizeUrl lib w.canonicalUrl then
        ["identical source and canonical URL: " ++ v.source ++ " " ++
          canonicalizeUrl lib v.canonicalUrl] else []) ≠ [] ↔ StrongEvidence lib v w := by
    unfold StrongEvidence
    by_cases hhash : v.contentHash = w.contentHash
    · simp [hhash]
    · by_cases hnumber : strip (orEmpty v.projectNumber) = strip (orEmpty w.projectNumber)
      · by_cases hne : strip (orEmpty w.projectNumber) = "" <;> simp [hhash, hnumber, hne]
      · simp [hhash, hnumber]
  unfold classifyDuplicate
  dsimp only
  cases hfind : ids.find? fun x => x.1 == v.source && x.2 == w.source ||
      x.1 == w.source && x.2 == v.source with
  | some pair =>
    have hm : Mapped ids v w := find_mapped.mp (by rw [hfind]; rfl)
    rw [if_pos (by simp)]
    exact Or.inl ⟨Or.inr hm, rfl⟩
  | none =>
    have hm : ¬ Mapped ids v w := fun h => by
      have hsome := find_mapped.mpr h
      rw [hfind] at hsome
      cases hsome
    rw [List.append_nil, or_iff_left hm]
    by_cases hs : StrongEvidence lib v w
    · rw [if_pos (hstrong.mpr hs)]
      exact Or.inl ⟨hs, rfl⟩
    · rw [if_neg fun h => hs (hstrong.mp h)]
      by_cases hc : Conflict lib v w
      · rw [if_pos (distinctReasons_ne_nil.mpr hc)]
        exact Or.inr (Or.inl ⟨hs, hc, rfl⟩)
      · rw [if_neg fun h => hc (distinctReasons_ne_nil.mp h)]
        exact Or.inr (Or.inr ⟨hs, hc, rfl⟩)

theorem classifyDuplicate_cases (lib : Lib) (v w : NoticeView) :
    (StrongEvidence lib v w ∧ (classifyDuplicate lib v w []).decision = .exact) ∨
      (¬ StrongEvidence lib v w ∧ Conflict lib v w ∧
        (classifyDuplicate lib v w []).decision = .distinct) ∨
      (¬ StrongEvidence lib v w ∧ ¬ Conflict lib v w ∧
        (classifyDuplicate lib v w []).decision = .ambiguous) := by
  have hnone : ¬ Mapped [] v w := by
    rintro ⟨pair, hmem, -⟩
    cases hmem
  simpa only [or_iff_left hnone] using classifyDuplicate_ids_cases lib v w []

theorem classifyDuplicate_comm (lib : Lib) (v w : NoticeView) (ids : List (String × String)) :
    (classifyDuplicate lib v w ids).decision = (classifyDuplicate lib w v ids).decision := by
  have hground : ∀ {x y : NoticeView}, StrongEvidence lib x y ∨ Mapped ids x y →
      StrongEvidence lib y x ∨ Mapped ids y x :=
    fun h => h.imp strongEvidence_comm mapped_comm
  rcases classifyDuplicate_ids_cases lib v w ids with ⟨hs, h⟩ | ⟨hs, hc, h⟩ | ⟨hs, hc, h⟩ <;>
    rcases classifyDuplicate_ids_cases lib w v ids with
      ⟨hs', h'⟩ | ⟨hs', hc', h'⟩ | ⟨hs', hc', h'⟩ <;>
    rw [h, h']
  · exact absurd (hground hs) hs'
  · exact absurd (hground hs) hs'
  · exact absurd (hground hs') hs
  · exact absurd (conflict_comm hc) hc'
  · exact absurd (hground hs') hs
  · exact absurd (conflict_comm hc') hc

theorem pairDecision_comm (a b : String) :
    pairDecision lib views (a, b) = pairDecision lib views (b, a) := by
  unfold pairDecision
  cases views.get a <;> cases views.get b <;> simp [classifyDuplicate_comm]

/-! ## The law -/

theorem mem_orderedPairs {ids : List String} {a b : String} :
    (a, b) ∈ orderedPairs ids ↔ a ∈ ids ∧ b ∈ ids ∧ b ≠ a := by
  unfold orderedPairs
  simp only [List.mem_flatMap, List.mem_map, List.mem_filter, Prod.mk.injEq, decide_eq_true_eq]
  constructor
  · intro h
    obtain ⟨a', ha, b', ⟨hb, hne⟩, rfl, rfl⟩ := h
    exact ⟨ha, hb, hne⟩
  · intro h
    exact ⟨a, h.1, b, ⟨h.2.1, h.2.2⟩, rfl, rfl⟩

/-- Two groups about one unordered pair of notices. -/
def SamePair (g g' : DuplicateGroup) : Prop :=
  (g'.representativeId = g.representativeId ∧ g'.memberIds = g.memberIds) ∨
    (g.memberIds = [g'.representativeId] ∧ g'.memberIds = [g.representativeId])

structure Deduplicated (lib : Lib) (views : Dict String NoticeView) (ids : List String)
    (groups : List DuplicateGroup) (opportunities : List VerifiedOpportunity) : Prop where
  distinct : opportunities.Pairwise fun o o' =>
    pairDecision lib views (o.noticeId, o'.noticeId) ≠ some .exact
  oneRole : ∀ g ∈ groups, ∀ g' ∈ groups, g.decision = .exact → g'.decision = .exact →
    g.representativeId ∉ g'.memberIds
  survives : ∀ id ∈ ids, (views.get id).isSome → (∃ o ∈ opportunities, o.noticeId = id) ∨
    ∃! g, g ∈ groups ∧ g.decision = .exact ∧ id ∈ g.memberIds
  consistent : ∀ g ∈ groups, ∀ g' ∈ groups, SamePair g g' → g'.decision = g.decision

/-- There is nothing to de-duplicate: no two candidates with views are exact, a
candidate named twice counting as two, and the model's answers about an
ambiguous pair agree and are not `exact`. -/
structure NothingExact (lib : Lib) (p : Ports) (views : Dict String NoticeView)
    (ids : List String) : Prop where
  candidates : (ids.filter fun id => (views.get id).isSome).Pairwise fun a b =>
    pairDecision lib views (a, b) ≠ some .exact
  answers : ∀ i pair, (asked lib views (orderedPairs ids))[i]? = some pair →
    answer p views i pair ≠ some .exact
  agree : ∀ i j a b pair, (asked lib views (orderedPairs ids))[i]? = some (a, b) →
    (asked lib views (orderedPairs ids))[j]? = some pair → pair = (a, b) ∨ pair = (b, a) →
    answer p views j pair = answer p views i (a, b)

theorem resolveDuplicates_recorded (h : (resolveDuplicates lib p s).result = .ok u)
    (hviews : p.loadNoticeViews s.candidateNoticeIds = .ok views) :
    u.duplicateGroups = recorded lib p views 0 (orderedPairs s.candidateNoticeIds) ∧
      (∀ i pair, (asked lib views (orderedPairs s.candidateNoticeIds))[i]? = some pair →
        ∃ d, answer p views i pair = some d) ∧
      (s.apply u).candidateNoticeIds = s.candidateNoticeIds := by
  obtain ⟨views', hviews', h⟩ := result_awaiting h
  rw [hviews, Except.ok.injEq] at hviews'
  subst hviews'
  obtain ⟨acc, hacc, h⟩ := result_awaiting h
  obtain rfl := result_ok h
  refine ⟨by rw [resolveFold_recorded hacc]; rfl, fun i pair hi => ?_, by simp [RunState.apply]⟩
  simpa using asked_answered hacc i pair hi

section Law

variable {ids : List String} {groups : List DuplicateGroup}
  {opportunities : List VerifiedOpportunity}

/-- The pair of an ambiguous pair is asked about the other way round, too. -/
theorem asked_swap {a b : String} {i : Nat}
    (h : (asked lib views (orderedPairs ids))[i]? = some (a, b)) :
    ∃ j : Nat, (asked lib views (orderedPairs ids))[j]? = some (b, a) := by
  have hmem := List.mem_filter.mp (List.mem_of_getElem? h)
  obtain ⟨ha, hb, hne⟩ := mem_orderedPairs.mp hmem.1
  have hswap : (b, a) ∈ asked lib views (orderedPairs ids) := by
    refine List.mem_filter.mpr ⟨mem_orderedPairs.mpr ⟨hb, ha, hne.symm⟩, ?_⟩
    rw [pairDecision_comm]
    exact hmem.2
  exact List.mem_iff_getElem?.mp hswap

theorem answered_group {i : Nat} {pair : String × String} {d : DuplicateDecision}
    (h : (asked lib views (orderedPairs ids))[i]? = some pair)
    (hanswer : answer p views i pair = some d) :
    ⟨pair.1, [pair.2], d⟩ ∈ recorded lib p views 0 (orderedPairs ids) :=
  mem_recorded.mpr (Or.inr ⟨i, pair, d, h, by simpa using hanswer, rfl⟩)

/-- De-duplicated groups never record an exact answer of the model: with the two
orders of the pair each notice would be both. -/
theorem nothingExact_of
    (hanswered : ∀ i pair, (asked lib views (orderedPairs ids))[i]? = some pair →
      ∃ d, answer p views i pair = some d)
    (hids : opportunities.map (·.noticeId) = ids.filter fun id => (views.get id).isSome)
    (h : Deduplicated lib views ids (recorded lib p views 0 (orderedPairs ids)) opportunities) :
    NothingExact lib p views ids := by
  have hagree : ∀ i j a b pair, (asked lib views (orderedPairs ids))[i]? = some (a, b) →
      (asked lib views (orderedPairs ids))[j]? = some pair → pair = (a, b) ∨ pair = (b, a) →
      answer p views j pair = answer p views i (a, b) := by
    intro i j a b pair hi hj hpair
    obtain ⟨d, hd⟩ := hanswered i (a, b) hi
    obtain ⟨d', hd'⟩ := hanswered j pair hj
    have hsame : SamePair ⟨a, [b], d⟩ ⟨pair.1, [pair.2], d'⟩ := by
      rcases hpair with rfl | rfl
      · exact Or.inl ⟨rfl, rfl⟩
      · exact Or.inr ⟨rfl, rfl⟩
    have hdecision := h.consistent _ (answered_group hi hd) _ (answered_group hj hd') hsame
    rw [hd, hd', show d' = d from hdecision]
  refine ⟨?_, fun i pair hi hexact => ?_, hagree⟩
  · rw [← hids, List.pairwise_map]
    exact h.distinct
  · obtain ⟨a, b⟩ := pair
    obtain ⟨j, hj⟩ := asked_swap hi
    have hexact' := hagree i j a b (b, a) hi hj (Or.inr rfl)
    rw [hexact] at hexact'
    exact h.oneRole _ (answered_group hi hexact) _ (answered_group hj hexact') rfl rfl
      (List.mem_singleton_self a)

theorem NothingExact.pair (h : NothingExact lib p views ids) :
    ∀ pair ∈ orderedPairs ids, pairDecision lib views pair ≠ some .exact := by
  intro pair hpair hexact
  obtain ⟨a, b⟩ := pair
  obtain ⟨ha, hb, hne⟩ := mem_orderedPairs.mp hpair
  obtain ⟨v, w, hv, hw, -⟩ := pairDecision_some hexact
  have hsymm : Std.Symm fun x y => pairDecision lib views (x, y) ≠ some .exact := by
    refine ⟨fun x y hxy => ?_⟩
    rw [pairDecision_comm]
    exact hxy
  have hma : a ∈ ids.filter fun id => (views.get id).isSome :=
    List.mem_filter.mpr ⟨ha, by simp [hv]⟩
  have hmb : b ∈ ids.filter fun id => (views.get id).isSome :=
    List.mem_filter.mpr ⟨hb, by simp [hw]⟩
  exact h.candidates.forall hma hmb hne.symm hexact

/-- Every group recorded is an answer of the model. -/
theorem NothingExact.answered (h : NothingExact lib p views ids) {g : DuplicateGroup}
    (hg : g ∈ recorded lib p views 0 (orderedPairs ids)) :
    ∃ i pair, (asked lib views (orderedPairs ids))[i]? = some pair ∧
      answer p views i pair = some g.decision ∧ g.representativeId = pair.1 ∧
      g.memberIds = [pair.2] := by
  rcases mem_recorded.mp hg with ⟨pair, hpair, hexact, -⟩ | ⟨i, pair, d, hi, hanswer, rfl⟩
  · exact absurd hexact (h.pair pair hpair)
  · exact ⟨i, pair, hi, by simpa using hanswer, rfl, rfl⟩

theorem deduplicated_of
    (hids : opportunities.map (·.noticeId) = ids.filter fun id => (views.get id).isSome)
    (h : NothingExact lib p views ids) :
    Deduplicated lib views ids (recorded lib p views 0 (orderedPairs ids)) opportunities := by
  refine ⟨?_, fun g hg g' hg' hexact _ => ?_, fun id hid hview => Or.inl ?_,
    fun g hg g' hg' hsame => ?_⟩
  · have hpairwise := h.candidates
    rw [← hids, List.pairwise_map] at hpairwise
    exact hpairwise
  · obtain ⟨i, pair, hi, hanswer, -⟩ := h.answered hg
    rw [hexact] at hanswer
    exact absurd hanswer (h.answers i pair hi)
  · have hmem : id ∈ opportunities.map (·.noticeId) := by
      rw [hids]
      exact List.mem_filter.mpr ⟨hid, hview⟩
    obtain ⟨o, ho, hoid⟩ := List.mem_map.mp hmem
    exact ⟨o, ho, hoid⟩
  · obtain ⟨i, pair, hi, hanswer, hrep, hmembers⟩ := h.answered hg
    obtain ⟨j, pair', hj, hanswer', hrep', hmembers'⟩ := h.answered hg'
    obtain ⟨a, b⟩ := pair
    have hpair : pair' = (a, b) ∨ pair' = (b, a) := by
      obtain ⟨a', b'⟩ := pair'
      unfold SamePair at hsame
      rw [hrep, hrep', hmembers, hmembers'] at hsame
      simpa [and_comm, eq_comm] using hsame
    have hdecisions := h.agree i j a b pair' hi hj hpair
    rw [hanswer, hanswer', Option.some.injEq] at hdecisions
    exact hdecisions

end Law

/-- After `resolve_duplicates` and `verify_evidence` over one view map, groups and
opportunities are de-duplicated exactly when there was nothing to de-duplicate. -/
theorem deduplicated_iff (lib : Lib) {p q : Ports} {s : RunState} {u₁ u₂ : Update}
    {views : Dict String NoticeView} (h₁ : (resolveDuplicates lib p s).result = .ok u₁)
    (h₂ : (verifyEvidence lib q (s.apply u₁)).result = .ok u₂)
    (hp : p.loadNoticeViews s.candidateNoticeIds = .ok views)
    (hq : q.loadNoticeViews s.candidateNoticeIds = .ok views) :
    Deduplicated lib views s.candidateNoticeIds u₁.duplicateGroups u₂.verifiedOpportunities ↔
      NothingExact lib p views s.candidateNoticeIds := by
  obtain ⟨hgroups, hanswered, hcandidates⟩ := resolveDuplicates_recorded h₁ hp
  obtain ⟨views', hviews', hids⟩ := verifyEvidence_opportunities h₂
  rw [hcandidates, hq, Except.ok.injEq] at hviews'
  subst hviews'
  rw [hcandidates] at hids
  rw [hgroups]
  exact ⟨nothingExact_of hanswered hids, deduplicated_of hids⟩

/-! ## Runs of the two nodes -/

/-- What the two nodes return, one after the other. -/
def resolveThenVerify (lib : Lib) (p : Ports) (s : RunState) :
    Option (List DuplicateGroup × List String) :=
  match (resolveDuplicates lib p s).result with
  | .error _ => none
  | .ok u₁ =>
    match (verifyEvidence lib p (s.apply u₁)).result with
    | .error _ => none
    | .ok u₂ => some (u₁.duplicateGroups, u₂.verifiedOpportunities.map (·.noticeId))

theorem resolveThenVerify_some {groups : List DuplicateGroup} {ids : List String}
    (h : resolveThenVerify lib p s = some (groups, ids)) :
    ∃ u₁ u₂, (resolveDuplicates lib p s).result = .ok u₁ ∧
      (verifyEvidence lib p (s.apply u₁)).result = .ok u₂ ∧ u₁.duplicateGroups = groups ∧
      u₂.verifiedOpportunities.map (·.noticeId) = ids := by
  unfold resolveThenVerify at h
  split at h
  · cases h
  · rename_i u₁ h₁
    split at h
    · cases h
    · rename_i u₂ h₂
      rw [Option.some.injEq, Prod.mk.injEq] at h
      exact ⟨u₁, u₂, h₁, h₂, h.1, h.2⟩

def twinView (id contentHash : String) : NoticeView where
  source := "demo"
  externalId := id
  canonicalUrl := "/" ++ id
  projectNumber := none
  contentHash := contentHash

def twoCandidates : RunState := { candidateNoticeIds := ["v1", "v2"] }

def twoContents : Dict String NoticeView := Dict.ofList [("v1", twinView "v1" "c1"), ("v2", twinView "v2" "c2")]

/-- Two contents, and a model that finds any two distinct. -/
def steady : Ports :=
  { demoPorts with
    loadNoticeViews := fun _ => .ok twoContents
    classify := fun _ _ _ => .ok ⟨.distinct, []⟩ }

theorem answer_steady (views : Dict String NoticeView) (i : Nat) (pair : String × String) :
    answer steady views i pair =
      if (views.get pair.1).isSome ∧ (views.get pair.2).isSome then some .distinct else none := by
  unfold answer
  cases views.get pair.1 <;> cases views.get pair.2 <;> rfl

theorem nothingExact_steady : NothingExact asciiLib steady twoContents ["v1", "v2"] where
  candidates := by decide +kernel
  answers i pair _ := by
    rw [answer_steady]
    split <;> simp
  agree i j a b pair _ _ hpair := by
    rw [answer_steady, answer_steady]
    rcases hpair with rfl | rfl
    · rfl
    · simp only [and_comm]

/-- An ambiguous pair is asked about in both orders: two groups agree, and both
candidates survive. -/
theorem deduplicated_demo : ∃ u₁ u₂,
    (resolveDuplicates asciiLib steady twoCandidates).result = .ok u₁ ∧
    (verifyEvidence asciiLib steady (twoCandidates.apply u₁)).result = .ok u₂ ∧
    u₁.duplicateGroups = [⟨"v1", ["v2"], .distinct⟩, ⟨"v2", ["v1"], .distinct⟩] ∧
    u₂.verifiedOpportunities.map (·.noticeId) = ["v1", "v2"] ∧
    Deduplicated asciiLib twoContents twoCandidates.candidateNoticeIds u₁.duplicateGroups
      u₂.verifiedOpportunities := by
  have hrun : resolveThenVerify asciiLib steady twoCandidates =
      some ([⟨"v1", ["v2"], .distinct⟩, ⟨"v2", ["v1"], .distinct⟩], ["v1", "v2"]) := by
    decide +kernel
  obtain ⟨u₁, u₂, h₁, h₂, hgroups, hids⟩ := resolveThenVerify_some hrun
  exact ⟨u₁, u₂, h₁, h₂, hgroups, hids, (deduplicated_iff asciiLib h₁ h₂ rfl rfl).mpr nothingExact_steady⟩

/-- One content under two ids. -/
def twinPorts : Ports :=
  { demoPorts with
    loadNoticeViews := fun _ =>
      .ok (Dict.ofList [("v1", twinView "v1" "c1"), ("v2", twinView "v2" "c1")]) }

/-- Two contents, and a model that answers by the order of its calls. -/
def wavering : Ports :=
  { demoPorts with
    loadNoticeViews := fun _ => .ok twoContents
    classify := fun k _ _ => .ok ⟨if k = 0 then .ambiguous else .distinct, []⟩ }

/-- Both twins are representative and member, and both are opportunities; the
wavering model's two answers about one pair are both recorded. -/
theorem twins_not_deduplicated :
    (∃ u₁ u₂, (resolveDuplicates asciiLib twinPorts twoCandidates).result = .ok u₁ ∧
      (verifyEvidence asciiLib twinPorts (twoCandidates.apply u₁)).result = .ok u₂ ∧
      u₂.verifiedOpportunities.map (·.noticeId) = ["v1", "v2"] ∧
      ∀ views, ¬ Deduplicated asciiLib views ["v1", "v2"] u₁.duplicateGroups
        u₂.verifiedOpportunities) ∧
    (∃ u₁ u₂, (resolveDuplicates asciiLib wavering twoCandidates).result = .ok u₁ ∧
      (verifyEvidence asciiLib wavering (twoCandidates.apply u₁)).result = .ok u₂ ∧
      ∀ views, ¬ Deduplicated asciiLib views ["v1", "v2"] u₁.duplicateGroups
        u₂.verifiedOpportunities) := by
  have htwins : resolveThenVerify asciiLib twinPorts twoCandidates =
      some ([⟨"v1", ["v2"], .exact⟩, ⟨"v2", ["v1"], .exact⟩], ["v1", "v2"]) := by
    decide +kernel
  have hwavering : resolveThenVerify asciiLib wavering twoCandidates =
      some ([⟨"v1", ["v2"], .ambiguous⟩, ⟨"v2", ["v1"], .distinct⟩], ["v1", "v2"]) := by
    decide +kernel
  constructor
  · obtain ⟨u₁, u₂, h₁, h₂, hgroups, hids⟩ := resolveThenVerify_some htwins
    refine ⟨u₁, u₂, h₁, h₂, hids, fun views h => ?_⟩
    rw [hgroups] at h
    exact h.oneRole _ (List.mem_cons_self ..) _
      (List.mem_cons_of_mem _ (List.mem_singleton_self _)) rfl rfl (List.mem_singleton_self _)
  · obtain ⟨u₁, u₂, h₁, h₂, hgroups, -⟩ := resolveThenVerify_some hwavering
    refine ⟨u₁, u₂, h₁, h₂, fun views h => ?_⟩
    rw [hgroups] at h
    have hsame := h.consistent _ (List.mem_cons_self ..) _
      (List.mem_cons_of_mem _ (List.mem_singleton_self _)) (Or.inr ⟨rfl, rfl⟩)
    cases hsame

end BidScope.L2
