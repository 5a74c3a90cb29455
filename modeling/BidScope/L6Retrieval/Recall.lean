import BidScope.L6Retrieval.Honoured

/-!
# Lexical recall

The lexical list of a search: the versions that pass the filter, by the
similarity of their titles to the query, cut at `top_k` by the statement. A
title may be missing; its similarity is `NULL`, and `ORDER BY … DESC` puts
`NULL` first.

**Law (`BestTitles`).** The list is made of titled versions, the most similar
ones first, and no version left out is more similar than one in it. So a
version without a title never stands before one with a title, nor in its place.

* `bestTitles_iff`: the law holds exactly when every version that passes the
  filter has a title, or nothing is asked for.
-/
namespace BidScope.L6

open BidScope.L1 BidScope.L2
open BidScope.L5 (NoticeVersion)

variable (db : Postgres) (searcher : Searcher) (versions : List NoticeVersion) (query : String)
  (filters : RetrievalFilter)

/-- The rows of the lexical statement; `lexicalRecall` keeps their ids. -/
def lexicalRows : List NoticeVersion :=
  (KeyOrder.orderBy (similarityKey db query) (amongCandidates db versions filters 1)).take searcher.topK

/-- How similar a version is to the query; without a title, less than any other. -/
def titleSimilarity (v : NoticeVersion) : WithBot ℚ :=
  match v.title with
  | none => ⊥
  | some title => (db.similarity title query : ℚ)

structure BestTitles : Prop where
  titled : ∀ v ∈ lexicalRows db searcher versions query filters, v.title.isSome = true
  best : ∀ v ∈ lexicalRows db searcher versions query filters, ∀ w ∈ versions,
    passes filters w = true → w ∉ lexicalRows db searcher versions query filters →
    titleSimilarity db query w ≤ titleSimilarity db query v
  descending : (lexicalRows db searcher versions query filters).Pairwise fun a b =>
    titleSimilarity db query b ≤ titleSimilarity db query a

variable {db searcher versions query filters}

theorem lexicalRecall_eq : lexicalRecall db searcher query (amongCandidates db versions filters 1) =
    (lexicalRows db searcher versions query filters).map (·.id) := rfl

/-- The candidate set is what passes the filter: ids are a primary key. -/
theorem mem_amongCandidates_iff (hids : (versions.map (·.id)).Nodup) {k : Nat} {v : NoticeVersion} :
    v ∈ amongCandidates db versions filters k ↔ v ∈ versions ∧ passes filters v = true := by
  rw [mem_amongCandidates]
  constructor
  · rintro ⟨hv, w, hw, hpasses, hid⟩
    have hsame : w = v := List.inj_on_of_nodup_map hids hw hv hid
    exact ⟨hv, hsame ▸ hpasses⟩
  · rintro ⟨hv, hpasses⟩
    exact ⟨hv, v, hv, hpasses, rfl⟩

theorem similarityKey_bot {v : NoticeVersion} : similarityKey db query v = ⊥ ↔ v.title = none := by
  unfold similarityKey
  cases v.title <;> simp

theorem similarity_le_of_key {v w : NoticeVersion} (hv : v.title.isSome = true)
    (h : similarityKey db query v ≤ similarityKey db query w) :
    titleSimilarity db query w ≤ titleSimilarity db query v := by
  obtain ⟨title, htitle⟩ := Option.isSome_iff_exists.mp hv
  unfold similarityKey at h
  unfold titleSimilarity
  rw [htitle] at h ⊢
  cases hw : w.title with
  | none => exact bot_le
  | some other =>
    rw [hw] at h
    exact WithBot.coe_le_coe.mpr (neg_le_neg_iff.mp (WithBot.coe_le_coe.mp h))

/-- A row without a title that passes takes the first place. -/
theorem untitled_first (hids : (versions.map (·.id)).Nodup) (hk : searcher.topK ≠ 0)
    {v : NoticeVersion} (hv : v ∈ versions) (hpasses : passes filters v = true)
    (htitle : v.title = none) :
    ∃ u ∈ lexicalRows db searcher versions query filters, u.title = none := by
  have hmem : v ∈ KeyOrder.orderBy (similarityKey db query) (amongCandidates db versions filters 1) :=
    (KeyOrder.orderBy_perm _ _).symm.subset ((mem_amongCandidates_iff hids).mpr ⟨hv, hpasses⟩)
  have hsorted := KeyOrder.orderBy_sorted (similarityKey db query)
    (amongCandidates db versions filters 1)
  unfold lexicalRows
  cases horder : KeyOrder.orderBy (similarityKey db query) (amongCandidates db versions filters 1) with
  | nil =>
    rw [horder] at hmem
    cases hmem
  | cons u rest =>
    rw [horder] at hmem hsorted
    obtain ⟨k, hk⟩ := Nat.exists_eq_succ_of_ne_zero hk
    refine ⟨u, by simp [hk], ?_⟩
    rcases List.mem_cons.mp hmem with rfl | hrest
    · exact htitle
    · have hle := List.rel_of_pairwise_cons hsorted hrest
      rw [similarityKey_bot.mpr htitle, le_bot_iff] at hle
      exact similarityKey_bot.mp hle

theorem bestTitles_of_titled (hids : (versions.map (·.id)).Nodup)
    (h : ∀ v ∈ versions, passes filters v = true → v.title.isSome = true) :
    BestTitles db searcher versions query filters := by
  have hsplit := List.take_append_drop searcher.topK
    (KeyOrder.orderBy (similarityKey db query) (amongCandidates db versions filters 1))
  have hsorted := KeyOrder.orderBy_sorted (similarityKey db query)
    (amongCandidates db versions filters 1)
  rw [← hsplit] at hsorted
  obtain ⟨htake, -, hcross⟩ := List.pairwise_append.mp hsorted
  have hamong : ∀ {v}, v ∈ lexicalRows db searcher versions query filters →
      v ∈ amongCandidates db versions filters 1 := fun hv =>
    (KeyOrder.orderBy_perm _ _).subset (List.mem_of_mem_take hv)
  have htitled : ∀ v ∈ lexicalRows db searcher versions query filters, v.title.isSome = true :=
    fun v hv => h v ((mem_amongCandidates_iff hids).mp (hamong hv)).1
      ((mem_amongCandidates_iff hids).mp (hamong hv)).2
  refine ⟨htitled, fun v hv w hw hpasses hout => ?_, ?_⟩
  · have hmem : w ∈ KeyOrder.orderBy (similarityKey db query) (amongCandidates db versions filters 1) :=
      (KeyOrder.orderBy_perm _ _).symm.subset ((mem_amongCandidates_iff hids).mpr ⟨hw, hpasses⟩)
    rw [← hsplit] at hmem
    have hdrop := (List.mem_append.mp hmem).resolve_left hout
    exact similarity_le_of_key (htitled v hv) (hcross v hv w hdrop)
  · exact htake.imp_of_mem fun ha _ hle => similarity_le_of_key (htitled _ ha) hle

/-- **The best titles are recalled** exactly when every version that passes the
filter has a title, or `top_k` is 0. -/
theorem bestTitles_iff (db : Postgres) (searcher : Searcher) (versions : List NoticeVersion)
    (query : String) (filters : RetrievalFilter) (hids : (versions.map (·.id)).Nodup) :
    BestTitles db searcher versions query filters ↔
      searcher.topK = 0 ∨ ∀ v ∈ versions, passes filters v = true → v.title.isSome = true := by
  constructor
  · intro h
    by_cases hk : searcher.topK = 0
    · exact .inl hk
    · refine .inr fun v hv hpasses => ?_
      by_contra hnone
      rw [Option.not_isSome_iff_eq_none] at hnone
      have hfirst : ∃ u ∈ lexicalRows db searcher versions query filters, u.title = none :=
        untitled_first hids hk hv hpasses hnone
      obtain ⟨u, hu, huntitled⟩ := hfirst
      have hsome := h.titled u hu
      rw [huntitled] at hsome
      cases hsome
  · rintro (hk | hall)
    · have hnil : lexicalRows db searcher versions query filters = [] := by
        rw [lexicalRows, hk, List.take_zero]
      constructor <;> rw [hnil] <;> simp
    · exact bestTitles_of_titled hids hall

/-! ## A row without a title -/

/-- A database that reads its rows in the order stored; on the texts below, equal
texts have similarity 1 and others 0. -/
def plainDb : Postgres where
  scan _ rows := rows
  scan_perm _ rows := List.Perm.refl rows
  similarity title query := if title = query then 1 else 0
  cosineDistance _ _ := 0

def untitledVersion : NoticeVersion := { dearVersion with id := "v0", title := none }

def bridgeVersion : NoticeVersion := { dearVersion with id := "v2", title := some "bridge repair" }

/-- Of two titled versions the one like the query has the only place. -/
theorem bestTitles_iff_titled :
    lexicalRows plainDb { topK := 1 } [bridgeVersion, dearVersion] "road works" {} = [dearVersion] ∧
      BestTitles plainDb { topK := 1 } [bridgeVersion, dearVersion] "road works" {} :=
  ⟨by decide +kernel, (bestTitles_iff plainDb { topK := 1 } [bridgeVersion, dearVersion] "road works" {}
    (by decide)).mpr (.inr (by decide))⟩

/-- With room for one version the one without a title is taken, and not the one
whose title is the query. -/
theorem untitled_displaces :
    lexicalRecall plainDb { topK := 1 } "road works"
        (amongCandidates plainDb [dearVersion, untitledVersion] {} 1) = ["v0"] ∧
      ¬ BestTitles plainDb { topK := 1 } [dearVersion, untitledVersion] "road works" {} := by
  have hrows : lexicalRows plainDb { topK := 1 } [dearVersion, untitledVersion] "road works" {} =
      [untitledVersion] := by
    decide +kernel
  refine ⟨by rw [lexicalRecall_eq, hrows]; rfl, fun h => ?_⟩
  have hsome := h.titled untitledVersion (by rw [hrows]; exact List.mem_singleton_self _)
  cases hsome

end BidScope.L6
