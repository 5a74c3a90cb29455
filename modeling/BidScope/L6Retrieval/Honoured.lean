import BidScope.L2Graph.Builder
import BidScope.L6Retrieval.Search

/-!
# From the intent to the candidates

`build_retrieval_plan` and `retrieve_candidates` with the searcher behind the
search port: which of an intent's constraints the candidates satisfy.

`SearchIntent.max_budget` has no counterpart in `RetrievalPlan` and none in
`RetrievalFilter`, and a requested region goes into a `LIKE` pattern as it is.

* `candidates_eq`: the candidates are those of the search with the intent's
  filter; nothing else of the intent reaches it.
* `honoursIntent_iff`: every candidate satisfies the whole intent, under every
  ranking, exactly when no stored version that passes the filter is above
  `max_budget` or in a region that extends no requested one.
* `extends_plain`: the second can only happen to a requested region with a
  metacharacter.
-/
namespace BidScope.L6

open BidScope.L1 BidScope.L2
open BidScope.L5 (NoticeVersion)

/-- A searcher with its database and its embedding provider. -/
structure Retriever where
  db : Postgres
  searcher : Searcher
  embed : String → Except String (List (List ℚ))

/-- `deps.searcher.search` -/
def Retriever.port (r : Retriever) (versions : List NoticeVersion) (query : String)
    (filters : RetrievalFilter) : Except String RetrievalResult :=
  let result := search r.db r.searcher r.embed versions query filters
  .ok ⟨result.1.map (·.noticeVersionId), result.2⟩

/-- What the two nodes make of the intent. -/
def filterOf (intent : SearchIntent) : RetrievalFilter where
  regions := if intent.regions = [] then none else some intent.regions
  publishedFrom := intent.publishedFrom
  publishedTo := intent.publishedTo
  minBudgetMinorUnits := intent.minBudget.map (·.minorUnits)

def queryOf (intent : SearchIntent) : String :=
  joinWith " " (intent.topics ++ intent.expandedTerms).eraseDups

/-- One execution of the two nodes, with a searcher over `versions`. -/
structure Retrieval (lib : Lib) (versions : List NoticeVersion) (intent : SearchIntent) where
  r : Retriever
  p : Ports
  s : RunState
  plan : Update
  found : Update
  intent_eq : s.searchIntent = some intent
  search_eq : p.search = r.port versions
  planned : (buildRetrievalPlan lib p s).result = .ok plan
  retrieved : (retrieveCandidates lib p (s.apply plan)).result = .ok found

variable {lib : Lib} {r : Retriever} {versions : List NoticeVersion} {intent : SearchIntent}

def Retrieval.candidates (x : Retrieval lib versions intent) : List String :=
  x.found.candidateNoticeIds

theorem plan_of_intent {p : Ports} {s : RunState} {u : Update}
    (hintent : s.searchIntent = some intent) (h : (buildRetrievalPlan lib p s).result = .ok u) :
    u.retrievalPlan = some {
      queryTerms := (intent.topics ++ intent.expandedTerms).eraseDups
      regions := intent.regions
      publishedFrom := intent.publishedFrom
      publishedTo := intent.publishedTo
      minBudgetMinorUnits := intent.minBudget.map (·.minorUnits) } := by
  obtain ⟨intent', hintent', h⟩ := result_reading h
  rw [hintent, Option.some.injEq] at hintent'
  subst hintent'
  rw [result_ok h]

theorem found_of_plan {p : Ports} {s : RunState} {u : Update} {plan : RetrievalPlan}
    (hplan : s.retrievalPlan = some plan) (h : (retrieveCandidates lib p s).result = .ok u) :
    ∃ result, p.search (joinWith " " plan.queryTerms) {
        regions := if plan.regions = [] then none else some plan.regions
        publishedFrom := plan.publishedFrom
        publishedTo := plan.publishedTo
        minBudgetMinorUnits := plan.minBudgetMinorUnits } = .ok result ∧
      u.candidateNoticeIds = result.candidates := by
  obtain ⟨plan', hplan', h⟩ := result_reading h
  rw [hplan, Option.some.injEq] at hplan'
  subst hplan'
  obtain ⟨result, hresult, h⟩ := result_awaiting h
  exact ⟨result, hresult, by rw [result_ok h]⟩

theorem port_cases {query : String} {filters : RetrievalFilter} {result : RetrievalResult}
    (h : r.port versions query filters = .ok result) : result.candidates =
      (search r.db r.searcher r.embed versions query filters).1.map (·.noticeVersionId) := by
  unfold Retriever.port at h
  generalize search r.db r.searcher r.embed versions query filters = found at h ⊢
  rw [Except.ok.injEq] at h
  rw [← h]

namespace Retrieval

theorem candidates_eq (x : Retrieval lib versions intent) : x.candidates =
    (search x.r.db x.r.searcher x.r.embed versions (queryOf intent) (filterOf intent)).1.map
      (·.noticeVersionId) := by
  have hplan := plan_of_intent x.intent_eq x.planned
  have hplan' : (x.s.apply x.plan).retrievalPlan = x.plan.retrievalPlan := by
    rw [apply_retrievalPlan, hplan]
    rfl
  obtain ⟨result, hresult, hfound⟩ := found_of_plan (hplan'.trans hplan) x.retrieved
  rw [x.search_eq] at hresult
  rw [Retrieval.candidates, hfound]
  exact port_cases hresult

/-- Every candidate passes the filter of the intent. -/
theorem passes (x : Retrieval lib versions intent) {id : String} (h : id ∈ x.candidates) :
    ∃ v ∈ versions, v.id = id ∧ L6.passes (filterOf intent) v = true := by
  rw [x.candidates_eq] at h
  exact search_passes h

end Retrieval

/-! ## Every version that passes may be a candidate -/

/-- Rows in their order, titles and embeddings all alike. -/
def plainRetriever (topK : Nat) : Retriever where
  db := { scan := fun _ rows => rows
          scan_perm := fun _ _ => List.Perm.refl _
          similarity := fun _ _ => 0
          cosineDistance := fun _ _ => 0 }
  searcher := { topK }
  embed := fun _ => .error "unavailable"

/-- The collaborators of a run that only retrieves. -/
def retrievingPorts (r : Retriever) (versions : List NoticeVersion) : Ports where
  now _ := ⟨0, 0⟩
  parse _ _ := .error "unavailable"
  search := r.port versions
  loadNoticeViews _ := .error "unavailable"
  classify _ _ _ := .error "unavailable"
  synthesize _ _ := .error "unavailable"
  semanticVerifier := none
  persistOnlineReport _ _ _ := .error (.other "unavailable")
  exportDocx _ := .error (.other "unavailable")

theorem exists_retrieval (lib : Lib) (r : Retriever) (versions : List NoticeVersion)
    (intent : SearchIntent) : ∃ x : Retrieval lib versions intent, x.r = r := by
  let p := retrievingPorts r versions
  let s : RunState := { searchIntent := some intent }
  obtain ⟨plan, hplan⟩ : ∃ plan, (buildRetrievalPlan lib p s).result = .ok plan := ⟨_, rfl⟩
  obtain ⟨found, hfound⟩ : ∃ found, (retrieveCandidates lib p (s.apply plan)).result = .ok found := by
    have hintent : s.searchIntent = some intent := rfl
    have hsome := plan_of_intent hintent hplan
    unfold retrieveCandidates reading awaiting
    rw [apply_retrievalPlan, hsome]
    exact ⟨_, rfl⟩
  exact ⟨⟨r, p, s, plan, found, rfl, rfl, hplan, hfound⟩, rfl⟩

/-- Each version that passes the filter is a candidate of some retrieval. -/
theorem exists_candidates (lib : Lib) (versions : List NoticeVersion) (intent : SearchIntent) :
    ∃ x : Retrieval lib versions intent,
      ∀ v ∈ versions, passes (filterOf intent) v = true → v.id ∈ x.candidates := by
  obtain ⟨x, hx⟩ := exists_retrieval lib (plainRetriever versions.length) versions intent
  refine ⟨x, fun v hv hpasses => ?_⟩
  rw [x.candidates_eq, hx]
  exact search_complete hv hpasses (Nat.le_refl _)

/-! ## The law -/

/-- The version satisfies each constraint of the intent. Amounts are compared by
their minor units, as the intent's own validator does. -/
structure Satisfies (intent : SearchIntent) (v : NoticeVersion) : Prop where
  region : intent.regions = [] ∨
    ∃ requested ∈ intent.regions, ∃ region ∈ v.region, requested.toList <+: region.toList
  from' : ∀ bound ∈ intent.publishedFrom, ∃ d ∈ v.publishDate, bound.utc ≤ d.utc
  to' : ∀ bound ∈ intent.publishedTo, ∃ d ∈ v.publishDate, d.utc ≤ bound.utc
  floor : ∀ bound ∈ intent.minBudget, ∃ b ∈ v.budgetMinorUnits, bound.minorUnits ≤ b
  ceiling : ∀ bound ∈ intent.maxBudget, ∀ b ∈ v.budgetMinorUnits, b ≤ bound.minorUnits
  active : v.cancellation = false

/-- Stored versions: rows with ids of their own. -/
structure Corpus where
  versions : List NoticeVersion
  distinct : (versions.map (·.id)).Nodup

/-- However the searcher ranks, every candidate satisfies the intent. -/
def HonoursIntent (lib : Lib) (corpus : Corpus) (intent : SearchIntent) : Prop :=
  ∀ x : Retrieval lib corpus.versions intent, ∀ id ∈ x.candidates,
    ∃ v ∈ corpus.versions, v.id = id ∧ Satisfies intent v

/-- The constraints no stage checks: the upper bound of the budget, and that the
region extends a requested one rather than matches it as a pattern. -/
structure Unchecked (intent : SearchIntent) (v : NoticeVersion) : Prop where
  ceiling : ∀ bound ∈ intent.maxBudget, ∀ b ∈ v.budgetMinorUnits, b ≤ bound.minorUnits
  extends' : intent.regions = [] ∨
    ∃ requested ∈ intent.regions, ∃ region ∈ v.region, requested.toList <+: region.toList

theorem passes_iff (filters : RetrievalFilter) (v : NoticeVersion) :
    passes filters v = true ↔ v.cancellation = false ∧
      (∀ regions ∈ filters.regions, regions = [] ∨ ∃ requested ∈ regions, ∃ region ∈ v.region,
        region = requested ∨ startsWith region requested = true) ∧
      (∀ bound ∈ filters.publishedFrom, ∃ d ∈ v.publishDate, bound.utc ≤ d.utc) ∧
      (∀ bound ∈ filters.publishedTo, ∃ d ∈ v.publishDate, d.utc ≤ bound.utc) ∧
      (∀ bound ∈ filters.minBudgetMinorUnits, ∃ b ∈ v.budgetMinorUnits, bound ≤ b) := by
  unfold passes passesFilter
  cases filters.regions <;> simp [and_assoc, Option.any_eq_true, Option.all_eq_true]

/-- What passes the filter satisfies all but the unchecked constraints. -/
theorem satisfies_iff {v : NoticeVersion} (h : passes (filterOf intent) v = true) :
    Satisfies intent v ↔ Unchecked intent v := by
  obtain ⟨hactive, -, hfrom, hto, hmin⟩ := (passes_iff _ _).mp h
  constructor
  · intro hs
    exact ⟨hs.ceiling, hs.region⟩
  · intro hu
    refine ⟨hu.extends', hfrom, hto, fun bound hbound => ?_, hu.ceiling, hactive⟩
    exact hmin bound.minorUnits (Option.mem_map_of_mem _ hbound)

/-- A requested region without metacharacters is matched by what extends it. -/
theorem extends_plain {v : NoticeVersion} (h : passes (filterOf intent) v = true)
    (hplain : ∀ requested ∈ intent.regions, Like.Plain requested.toList) :
    intent.regions = [] ∨
      ∃ requested ∈ intent.regions, ∃ region ∈ v.region, requested.toList <+: region.toList := by
  by_cases hregions : intent.regions = []
  · exact Or.inl hregions
  · right
    have hfilter : intent.regions ∈ (filterOf intent).regions := by simp [filterOf, hregions]
    rcases ((passes_iff _ _).mp h).2.1 intent.regions hfilter with hnil | hmatch
    · exact absurd hnil hregions
    · obtain ⟨requested, hrequested, region, hregion, heq | hlike⟩ := hmatch
      · exact ⟨requested, hrequested, region, hregion, by rw [heq]⟩
      · exact ⟨requested, hrequested, region, hregion,
          (Like.like_append_percent _ _ (hplain requested hrequested)).mp hlike⟩

theorem HonoursIntent.satisfies {corpus : Corpus} (h : HonoursIntent lib corpus intent)
    {v : NoticeVersion} (hv : v ∈ corpus.versions) (hpasses : passes (filterOf intent) v = true) :
    Satisfies intent v := by
  obtain ⟨x, hx⟩ := exists_candidates lib corpus.versions intent
  obtain ⟨w, hw, hid, hsatisfies⟩ := h x v.id (hx v hv hpasses)
  obtain rfl := List.inj_on_of_nodup_map corpus.distinct hw hv hid
  exact hsatisfies

/-- Retrieval honours an intent over a corpus exactly when every version that
passes the filter meets the constraints no stage checks. -/
theorem honoursIntent_iff (lib : Lib) (corpus : Corpus) (intent : SearchIntent) :
    HonoursIntent lib corpus intent ↔
      ∀ v ∈ corpus.versions, passes (filterOf intent) v = true → Unchecked intent v := by
  constructor
  · intro h v hv hpasses
    exact (satisfies_iff hpasses).mp (h.satisfies hv hpasses)
  · intro h x id hid
    obtain ⟨v, hv, hvid, hpasses⟩ := x.passes hid
    exact ⟨v, hv, hvid, (satisfies_iff hpasses).mpr (h v hv hpasses)⟩

/-! ## A budget above the maximum, and a region that is a pattern -/

/-- At most 100. -/
def cheapIntent : SearchIntent where
  topics := ["road"]
  regions := ["Zhejiang"]
  maxBudget := some { minorUnits := 100 }
  confidence := 1
  confidenceRange := SearchIntent.sure
  dateRange := SearchIntent.anyDates

def anyRegionIntent : SearchIntent where
  topics := ["road"]
  regions := ["%"]
  confidence := 1
  confidenceRange := SearchIntent.sure
  dateRange := SearchIntent.anyDates
  budgetRange := SearchIntent.anyBudget

def dearVersion : NoticeVersion where
  id := "v1"
  sourceNoticeId := "n1"
  createdAt := 1
  payloadObjectKey := "snapshots/b-1/h"
  captureKind := "synthetic_demo"
  parserVersion := "1"
  contentHash := "h"
  title := some "road works"
  purchaser := none
  region := some "Zhejiang"
  publishDate := none
  deadline := none
  budgetMinorUnits := some 200
  budgetCurrency := some "CNY"
  summary := none
  cancellation := false
  rawFields := []

def dearCorpus : Corpus := ⟨[dearVersion], by decide⟩

/-- A notice of 200 is a candidate of a run that asked for at most 100, and one
from Zhejiang of a run that asked for the region "%". -/
theorem dear_not_honoured : ¬ HonoursIntent asciiLib dearCorpus cheapIntent ∧
    ¬ HonoursIntent asciiLib dearCorpus anyRegionIntent := by
  constructor
  · intro h
    have hs := h.satisfies (List.mem_singleton_self dearVersion) (by decide +kernel)
    exact absurd (hs.ceiling _ rfl 200 rfl) (by decide)
  · intro h
    have hs := h.satisfies (List.mem_singleton_self dearVersion) (by decide +kernel)
    rcases hs.region with hnil | ⟨requested, hrequested, region, hregion, hprefix⟩
    · exact absurd hnil (by decide)
    · obtain rfl := List.mem_singleton.mp hrequested
      obtain rfl := Option.some.inj hregion
      exact absurd hprefix (by decide)

end BidScope.L6
