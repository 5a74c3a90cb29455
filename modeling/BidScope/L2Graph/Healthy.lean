import BidScope.L2Graph.Absorbing

/-!
# Answering ports

`Healthy` ports never fail. Over them a node raises only for a state field it
reads through and finds unset (`node_returns`), and `parse_intent` finds its
intent (`parse_healthy`), so every superstep leaves the next node its fields
(`ready_healthy`).
-/
namespace BidScope.L2

open BidScope.L1

/-- No port fails. The importer stores no empty evidence text, so no view
quotes one.
mirrors snapshots/importer.py:434-465 -/
structure Healthy (p : Ports) : Prop where
  parse : ∀ i r, ∃ x, p.parse i r = .ok x
  search : ∀ q f, ∃ x, p.search q f = .ok x
  views : ∀ ids, ∃ d, p.loadNoticeViews ids = .ok d ∧
    ∀ id view, d.get id = some view → ∀ t ∈ view.claimSupportingTexts, t ≠ ""
  classify : ∀ k a b, ∃ x, p.classify k a b = .ok x
  synthesize : ∀ k o, ∃ x, p.synthesize k o = .ok x
  persist : ∀ r ev vs, ∃ x, p.persistOnlineReport r ev vs = .ok x
  exportDocx : ∀ r, ∃ x, p.exportDocx r = .ok x

variable {lib : Lib} {p : Ports}

theorem parse_healthy (hp : Healthy p) (request : String) : IntentReturned p request := by
  obtain ⟨x, hx⟩ := hp.parse 0 request
  exact ⟨0, Nat.zero_le _, x, hx⟩

theorem foldlM_ok {α β : Type} {f : β → α → Except String β} (h : ∀ b a, ∃ b', f b a = .ok b') :
    ∀ (l : List α) (b : β), ∃ b', l.foldlM f b = .ok b'
  | [], b => ⟨b, rfl⟩
  | a :: l, b => by
    obtain ⟨b₁, h₁⟩ := h b a
    obtain ⟨b₂, h₂⟩ := foldlM_ok h l b₁
    exact ⟨b₂, by rw [List.foldlM_cons, h₁]; exact h₂⟩

theorem resolvePair_ok (lib : Lib) (hp : Healthy p) (views : Dict String NoticeView)
    (acc : Nat × List DuplicateGroup) (pair : String × String) :
    ∃ acc', resolvePair lib p views acc pair = .ok acc' := by
  unfold resolvePair
  split
  · rename_i source target _ _
    split
    · obtain ⟨m, hm⟩ := hp.classify acc.1 source target
      rw [hm]
      exact ⟨_, rfl⟩
    · exact ⟨_, rfl⟩
    · exact ⟨_, rfl⟩
  · exact ⟨_, rfl⟩

theorem verifyOne_ok (lib : Lib) {views : Dict String NoticeView}
    (hv : ∀ id view, views.get id = some view → ∀ t ∈ view.claimSupportingTexts, t ≠ "")
    (acc : EvidenceById × List VerifiedOpportunity) (id : String) :
    ∃ acc', verifyOne lib views acc id = .ok acc' := by
  unfold verifyOne
  split
  · exact ⟨_, rfl⟩
  · rename_i view hg
    obtain ⟨spans, hs⟩ := extractEvidence_joined lib id view.claimSupportingTexts (hv id view hg)
    rw [hs]
    exact ⟨_, rfl⟩

theorem synthesizeFrom_ok (hp : Healthy p) :
    ∀ (os : List VerifiedOpportunity) (k : Nat), ∃ items, synthesizeFrom p k os = .ok items
  | [], _ => ⟨[], rfl⟩
  | o :: os, k => by
    obtain ⟨draft, hd⟩ := hp.synthesize k o
    obtain ⟨items, hi⟩ := synthesizeFrom_ok hp os (k + 1)
    exact ⟨draft.items ++ items, by simp only [synthesizeFrom, hd, hi]⟩

/-- With answering ports a node whose fields are set returns. -/
theorem node_returns (lib : Lib) (hp : Healthy p) {s : RunState} {n : Node} (hr : Ready s n) :
    ∃ u, (nodeFn lib p s n).result = .ok u := by
  cases n with
  | start | pause => exact ⟨{}, rfl⟩
  | parseIntent => exact parseIntent_returns lib p s
  | validateIntent =>
    obtain ⟨i, hi⟩ := Option.isSome_iff_exists.mp hr
    simp only [nodeFn, validateIntent, hi, reading]
    split
    · exact ⟨_, rfl⟩
    · exact ⟨_, rfl⟩
  | confirmIntent =>
    obtain ⟨i, hi⟩ := Option.isSome_iff_exists.mp hr
    simp only [nodeFn, confirmIntent, hi, reading]
    split
    · exact ⟨_, rfl⟩
    · exact ⟨_, rfl⟩
  | buildRetrievalPlan =>
    obtain ⟨i, hi⟩ := Option.isSome_iff_exists.mp hr
    simp only [nodeFn, buildRetrievalPlan, hi, reading]
    exact ⟨_, rfl⟩
  | retrieveCandidates =>
    obtain ⟨plan, hi⟩ := Option.isSome_iff_exists.mp hr
    simp only [nodeFn, retrieveCandidates, hi, reading]
    obtain ⟨x, hx⟩ := hp.search (joinWith " " plan.queryTerms) {
      regions := if plan.regions = [] then none else some plan.regions
      publishedFrom := plan.publishedFrom
      publishedTo := plan.publishedTo
      minBudgetMinorUnits := plan.minBudgetMinorUnits }
    rw [hx]
    exact ⟨_, rfl⟩
  | resolveDuplicates =>
    obtain ⟨d, hd, -⟩ := hp.views s.candidateNoticeIds
    obtain ⟨acc, ha⟩ := foldlM_ok (resolvePair_ok lib hp d)
      (orderedPairs s.candidateNoticeIds) (0, [])
    simp only [nodeFn, resolveDuplicates, hd, awaiting, ha]
    exact ⟨_, rfl⟩
  | verifyEvidence =>
    obtain ⟨d, hd, hv⟩ := hp.views s.candidateNoticeIds
    obtain ⟨acc, ha⟩ := foldlM_ok (verifyOne_ok lib hv) s.candidateNoticeIds (.empty, [])
    simp only [nodeFn, verifyEvidence, hd, awaiting, ha]
    exact ⟨_, rfl⟩
  | synthesizeReport =>
    obtain ⟨items, hi⟩ := synthesizeFrom_ok hp s.verifiedOpportunities 0
    simp only [nodeFn, synthesizeReport, hi, awaiting]
    exact ⟨_, rfl⟩
  | validateReport =>
    obtain ⟨d, hd⟩ := Option.isSome_iff_exists.mp hr
    simp only [nodeFn, validateReportNode, hd, reading]
    split
    · exact ⟨_, rfl⟩
    · split
      · exact ⟨_, rfl⟩
      · exact ⟨_, rfl⟩
  | verifySemantics =>
    simp only [nodeFn, verifySemantics]
    split
    · split
      · exact ⟨_, rfl⟩
      · exact ⟨_, rfl⟩
    · exact ⟨_, rfl⟩
  | persistAndDeliver =>
    simp only [nodeFn, persistAndDeliver]
    split
    · rename_i draft intent _ _
      obtain ⟨x, hx⟩ := hp.persist (deliveredReport lib p s draft intent) s.evidenceById
        s.claimVerifications
      obtain ⟨y, hy⟩ := hp.exportDocx x
      simp only [hx, hy]
      exact ⟨_, rfl⟩
    · exact ⟨_, rfl⟩

/-- Over answering ports no node leaves the next one without its fields. -/
theorem ready_healthy (hp : Healthy p) {n m : Node} {c : Config} {u : Update}
    (hr : Ready c.values n) (hu : (nodeFn lib p c.values n).result = .ok u)
    (hm : (advance n c u).next = some m) : Ready (advance n c u).values m := by
  refine ready_advance hr hu ?_ hm
  intro heq
  subst heq
  obtain ⟨r, hr⟩ := (intentReturned_iff p c.values.userRequest).mp (parse_healthy hp _)
  rcases parseIntent_cases hu with ⟨_, _, -, rfl⟩ | ⟨_, _, he, -⟩
  · simp
  · rw [hr] at he
    cases he

theorem demo_healthy : Healthy demoPorts where
  parse _ _ := ⟨_, rfl⟩
  search _ _ := ⟨_, rfl⟩
  views _ := by
    refine ⟨_, rfl, fun id view hv t ht => ?_⟩
    simp only [Dict.ofList, List.foldl_cons, List.foldl_nil, Dict.get_set, Dict.get_empty] at hv
    split at hv
    · cases hv
      cases ht
    · cases hv
  classify _ _ _ := ⟨_, rfl⟩
  synthesize _ _ := ⟨_, rfl⟩
  persist _ _ _ := ⟨_, rfl⟩
  exportDocx _ := ⟨_, rfl⟩

end BidScope.L2
