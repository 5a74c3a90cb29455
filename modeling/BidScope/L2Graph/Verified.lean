import BidScope.L2Graph.Delivery

/-!
# What `verify_evidence` returns

* `verifyEvidence_opportunities`: the opportunities are the candidates that
  have a view, in order, each as often as it is a candidate.
* `verifyEvidence_keyed`: every span stands under its own hash.
* `evidence_keyed`: so it does in every state of every run.
-/
namespace BidScope.L2

open BidScope.L1

variable {lib : Lib} {p : Ports} {s : RunState} {u : Update}

theorem verifyOne_cases {views : Dict String NoticeView}
    {acc acc' : EvidenceById × List VerifiedOpportunity} {id : String}
    (h : verifyOne lib views acc id = .ok acc') :
    (views.get id = none ∧ acc' = acc) ∨
      ∃ view spans, views.get id = some view ∧
        extractEvidence lib id (joinWith "\n" view.claimSupportingTexts)
          view.claimSupportingTexts = .ok spans ∧
        acc'.1 = spans.foldl bindSpan acc.1 ∧
        acc'.2.map (·.noticeId) = acc.2.map (·.noticeId) ++ [id] := by
  unfold verifyOne at h
  split at h
  · rename_i hnone
    exact Or.inl ⟨hnone, (Except.ok.inj h).symm⟩
  · rename_i view hview
    split at h
    · cases h
    · rename_i spans hspans
      obtain rfl := Except.ok.inj h
      exact Or.inr ⟨view, spans, hview, hspans, rfl, by simp⟩

theorem verifyFold_ids {views : Dict String NoticeView} :
    ∀ {ids : List String} {acc acc' : EvidenceById × List VerifiedOpportunity},
      ids.foldlM (verifyOne lib views) acc = .ok acc' →
      acc'.2.map (·.noticeId) =
        acc.2.map (·.noticeId) ++ ids.filter fun id => (views.get id).isSome
  | [], acc, acc', h => by
    obtain rfl := Except.ok.inj h
    simp
  | id :: ids, acc, acc', h => by
    rw [List.foldlM_cons] at h
    cases hone : verifyOne lib views acc id with
    | error e =>
      rw [hone] at h
      cases h
    | ok acc₁ =>
      rw [hone] at h
      rw [verifyFold_ids h]
      rcases verifyOne_cases hone with ⟨hnone, rfl⟩ | ⟨view, spans, hview, -, -, hids⟩
      · simp [hnone]
      · rw [hids]
        simp [hview]

theorem verifyEvidence_folds (h : (verifyEvidence lib p s).result = .ok u) :
    ∃ views acc, p.loadNoticeViews s.candidateNoticeIds = .ok views ∧
      s.candidateNoticeIds.foldlM (verifyOne lib views) (.empty, []) = .ok acc ∧
      u.evidenceById = acc.1 ∧ u.verifiedOpportunities = acc.2 := by
  obtain ⟨views, hviews, h⟩ := result_awaiting h
  obtain ⟨acc, hacc, h⟩ := result_awaiting h
  obtain rfl := result_ok h
  exact ⟨views, acc, hviews, hacc, rfl, rfl⟩

theorem verifyEvidence_opportunities (h : (verifyEvidence lib p s).result = .ok u) :
    ∃ views, p.loadNoticeViews s.candidateNoticeIds = .ok views ∧
      u.verifiedOpportunities.map (·.noticeId) =
        s.candidateNoticeIds.filter fun id => (views.get id).isSome := by
  obtain ⟨views, acc, hviews, hacc, -, hverified⟩ := verifyEvidence_folds h
  exact ⟨views, hviews, by rw [hverified, verifyFold_ids hacc]; rfl⟩

/-- Every span stands under its own hash. -/
def KeyedByHash (d : EvidenceById) : Prop :=
  ∀ k binding, d.get k = some binding → ∀ span ∈ binding.candidates, span.spanHash = k

theorem keyed_bindSpan {d : EvidenceById} (h : KeyedByHash d) (span : NoticeEvidence) :
    KeyedByHash (bindSpan d span) := by
  intro k binding hget x hx
  unfold bindSpan at hget
  rw [Dict.get_set] at hget
  split at hget
  · rename_i hk
    obtain rfl := Option.some.inj hget
    subst hk
    cases hold : d.get span.spanHash with
    | none =>
      rw [hold] at hx
      obtain rfl := List.mem_singleton.mp hx
      rfl
    | some old =>
      rw [hold] at hx
      have hin : x ∈ old.candidates ∨ x = span := by
        cases old with
        | one e => simpa [Binding.candidates] using hx
        | list es => simpa [Binding.candidates] using hx
        | tuple es => simpa [Binding.candidates] using hx
      rcases hin with hin | rfl
      · exact h _ old hold x hin
      · rfl
  · exact h k binding hget x hx

theorem keyed_foldl : ∀ (spans : List NoticeEvidence) {d : EvidenceById}, KeyedByHash d →
    KeyedByHash (spans.foldl bindSpan d)
  | [], _, h => h
  | span :: spans, _, h => keyed_foldl spans (keyed_bindSpan h span)

theorem verifyFold_keyed {views : Dict String NoticeView} :
    ∀ {ids : List String} {acc acc' : EvidenceById × List VerifiedOpportunity},
      KeyedByHash acc.1 → ids.foldlM (verifyOne lib views) acc = .ok acc' → KeyedByHash acc'.1
  | [], acc, acc', hk, h => by
    obtain rfl := Except.ok.inj h
    exact hk
  | id :: ids, acc, acc', hk, h => by
    rw [List.foldlM_cons] at h
    cases hone : verifyOne lib views acc id with
    | error e =>
      rw [hone] at h
      cases h
    | ok acc₁ =>
      rw [hone] at h
      refine verifyFold_keyed ?_ h
      rcases verifyOne_cases hone with ⟨-, rfl⟩ | ⟨view, spans, -, -, hevidence, -⟩
      · exact hk
      · rw [hevidence]
        exact keyed_foldl spans hk

theorem verifyEvidence_keyed (h : (verifyEvidence lib p s).result = .ok u) : KeyedByHash u.evidenceById := by
  obtain ⟨views, acc, -, hacc, hevidence, -⟩ := verifyEvidence_folds h
  rw [hevidence]
  refine verifyFold_keyed (fun k binding hget => ?_) hacc
  cases hget

theorem keyed_merge {d e : EvidenceById} (hd : KeyedByHash d) (he : KeyedByHash e) :
    KeyedByHash (d.merge e) := by
  intro k binding hget
  rw [Dict.get_merge] at hget
  cases hek : e.get k with
  | none =>
    rw [hek, Option.none_or] at hget
    exact hd k binding hget
  | some b =>
    rw [hek, Option.some_or, Option.some.injEq] at hget
    exact he k binding (hget ▸ hek)

theorem keyed_advance {n : Node} {c : Config} (h : (nodeFn lib p c.values n).result = .ok u)
    (hk : KeyedByHash c.values.evidenceById) :
    KeyedByHash (advance n c u).values.evidenceById := by
  by_cases hn : n = .verifyEvidence
  · subst hn
    exact keyed_merge hk (verifyEvidence_keyed h)
  · rw [Delivery.advance_evidence h hn]
    exact hk

/-- In every run, `evidence_by_id` is keyed by span hash. -/
theorem evidence_keyed (lib : Lib) (s : GState) (hr : (lts lib).Reachable s) :
    KeyedByHash s.cfg.values.evidenceById := by
  refine LTS.Inductive.reachable (I := fun s => KeyedByHash s.cfg.values.evidenceById)
    ⟨fun s hinit => ?_, fun s ev s' hk hs => ?_⟩ s hr
  · obtain ⟨input, rfl⟩ := hinit
    intro k binding hget
    cases hget
  · rcases step_cases hs with ⟨p, n, -, -, -, rfl⟩ | ⟨p, n, -, -, -, rfl⟩ | ⟨-, -, -, rfl⟩
    · rcases visit_cases lib p n s with ⟨u, hu, hc, -⟩ | ⟨e, -, hc, -⟩
      · rw [hc]
        exact keyed_advance hu hk
      · rw [hc]
        exact hk
    · exact hk
    · exact hk

end BidScope.L2
