import BidScope.Core.LTS
import BidScope.L2Graph.Nodes

/-!
# The compiled graph

`graph/builder.py`: the edges between the nodes and the compiled graph's run.
A `Config` is what a checkpoint holds between two supersteps: the channel
values and the node to run next, `none` at the end of the graph.

**LangGraph.** A fresh invocation first stores its input with the pseudo-node
`start` pending; the superstep of `start` writes the input's channels. One
superstep runs the pending node, applies its update and routes. The graph is
compiled with `interrupt_after=["pause"]`: the superstep of `pause` ends the
invocation with `next` set, and `Command(resume=...)` continues from there. A
node that raises ends the invocation; its checkpoint is the one before.

**Results.**
* `rank_advance`: every superstep lowers `rank`, so from any state the graph
  ends within 15 supersteps (`rank_le`), under the limit of 16.
* `ready_advance`: a node that reads through an optional state field finds it
  set, unless `parse_intent` failed.
-/
namespace BidScope.L2

open BidScope.L1

/-- `start` is LangGraph's `__start__`. -/
inductive Node where
  | start | parseIntent | validateIntent | confirmIntent | pause | buildRetrievalPlan
  | retrieveCandidates | resolveDuplicates | verifyEvidence | synthesizeReport | validateReport
  | verifySemantics | persistAndDeliver
  deriving DecidableEq, Repr

/-- mirrors graph/builder.py:124 -/
def recursionLimit : Nat := 16

/-- mirrors graph/builder.py:68-72 -/
def routeAfterValidate (s : RunState) : Option Node :=
  if s.status = .failed then none else some .confirmIntent

/-- mirrors graph/nodes.py:189-193 -/
def routeAfterConfirm (s : RunState) : Option Node :=
  if s.status = .awaitingConfirmation then some .pause else some .buildRetrievalPlan

/-- mirrors graph/nodes.py:592-598, through the edge map of graph/builder.py:170-178 -/
def routeAfterValidateReport (s : RunState) : Option Node :=
  if s.status = .synthesizeReport then some .synthesizeReport
  else if s.status = .persistAndDeliver then some .verifySemantics
  else none

/-- The edges.
mirrors graph/builder.py:147-179 -/
def successor (s : RunState) : Node → Option Node
  | .start => some .parseIntent
  | .parseIntent => some .validateIntent
  | .validateIntent => routeAfterValidate s
  | .confirmIntent => routeAfterConfirm s
  | .pause => some .buildRetrievalPlan
  | .buildRetrievalPlan => some .retrieveCandidates
  | .retrieveCandidates => some .resolveDuplicates
  | .resolveDuplicates => some .verifyEvidence
  | .verifyEvidence => some .synthesizeReport
  | .synthesizeReport => some .validateReport
  | .validateReport => routeAfterValidateReport s
  | .verifySemantics => some .persistAndDeliver
  | .persistAndDeliver => none

/-- `input` is the content of the `__start__` channel. -/
structure Config where
  values : RunState
  next : Option Node
  input : Option Input := none
  deriving DecidableEq

variable (lib : Lib)

def nodeFn (p : Ports) (s : RunState) : Node → NodeResult
  | .start => .ok {}
  | .parseIntent => parseIntent lib p s
  | .validateIntent => validateIntent lib p s
  | .confirmIntent => confirmIntent lib p s
  | .pause => pause
  | .buildRetrievalPlan => buildRetrievalPlan lib p s
  | .retrieveCandidates => retrieveCandidates lib p s
  | .resolveDuplicates => resolveDuplicates lib p s
  | .verifyEvidence => verifyEvidence lib p s
  | .synthesizeReport => synthesizeReport lib p s
  | .validateReport => validateReportNode lib p s
  | .verifySemantics => verifySemantics lib p s
  | .persistAndDeliver => persistAndDeliver lib p s

/-- The values after the superstep of `n` returned `u`. -/
def advanceValues (n : Node) (c : Config) (u : Update) : RunState :=
  match n, c.input with
  | .start, some i => c.values.applyInput i
  | .start, none => c.values
  | _, _ => c.values.apply u

def advance (n : Node) (c : Config) (u : Update) : Config where
  values := advanceValues n c u
  next := successor (advanceValues n c u) n
  input := none

theorem advanceValues_of_ne {n : Node} (h : n ≠ .start) (c : Config) (u : Update) :
    advanceValues n c u = c.values.apply u := by
  cases n <;> first | rfl | exact absurd rfl h

/-! ## What a node may return -/

variable {lib} {p : Ports} {s : RunState} {u : Update}

theorem result_reading {α : Type} {f : String} {x : Option α} {k : α → NodeResult}
    (h : (reading f x k).result = .ok u) : ∃ a, x = some a ∧ (k a).result = .ok u := by
  cases x with
  | none => cases h
  | some a => exact ⟨a, rfl, h⟩

theorem result_awaiting {α : Type} {x : Except String α} {k : α → NodeResult}
    (h : (awaiting x k).result = .ok u) : ∃ a, x = .ok a ∧ (k a).result = .ok u := by
  cases x with
  | error e => cases h
  | ok a => exact ⟨a, rfl, h⟩

theorem result_ok {v : Update} (h : (NodeResult.ok v).result = .ok u) : u = v := by
  cases h
  rfl

theorem parseIntent_cases (h : (parseIntent lib p s).result = .ok u) :
    (∃ intent usage, parseAttempts p s.userRequest (MAX_MODEL_RETRIES + 1) 0 "None" =
        .ok (intent, usage) ∧ u = {
          searchIntent := some intent
          status := some .validateIntent
          nodeEvents := [nodeEvent lib p 0 "parse_intent" "intent_parsed" "ok"]
          tokenUsage := usage.toList }) ∨
    (∃ e err, parseAttempts p s.userRequest (MAX_MODEL_RETRIES + 1) 0 "None" = .error e ∧ u = {
          status := some .failed
          errors := [err]
          nodeEvents := [nodeEvent lib p 0 "parse_intent" "transient_error" "error"] }) := by
  unfold parseIntent at h
  split at h
  · rename_i intent usage ha
    exact Or.inl ⟨intent, usage, ha, result_ok h⟩
  · rename_i e ha
    exact Or.inr ⟨e, _, ha, result_ok h⟩

theorem validateIntent_cases (h : (validateIntent lib p s).result = .ok u) :
    ∃ intent, s.searchIntent = some intent ∧
      ((intentErrors lib intent ≠ [] ∧ u = {
          status := some .failed
          errors := intentErrors lib intent
          nodeEvents := [nodeEvent lib p 0 "validate_intent" "intent_invalid" "error"] }) ∨
       (intentErrors lib intent = [] ∧ u = {
          status := some .confirmIntent
          nodeEvents := [nodeEvent lib p 0 "validate_intent" "intent_valid" "ok"] })) := by
  obtain ⟨intent, hi, h⟩ := result_reading h
  refine ⟨intent, hi, ?_⟩
  split at h
  · rename_i hne
    exact Or.inl ⟨hne, result_ok h⟩
  · rename_i he
    exact Or.inr ⟨by simpa using he, result_ok h⟩

theorem confirmIntent_cases (h : (confirmIntent lib p s).result = .ok u) :
    ∃ intent, s.searchIntent = some intent ∧
      ((needsConfirmation intent = true ∧ u = {
          status := some .awaitingConfirmation
          nodeEvents := [nodeEvent lib p 0 "confirm_intent" "needs_confirmation" "ok"] }) ∨
       (needsConfirmation intent = false ∧ u = {
          status := some .buildRetrievalPlan
          nodeEvents := [nodeEvent lib p 0 "confirm_intent" "auto_confirmed" "ok"] })) := by
  obtain ⟨intent, hi, h⟩ := result_reading h
  refine ⟨intent, hi, ?_⟩
  split at h
  · rename_i hn
    exact Or.inl ⟨hn, result_ok h⟩
  · rename_i hn
    exact Or.inr ⟨by simpa using hn, result_ok h⟩

theorem buildRetrievalPlan_cases (h : (buildRetrievalPlan lib p s).result = .ok u) :
    ∃ intent plan, s.searchIntent = some intent ∧ u = {
      retrievalPlan := some plan
      status := some .retrieveCandidates
      nodeEvents := [nodeEvent lib p 0 "build_retrieval_plan" "plan_built" "ok"] } := by
  obtain ⟨intent, hi, h⟩ := result_reading h
  exact ⟨intent, _, hi, result_ok h⟩

theorem retrieveCandidates_cases (h : (retrieveCandidates lib p s).result = .ok u) :
    ∃ ids modes ev, u = {
      candidateNoticeIds := ids
      degradedModes := modes
      status := some .resolveDuplicates
      nodeEvents := [ev] } := by
  obtain ⟨plan, -, h⟩ := result_reading h
  obtain ⟨result, -, h⟩ := result_awaiting h
  exact ⟨_, _, _, result_ok h⟩

theorem resolveDuplicates_cases (h : (resolveDuplicates lib p s).result = .ok u) :
    ∃ groups, u = {
      duplicateGroups := groups
      status := some .candidatesResolved
      nodeEvents := [nodeEvent lib p 0 "resolve_duplicates" "duplicates_resolved" "ok"] } := by
  obtain ⟨views, -, h⟩ := result_awaiting h
  obtain ⟨acc, -, h⟩ := result_awaiting h
  exact ⟨_, result_ok h⟩

theorem verifyEvidence_cases (h : (verifyEvidence lib p s).result = .ok u) :
    ∃ evidence verified, u = {
      evidenceById := evidence
      verifiedOpportunities := verified
      status := some .synthesizeReport
      nodeEvents := [nodeEvent lib p 0 "verify_evidence" "evidence_verified" "ok"] } := by
  obtain ⟨views, -, h⟩ := result_awaiting h
  obtain ⟨acc, -, h⟩ := result_awaiting h
  exact ⟨_, _, result_ok h⟩

theorem synthesizeReport_cases (h : (synthesizeReport lib p s).result = .ok u) :
    ∃ draft, u = {
      report := some (some draft)
      status := some .validateReport
      nodeEvents := [nodeEvent lib p 0 "synthesize_report" "report_synthesized" "ok"] } := by
  obtain ⟨items, -, h⟩ := result_awaiting h
  exact ⟨_, result_ok h⟩

theorem validateReportNode_cases (h : (validateReportNode lib p s).result = .ok u) :
    ∃ draft, s.report = some draft ∧
      (((validateReport lib draft.items s.evidenceById).valid = true ∧ u = {
          status := some .persistAndDeliver
          nodeEvents := [nodeEvent lib p 0 "validate_report" "report_valid" "ok"] }) ∨
       ((validateReport lib draft.items s.evidenceById).valid = false ∧
          s.retryCount < MAX_SYNTHESIS_RETRIES ∧ u = {
          retryCount := some (s.retryCount + 1)
          report := some none
          status := some .synthesizeReport
          nodeEvents := [nodeEvent lib p 0 "validate_report" "report_invalid_retry" "ok"] }) ∨
       ((validateReport lib draft.items s.evidenceById).valid = false ∧
          ¬ s.retryCount < MAX_SYNTHESIS_RETRIES ∧ ∃ err, err.code = .evidenceInsufficient ∧ u = {
          status := some .failed
          report := some none
          errors := [err]
          nodeEvents :=
            [nodeEvent lib p 0 "validate_report" "evidence_insufficient" "error"] })) := by
  obtain ⟨draft, hd, h⟩ := result_reading h
  refine ⟨draft, hd, ?_⟩
  dsimp only at h
  split at h
  · rename_i hv
    exact Or.inl ⟨hv, result_ok h⟩
  · rename_i hv
    split at h
    · rename_i hr
      exact Or.inr (Or.inl ⟨by simpa using hv, hr, result_ok h⟩)
    · rename_i hr
      exact Or.inr (Or.inr ⟨by simpa using hv, hr, _, rfl, result_ok h⟩)

theorem verifySemantics_cases (h : (verifySemantics lib p s).result = .ok u) :
    ∃ verdicts ev modes, u = {
      claimVerifications := verdicts
      nodeEvents := [ev]
      degradedModes := modes } := by
  unfold verifySemantics at h
  split at h
  · split at h
    · exact ⟨_, _, _, result_ok h⟩
    · exact ⟨_, _, _, result_ok h⟩
  · exact ⟨_, _, _, result_ok h⟩

/-- `persist_and_deliver` either fails the run or completes it; its calls on
the report store carry the state's own report and evidence. -/
theorem persistAndDeliver_cases (h : (persistAndDeliver lib p s).result = .ok u) :
    ∃ status errors ev, (status = .completed ∨ status = .failed ∧ errors ≠ []) ∧ u = {
      status := some status
      errors := errors
      nodeEvents := [ev] } := by
  unfold persistAndDeliver at h
  split at h
  · dsimp only at h
    split at h
    · cases h
    · exact ⟨_, _, _, Or.inr ⟨rfl, List.cons_ne_nil _ _⟩, result_ok h⟩
    · split at h
      · cases h
      · exact ⟨_, _, _, Or.inl rfl, result_ok h⟩
      · exact ⟨_, [], _, Or.inl rfl, result_ok h⟩
  · exact ⟨_, _, _, Or.inr ⟨rfl, List.cons_ne_nil _ _⟩, result_ok h⟩

/-- The channels a node leaves alone. -/
structure Frame (n : Node) (u : Update) : Prop where
  intent : n ≠ .parseIntent → u.searchIntent = none
  plan : n ≠ .buildRetrievalPlan → u.retrievalPlan = none
  evidence : n ≠ .verifyEvidence → u.evidenceById = .empty
  report : n ≠ .synthesizeReport → n ≠ .validateReport → u.report = none
  retry : n ≠ .validateReport → u.retryCount = none

theorem frame {n : Node} (h : (nodeFn lib p s n).result = .ok u) : Frame n u := by
  cases n with
  | start => cases h; exact ⟨fun _ => rfl, fun _ => rfl, fun _ => rfl, fun _ _ => rfl, fun _ => rfl⟩
  | pause => cases h; exact ⟨fun _ => rfl, fun _ => rfl, fun _ => rfl, fun _ _ => rfl, fun _ => rfl⟩
  | parseIntent =>
    rcases parseIntent_cases h with ⟨_, _, -, rfl⟩ | ⟨_, _, -, rfl⟩
    · exact ⟨fun h => absurd rfl h, fun _ => rfl, fun _ => rfl, fun _ _ => rfl, fun _ => rfl⟩
    · exact ⟨fun _ => rfl, fun _ => rfl, fun _ => rfl, fun _ _ => rfl, fun _ => rfl⟩
  | validateIntent =>
    obtain ⟨_, -, ⟨-, rfl⟩ | ⟨-, rfl⟩⟩ := validateIntent_cases h
    all_goals exact ⟨fun _ => rfl, fun _ => rfl, fun _ => rfl, fun _ _ => rfl, fun _ => rfl⟩
  | confirmIntent =>
    obtain ⟨_, -, ⟨-, rfl⟩ | ⟨-, rfl⟩⟩ := confirmIntent_cases h
    all_goals exact ⟨fun _ => rfl, fun _ => rfl, fun _ => rfl, fun _ _ => rfl, fun _ => rfl⟩
  | buildRetrievalPlan =>
    obtain ⟨_, _, -, rfl⟩ := buildRetrievalPlan_cases h
    exact ⟨fun _ => rfl, fun h => absurd rfl h, fun _ => rfl, fun _ _ => rfl, fun _ => rfl⟩
  | retrieveCandidates =>
    obtain ⟨_, _, _, rfl⟩ := retrieveCandidates_cases h
    exact ⟨fun _ => rfl, fun _ => rfl, fun _ => rfl, fun _ _ => rfl, fun _ => rfl⟩
  | resolveDuplicates =>
    obtain ⟨_, rfl⟩ := resolveDuplicates_cases h
    exact ⟨fun _ => rfl, fun _ => rfl, fun _ => rfl, fun _ _ => rfl, fun _ => rfl⟩
  | verifyEvidence =>
    obtain ⟨_, _, rfl⟩ := verifyEvidence_cases h
    exact ⟨fun _ => rfl, fun _ => rfl, fun h => absurd rfl h, fun _ _ => rfl, fun _ => rfl⟩
  | synthesizeReport =>
    obtain ⟨_, rfl⟩ := synthesizeReport_cases h
    exact ⟨fun _ => rfl, fun _ => rfl, fun _ => rfl, fun h => absurd rfl h, fun _ => rfl⟩
  | validateReport =>
    obtain ⟨_, -, ⟨-, rfl⟩ | ⟨-, -, rfl⟩ | ⟨-, -, _, -, rfl⟩⟩ := validateReportNode_cases h
    all_goals exact ⟨fun _ => rfl, fun _ => rfl, fun _ => rfl, fun _ h => absurd rfl h,
      fun h => absurd rfl h⟩
  | verifySemantics =>
    obtain ⟨_, _, _, rfl⟩ := verifySemantics_cases h
    exact ⟨fun _ => rfl, fun _ => rfl, fun _ => rfl, fun _ _ => rfl, fun _ => rfl⟩
  | persistAndDeliver =>
    obtain ⟨_, _, _, -, rfl⟩ := persistAndDeliver_cases h
    exact ⟨fun _ => rfl, fun _ => rfl, fun _ => rfl, fun _ _ => rfl, fun _ => rfl⟩

/-- The names of the node and of the event, in the events a node may write. -/
def Node.emits : Node → List (String × String)
  | .start | .pause => []
  | .parseIntent => [("parse_intent", "intent_parsed"), ("parse_intent", "transient_error")]
  | .validateIntent => [("validate_intent", "intent_invalid"), ("validate_intent", "intent_valid")]
  | .confirmIntent => [("confirm_intent", "needs_confirmation"), ("confirm_intent", "auto_confirmed")]
  | .buildRetrievalPlan => [("build_retrieval_plan", "plan_built")]
  | .retrieveCandidates => [("retrieve_candidates", "lexical_only"), ("retrieve_candidates", "hybrid")]
  | .resolveDuplicates => [("resolve_duplicates", "duplicates_resolved")]
  | .verifyEvidence => [("verify_evidence", "evidence_verified")]
  | .synthesizeReport => [("synthesize_report", "report_synthesized")]
  | .validateReport => [("validate_report", "report_valid"), ("validate_report", "report_invalid_retry"),
      ("validate_report", "evidence_insufficient")]
  | .verifySemantics => [("verify_semantics", "semantics_skipped"), ("verify_semantics", "semantics_degraded"),
      ("verify_semantics", "semantics_verified")]
  | .persistAndDeliver => [("persist_and_deliver", "online_report_failed"),
      ("persist_and_deliver", "online_report_ready_docx_failed"), ("persist_and_deliver", "report_delivered")]

/-- The events of the update have names of the node. -/
def Emits (n : Node) (u : Update) : Prop := ∀ e ∈ u.nodeEvents, (e.node, e.event) ∈ n.emits

theorem emits_one {n : Node} {k : Nat} {node event status : String}
    (hu : u.nodeEvents = [nodeEvent lib p k node event status]) (h : (node, event) ∈ n.emits) : Emits n u := by
  intro e he
  rw [hu] at he
  rw [List.mem_singleton.mp he]
  exact h

theorem emits_none {n : Node} (hu : u.nodeEvents = []) : Emits n u := by
  intro e he
  rw [hu] at he
  cases he

theorem emits_deliveryFailed (k : Nat) (code : BidScopeErrorCode) (t : String) :
    Emits .persistAndDeliver (deliveryFailed lib p k code t) := emits_one rfl (by decide)

theorem persistAndDeliver_emits (h : (persistAndDeliver lib p s).result = .ok u) : Emits .persistAndDeliver u := by
  unfold persistAndDeliver at h
  split at h
  · dsimp only at h
    split at h
    · cases h
    · cases h
      exact emits_deliveryFailed _ _ _
    · split at h
      · cases h
      · cases h
        exact emits_one rfl (by decide)
      · cases h
        exact emits_one rfl (by decide)
  · cases h
    exact emits_deliveryFailed _ _ _

theorem verifySemantics_emits (h : (verifySemantics lib p s).result = .ok u) : Emits .verifySemantics u := by
  unfold verifySemantics at h
  split at h
  · split at h
    · cases h
      exact emits_one rfl (by decide)
    · cases h
      refine emits_one rfl ?_
      split
      · decide
      · decide
  · cases h
    exact emits_one rfl (by decide)

theorem retrieveCandidates_emits (h : (retrieveCandidates lib p s).result = .ok u) : Emits .retrieveCandidates u := by
  obtain ⟨plan, -, h⟩ := result_reading h
  obtain ⟨result, -, h⟩ := result_awaiting h
  rw [result_ok h]
  refine emits_one rfl ?_
  split
  · decide
  · decide

theorem node_emits {n : Node} (h : (nodeFn lib p s n).result = .ok u) : Emits n u := by
  cases n with
  | start | pause =>
    cases h
    exact emits_none rfl
  | parseIntent =>
    obtain ⟨_, _, -, rfl⟩ | ⟨_, _, -, rfl⟩ := parseIntent_cases h
    · exact emits_one rfl (by decide)
    · exact emits_one rfl (by decide)
  | validateIntent =>
    obtain ⟨_, -, ⟨-, rfl⟩ | ⟨-, rfl⟩⟩ := validateIntent_cases h
    · exact emits_one rfl (by decide)
    · exact emits_one rfl (by decide)
  | confirmIntent =>
    obtain ⟨_, -, ⟨-, rfl⟩ | ⟨-, rfl⟩⟩ := confirmIntent_cases h
    · exact emits_one rfl (by decide)
    · exact emits_one rfl (by decide)
  | buildRetrievalPlan =>
    obtain ⟨_, _, -, rfl⟩ := buildRetrievalPlan_cases h
    exact emits_one rfl (by decide)
  | retrieveCandidates => exact retrieveCandidates_emits h
  | resolveDuplicates =>
    obtain ⟨_, rfl⟩ := resolveDuplicates_cases h
    exact emits_one rfl (by decide)
  | verifyEvidence =>
    obtain ⟨_, _, rfl⟩ := verifyEvidence_cases h
    exact emits_one rfl (by decide)
  | synthesizeReport =>
    obtain ⟨_, rfl⟩ := synthesizeReport_cases h
    exact emits_one rfl (by decide)
  | validateReport =>
    obtain ⟨_, -, ⟨-, rfl⟩ | ⟨-, -, rfl⟩ | ⟨-, -, _, -, rfl⟩⟩ := validateReportNode_cases h
    · exact emits_one rfl (by decide)
    · exact emits_one rfl (by decide)
    · exact emits_one rfl (by decide)
  | verifySemantics => exact verifySemantics_emits h
  | persistAndDeliver => exact persistAndDeliver_emits h

/-- Only `persist_and_deliver` calls the report store. -/
theorem effects_eq_nil {n : Node} (h : n ≠ .persistAndDeliver) :
    (nodeFn lib p s n).effects = [] := by
  have hr : ∀ {α : Type} (f : String) (x : Option α) (k : α → NodeResult),
      (∀ a, (k a).effects = []) → (reading f x k).effects = [] := by
    intro α f x k hk
    cases x with
    | none => rfl
    | some a => exact hk a
  have ha : ∀ {α : Type} (x : Except String α) (k : α → NodeResult),
      (∀ a, (k a).effects = []) → (awaiting x k).effects = [] := by
    intro α x k hk
    cases x with
    | error e => rfl
    | ok a => exact hk a
  cases n with
  | start | pause => rfl
  | parseIntent => simp only [nodeFn, parseIntent]; split <;> rfl
  | validateIntent => exact hr _ _ _ fun a => by split <;> rfl
  | confirmIntent => exact hr _ _ _ fun a => by split <;> rfl
  | buildRetrievalPlan => exact hr _ _ _ fun a => rfl
  | retrieveCandidates => exact hr _ _ _ fun a => ha _ _ fun b => rfl
  | resolveDuplicates => exact ha _ _ fun a => ha _ _ fun b => rfl
  | verifyEvidence => exact ha _ _ fun a => ha _ _ fun b => rfl
  | synthesizeReport => exact ha _ _ fun a => rfl
  | validateReport => exact hr _ _ _ fun a => by dsimp only; split <;> [rfl; split <;> rfl]
  | verifySemantics => simp only [nodeFn, verifySemantics]; split <;> [split <;> rfl; rfl]
  | persistAndDeliver => exact absurd rfl h

/-! ## Termination -/

/-- How far the pending node is from the end of the graph. -/
def weight (retryCount : Nat) : Node → Nat
  | .start => 15
  | .parseIntent => 14
  | .validateIntent => 13
  | .confirmIntent => 12
  | .pause => 11
  | .buildRetrievalPlan => 10
  | .retrieveCandidates => 9
  | .resolveDuplicates => 8
  | .verifyEvidence => 7
  | .synthesizeReport => if retryCount < MAX_SYNTHESIS_RETRIES then 6 else 4
  | .validateReport => if retryCount < MAX_SYNTHESIS_RETRIES then 5 else 3
  | .verifySemantics => 2
  | .persistAndDeliver => 1

def rank (c : Config) : Nat := c.next.elim 0 (weight c.values.retryCount)

theorem weight_le (r : Nat) (n : Node) : weight r n ≤ 15 := by
  by_cases h : r < MAX_SYNTHESIS_RETRIES
  · cases n <;> simp [weight, h]
  · cases n <;> simp [weight, h]

theorem rank_le (c : Config) : rank c ≤ 15 := by
  unfold rank
  cases c.next with
  | none => exact Nat.zero_le _
  | some n => exact weight_le _ n

theorem rank_eq_zero {c : Config} : rank c = 0 ↔ c.next = none := by
  unfold rank
  cases c.next with
  | none => simp
  | some n =>
    by_cases h : c.values.retryCount < MAX_SYNTHESIS_RETRIES
    · cases n <;> simp [weight, h]
    · cases n <;> simp [weight, h]

/-- **Every superstep gets closer to the end.** The report loop is the only
cycle, and it raises `retry_count`. -/
theorem rank_advance {n : Node} {c : Config} (hn : c.next = some n)
    (h : (nodeFn lib p c.values n).result = .ok u) : rank (advance n c u) < rank c := by
  have hc : rank c = weight c.values.retryCount n := by simp [rank, hn]
  rw [hc]
  cases n with
  | start | parseIntent | pause | buildRetrievalPlan | retrieveCandidates | resolveDuplicates
  | verifySemantics | persistAndDeliver => simp [rank, advance, successor, weight]
  | validateIntent =>
    simp only [rank, advance, successor, routeAfterValidate]
    split <;> simp [weight]
  | confirmIntent =>
    simp only [rank, advance, successor, routeAfterConfirm]
    split <;> simp [weight]
  | verifyEvidence =>
    simp only [rank, advance, successor, Option.elim_some, weight]
    split <;> simp
  | synthesizeReport =>
    have hr : u.retryCount = none := (frame h).retry (by decide)
    simp only [rank, advance, successor, Option.elim_some, weight, advanceValues, apply_retryCount,
      hr, Option.getD_none]
    split <;> omega
  | validateReport =>
    obtain ⟨_, -, ⟨-, hu⟩ | ⟨-, hlt, hu⟩ | ⟨-, -, _, -, hu⟩⟩ := validateReportNode_cases h
    · have e : (advance .validateReport c u).next = some .verifySemantics := by rw [hu]; rfl
      simp only [rank, e, Option.elim_some, weight]
      split <;> simp
    · have e : (advance .validateReport c u).next = some .synthesizeReport := by rw [hu]; rfl
      have hr : ¬ c.values.retryCount + 1 < MAX_SYNTHESIS_RETRIES := by
        simp only [MAX_SYNTHESIS_RETRIES] at hlt ⊢; omega
      have hv : (advance .validateReport c u).values.retryCount = c.values.retryCount + 1 := by
        rw [hu]; rfl
      simp only [rank, e, Option.elim_some, weight, hv, if_neg hr, if_pos hlt]
      omega
    · have e : (advance .validateReport c u).next = none := by rw [hu]; rfl
      simp only [rank, e, Option.elim_none, weight]
      split <;> simp

/-! ## State fields a node reads through -/

/-- The optional fields node `n` reads through, and those it leaves for the
next node, are set. -/
def Ready (s : RunState) : Node → Prop
  | .validateIntent | .confirmIntent | .pause | .buildRetrievalPlan => s.searchIntent.isSome
  | .retrieveCandidates => s.retrievalPlan.isSome
  | .validateReport => s.report.isSome
  | _ => True

/-- A node whose fields are set does not raise `AttributeError`. -/
theorem not_missing {n : Node} (hr : Ready s n) (f : String) :
    (nodeFn lib p s n).result ≠ .error (.missing f) := by
  have ha : ∀ {α : Type} (x : Except String α) (k : α → NodeResult),
      (∀ a, (k a).result ≠ .error (.missing f)) → (awaiting x k).result ≠ .error (.missing f) := by
    intro α x k hk
    cases x with
    | error e => simp [awaiting, NodeResult.raise]
    | ok a => exact hk a
  cases n with
  | start | pause => simp [nodeFn, pause, NodeResult.ok]
  | parseIntent => simp only [nodeFn, parseIntent]; split <;> simp [NodeResult.ok]
  | validateIntent =>
    obtain ⟨i, hi⟩ := Option.isSome_iff_exists.mp hr
    simp only [nodeFn, validateIntent, hi, reading]
    split <;> simp [NodeResult.ok]
  | confirmIntent =>
    obtain ⟨i, hi⟩ := Option.isSome_iff_exists.mp hr
    simp only [nodeFn, confirmIntent, hi, reading]
    split <;> simp [NodeResult.ok]
  | buildRetrievalPlan =>
    obtain ⟨i, hi⟩ := Option.isSome_iff_exists.mp hr
    simp [nodeFn, buildRetrievalPlan, hi, reading, NodeResult.ok]
  | retrieveCandidates =>
    obtain ⟨i, hi⟩ := Option.isSome_iff_exists.mp hr
    simp only [nodeFn, retrieveCandidates, hi, reading]
    exact ha _ _ fun b => by simp [NodeResult.ok]
  | resolveDuplicates => exact ha _ _ fun a => ha _ _ fun b => by simp [NodeResult.ok]
  | verifyEvidence => exact ha _ _ fun a => ha _ _ fun b => by simp [NodeResult.ok]
  | synthesizeReport => exact ha _ _ fun a => by simp [NodeResult.ok]
  | validateReport =>
    obtain ⟨d, hd⟩ := Option.isSome_iff_exists.mp hr
    simp only [nodeFn, validateReportNode, hd, reading]
    split
    · simp [NodeResult.ok]
    · split <;> simp [NodeResult.ok]
  | verifySemantics =>
    simp only [nodeFn, verifySemantics]
    split
    · split <;> simp [NodeResult.ok]
    · simp [NodeResult.ok]
  | persistAndDeliver =>
    simp only [nodeFn, persistAndDeliver]
    split
    · split
      · simp
      · simp
      · split <;> simp
    · simp [NodeResult.ok]

/-- Each node leaves the next one its fields, unless it is a `parse_intent`
that failed. -/
theorem ready_advance {n m : Node} {c : Config} (hr : Ready c.values n)
    (h : (nodeFn lib p c.values n).result = .ok u)
    (hp : n = .parseIntent → u.status ≠ some .failed) (hm : (advance n c u).next = some m) :
    Ready (advance n c u).values m := by
  cases n with
  | start => cases hm; trivial
  | parseIntent =>
    cases hm
    rcases parseIntent_cases h with ⟨_, _, -, rfl⟩ | ⟨_, _, -, rfl⟩
    · rfl
    · exact absurd rfl (hp rfl)
  | validateIntent =>
    obtain ⟨i, hi, -⟩ := validateIntent_cases h
    have hs : (advance .validateIntent c u).values.searchIntent.isSome := by
      simp [advance, advanceValues, hi, (frame h).intent (by decide)]
    simp only [advance, successor, routeAfterValidate] at hm
    split at hm
    · cases hm
    · cases hm; exact hs
  | confirmIntent =>
    obtain ⟨i, hi, -⟩ := confirmIntent_cases h
    have hs : (advance .confirmIntent c u).values.searchIntent.isSome := by
      simp [advance, advanceValues, hi, (frame h).intent (by decide)]
    simp only [advance, successor, routeAfterConfirm] at hm
    split at hm
    · cases hm; exact hs
    · cases hm; exact hs
  | pause =>
    cases hm
    cases h
    simpa [advance, advanceValues, Ready] using hr
  | buildRetrievalPlan =>
    cases hm
    obtain ⟨_, plan, -, rfl⟩ := buildRetrievalPlan_cases h
    rfl
  | retrieveCandidates => cases hm; trivial
  | resolveDuplicates => cases hm; trivial
  | verifyEvidence => cases hm; trivial
  | synthesizeReport =>
    cases hm
    obtain ⟨draft, rfl⟩ := synthesizeReport_cases h
    rfl
  | validateReport =>
    simp only [advance, successor, routeAfterValidateReport] at hm
    split at hm
    · cases hm; trivial
    · split at hm
      · cases hm; trivial
      · cases hm
  | verifySemantics => cases hm; trivial
  | persistAndDeliver => cases hm

end BidScope.L2
