import BidScope.L3Runs.Stream
import BidScope.L10Web.Client

/-!
# The event stream on the wire

What the SSE route of `api/routes/events.py` hands to `EventSourceResponse` for
each frame, and the events a node of the graph can emit.

The encoding itself is that of `sse_starlette`, which is not part of the
repository: `SseFormat` is its documented format on fields of one line, a line
per field and a blank line. Its pings are comments, like the route's own
heartbeat. A row's sequence is a 32-bit column, which a JavaScript number
holds exactly.
-/
namespace BidScope.L10

open BidScope.L1 BidScope.L2 BidScope.L3

/-- mirrors domain/enums.py:16-33 -/
def statusValue : RunStatus → String
  | .pending => "pending"
  | .parseIntent => "parse_intent"
  | .validateIntent => "validate_intent"
  | .awaitingConfirmation => "awaiting_confirmation"
  | .confirmIntent => "confirm_intent"
  | .buildRetrievalPlan => "build_retrieval_plan"
  | .retrieveCandidates => "retrieve_candidates"
  | .candidatesResolved => "candidates_resolved"
  | .resolveDuplicates => "resolve_duplicates"
  | .verifyEvidence => "verify_evidence"
  | .synthesizeReport => "synthesize_report"
  | .validateReport => "validate_report"
  | .persistAndDeliver => "persist_and_deliver"
  | .completed => "completed"
  | .failed => "failed"
  | .retryable => "retryable"
  | .evidenceInsufficient => "evidence_insufficient"

/-! ## Payloads -/

def text (s : String) : Json Int := .str (Json.units s)

def detailJson : Detail → Json Int
  | .int n => .num n
  | .bool b => .bool b
  | .str s => text s
  | .strs l => .arr (l.map text)

/-- mirrors api/routes/events.py:57-66 -/
def eventPayload (event : RunEvent) : Json Int :=
  .obj [(Json.units "seq", .num event.seq), (Json.units "node", text event.node),
    (Json.units "event", text event.event), (Json.units "status", text event.status),
    (Json.units "message", (event.message.map text).getD .null),
    (Json.units "details", .obj (event.details.map fun (k, d) => (Json.units k, detailJson d)))]

def terminalPayload (status : RunStatus) : Json Int :=
  .obj [(Json.units "status", text (statusValue status)), (Json.units "terminal", .bool true)]

/-! ## Messages -/

/-- A dict the generator yields, as `EventSourceResponse` reads it. -/
structure SseMessage where
  id : Option (List Char) := none
  event : Option (List Char) := none
  data : Option (List Char) := none
  comment : Option (List Char) := none
  deriving DecidableEq

/-- mirrors api/routes/events.py:95-110 -/
def message : Frame → SseMessage
  | .event r =>
    { id := some (toString r.seq).toList
      event := some r.event.toList
      data := some (Json.dumps (eventPayload r)) }
  | .terminal status =>
    { id := some "terminal".toList
      event := some "terminal".toList
      data := some (Json.dumps (terminalPayload status)) }
  | .comment t => { comment := some t.toList }

def crlf : List Char := ['\r', '\n']

/-- No line break. -/
def OneLine (t : List Char) : Prop := ∀ c ∈ t, c ≠ '\n' ∧ c ≠ '\r'

instance (t : List Char) : Decidable (OneLine t) := List.decidableBAll _ t

/-- A field's line. -/
def fieldLine (name : String) (v : List Char) : List Char := name.toList ++ ':' :: ' ' :: v

/-- `ServerSentEvent.encode` on fields of one line. -/
structure SseFormat (encode : SseMessage → List Char) : Prop where
  message : ∀ id event data, OneLine id → OneLine event → OneLine data →
    encode { id := some id, event := some event, data := some data } =
      fieldLine "id" id ++ crlf ++ fieldLine "event" event ++ crlf ++ fieldLine "data" data ++ crlf ++
        crlf
  comment : ∀ t, OneLine t → encode { comment := some t } = ':' :: ' ' :: t ++ crlf ++ crlf

/-! ## What the nodes emit -/

/-- `r` is a row of an event in the update of some node, in some state, whatever
the collaborators answer. -/
def Emitted (lib : Lib) (r : RunEvent) : Prop :=
  ∃ p s n u e, (nodeFn lib p s n).result = .ok u ∧ e ∈ u.nodeEvents ∧
    r.fingerprint = fingerprint e

/-- The names the nodes use. -/
def NODE_EVENTS : List String :=
  ["intent_parsed", "transient_error", "intent_invalid", "intent_valid", "needs_confirmation",
    "auto_confirmed", "plan_built", "lexical_only", "hybrid", "duplicates_resolved",
    "evidence_verified", "report_synthesized", "report_valid", "report_invalid_retry",
    "evidence_insufficient", "semantics_skipped", "semantics_degraded", "semantics_verified",
    "online_report_failed", "online_report_ready_docx_failed", "report_delivered"]

variable {lib : Lib} {p : Ports} {s : RunState} {u : Update}

theorem emits_events {n : Node} : ∀ x ∈ n.emits, x.2 ∈ NODE_EVENTS := by
  cases n <;> decide

theorem emitted_named {r : RunEvent} (h : Emitted lib r) : r.event ∈ NODE_EVENTS := by
  obtain ⟨p, s, n, u, e, hu, he, hr⟩ := h
  have hev : r.event = e.event := congrArg (·.2.1) hr
  rw [hev]
  exact emits_events _ (node_emits hu e he)

/-! ## The events of a run -/

/-- Every event collected was in some node's update. -/
def Collected (lib : Lib) (v : RunState) : Prop :=
  ∀ e ∈ v.nodeEvents, ∃ p s n u, (nodeFn lib p s n).result = .ok u ∧ e ∈ u.nodeEvents

theorem Collected.advance {c : Config} {n : Node} (h : Collected lib c.values)
    (hu : (nodeFn lib p c.values n).result = .ok u) : Collected lib (advance n c u).values := by
  by_cases hst : n = .start
  · subst hst
    have hsame : (L2.advance .start c u).values.nodeEvents = c.values.nodeEvents := by
      cases hi : c.input <;> simp [L2.advance, advanceValues, hi]
    rw [Collected, hsame]
    exact h
  · intro e he
    simp only [L2.advance, advanceValues_of_ne hst, apply_nodeEvents, List.mem_append] at he
    rcases he with he | he
    · exact h e he
    · exact ⟨p, c.values, n, u, hu, he⟩

theorem collected_inductive : (L2.lts lib).Inductive (fun g => Collected lib g.cfg.values) where
  init := by
    intro g hg
    obtain ⟨input, rfl⟩ := hg
    intro e he
    cases he
  step := by
    intro g ev g' h hs
    rcases step_cases hs with ⟨p, n, -, -, hn, rfl⟩ | ⟨p, n, -, -, hn, rfl⟩ | ⟨-, -, -, rfl⟩
    · rcases visit_cases lib p n g with ⟨u, hu, hcfg, -⟩ | ⟨e, -, hcfg, -⟩
      · rw [hcfg]
        exact h.advance hu
      · rw [hcfg]
        exact h
    · exact h
    · exact h

/-- The rows of a run of the graph are rows its nodes emit. -/
theorem emitted_of_run {g : GState} (hr : (L2.lts lib).Reachable g) (o i : Nat) :
    ∀ r ∈ eventRowsOf o i g.cfg.values.nodeEvents, Emitted lib r := by
  intro r hmem
  have hfp : r.fingerprint ∈ fps g.cfg.values.nodeEvents := by
    rw [← (eventRowsOf_spec o g.cfg.values.nodeEvents i).2.1]
    exact List.mem_map_of_mem hmem
  obtain ⟨e, he, heq⟩ := List.mem_map.mp hfp
  obtain ⟨p, s, n, u, hu, hu'⟩ := collected_inductive.reachable g hr e he
  exact ⟨p, s, n, u, e, hu, hu', heq.symm⟩

end BidScope.L10
