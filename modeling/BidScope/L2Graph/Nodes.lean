import BidScope.L2Graph.State

/-!
# The graph's nodes

`graph/nodes.py`, one function per node: from the state and the injected ports
to the update it returns, or the exception it raises.

**Ports.** A `Ports` value is how every collaborator answers during one
execution of one node; a call carries its position among the node's calls to
that port, so two equal calls may be answered differently. Any value is
allowed: nothing is assumed of a model, the searcher or the store.

**Exceptions.** `Exn.missing f` is the `AttributeError` of reading through a
state field `f` that is `None`. A `DeliveryError` is caught by
`persist_and_deliver`; the rest leaves the node.

**Effects.** The calls of `persist_and_deliver` on the report store are
recorded, also when the call itself fails.
-/
namespace BidScope.L2

open BidScope.L1

/-- mirrors graph/nodes.py:38-43 -/
def MAX_SYNTHESIS_RETRIES : Nat := 1

def MAX_MODEL_RETRIES : Nat := 2

/-- mirrors retrieval/search.py:51-57 -/
structure RetrievalFilter where
  regions : Option (List String) := none
  publishedFrom : Option Datetime := none
  publishedTo : Option Datetime := none
  minBudgetMinorUnits : Option Int := none
  deriving DecidableEq, Repr

/-- mirrors retrieval/search.py:71-77, without the ranking metadata -/
structure RetrievalResult where
  candidates : List String
  degradedModes : List String
  deriving DecidableEq, Repr

/-- mirrors delivery/reports.py:53-58 -/
structure PersistedReport where
  id : String
  report : Report
  docxObjectKey : Option String
  deriving DecidableEq, Repr

inductive PortError where
  | delivery (code : BidScopeErrorCode) (message : String)
  | other (message : String)
  deriving DecidableEq, Repr

structure Ports where
  now : Nat → Datetime
  parse : Nat → String → Except String (SearchIntent × Option ModelUsage)
  search : String → RetrievalFilter → Except String RetrievalResult
  loadNoticeViews : List String → Except String (Dict String NoticeView)
  classify : Nat → NoticeView → NoticeView → Except String DuplicateClassification
  synthesize : Nat → VerifiedOpportunity → Except String ReportDraft
  semanticVerifier : Option (Nat → ReportClaim → List NoticeEvidence → List String →
    Except String ClaimSupportVerification)
  persistOnlineReport : Report → EvidenceById → List ClaimVerification →
    Except PortError PersistedReport
  exportDocx : PersistedReport → Except PortError Unit

inductive Exn where
  | missing (field : String)
  | other (message : String)
  deriving DecidableEq, Repr

inductive Effect where
  | persist (report : Report) (evidence : EvidenceById) (verifications : List ClaimVerification)
  | exported (report : PersistedReport)
  deriving DecidableEq

structure NodeResult where
  effects : List Effect := []
  result : Except Exn Update

def NodeResult.ok (u : Update) : NodeResult := { result := .ok u }

def NodeResult.raise (e : Exn) : NodeResult := { result := .error e }

/-- A node that reads a field of `x`, where `x` may be `None`. -/
def reading {α : Type} (field : String) (x : Option α) (f : α → NodeResult) : NodeResult :=
  match x with
  | none => .raise (.missing field)
  | some a => f a

/-- A node that awaits a port whose exceptions it does not catch. -/
def awaiting {α : Type} (x : Except String α) (f : α → NodeResult) : NodeResult :=
  match x with
  | .error e => .raise (.other e)
  | .ok a => f a

variable (lib : Lib) (p : Ports) (s : RunState)

/-- mirrors graph/nodes.py:46-66; `k` counts the node's readings of the clock. -/
def nodeEvent (k : Nat) (node event status : String) : NodeEvent where
  node := node
  event := event
  status := status
  timestamp := lib.isoformat (p.now k)

/-! ## Intent -/

/-- `left` attempts from number `attempt` on; `lastError` is the message of
the one before. -/
def parseAttempts (request : String) :
    Nat → Nat → String → Except String (SearchIntent × Option ModelUsage)
  | 0, _, lastError => .error lastError
  | left + 1, attempt, _ =>
    match p.parse attempt request with
    | .ok r => .ok r
    | .error e => parseAttempts request left (attempt + 1) e

/-- mirrors graph/nodes.py:74-102 -/
def parseIntent : NodeResult :=
  match parseAttempts p s.userRequest (MAX_MODEL_RETRIES + 1) 0 "None" with
  | .ok (intent, usage) =>
    .ok { searchIntent := some intent
          status := some .validateIntent
          nodeEvents := [nodeEvent lib p 0 "parse_intent" "intent_parsed" "ok"]
          tokenUsage := usage.toList }
  | .error lastError =>
    .ok { status := some .failed
          errors := [{
            code := .modelTransientError
            message := "intent parsing failed after " ++ toString MAX_MODEL_RETRIES ++
              " retries: " ++ lastError
            details := [("retries", .int MAX_MODEL_RETRIES)] }]
          nodeEvents := [nodeEvent lib p 0 "parse_intent" "transient_error" "error"] }

def inverted {α : Type} (lower upper : Option α) (key : α → Int) : Bool :=
  match lower, upper with
  | some a, some b => key b < key a
  | _, _ => false

/-- The self-contradictions of an intent.
mirrors graph/nodes.py:114-145 -/
def intentErrors (intent : SearchIntent) : List SerializableError :=
  (if inverted intent.publishedFrom intent.publishedTo Datetime.utc then
    [{ code := .intentInvalid
       message := "published_from must not be after published_to"
       details := [("published_from", .str (formatDatetime lib intent.publishedFrom)),
                   ("published_to", .str (formatDatetime lib intent.publishedTo))] }] else []) ++
  (if inverted intent.minBudget intent.maxBudget Money.minorUnits then
    [{ code := .intentInvalid, message := "min_budget must not exceed max_budget" }] else []) ++
  (if intent.topics = [] ∨ intent.regions = [] then
    [{ code := .intentInvalid
       message := "intent must specify at least one topic and one region" }] else [])

/-- mirrors graph/nodes.py:105-156 -/
def validateIntent : NodeResult :=
  reading "search_intent" s.searchIntent fun intent =>
    if intentErrors lib intent ≠ [] then
      .ok { status := some .failed
            errors := intentErrors lib intent
            nodeEvents := [nodeEvent lib p 0 "validate_intent" "intent_invalid" "error"] }
    else
      .ok { status := some .confirmIntent
            nodeEvents := [nodeEvent lib p 0 "validate_intent" "intent_valid" "ok"] }

/-- The condition under which `confirm_intent` sends a run to `pause`. -/
def needsConfirmation (intent : SearchIntent) : Bool :=
  intent.schedule.isSome || intent.confidence < 1 / 2

/-- mirrors graph/nodes.py:159-177 -/
def confirmIntent : NodeResult :=
  reading "search_intent" s.searchIntent fun intent =>
    if needsConfirmation intent then
      .ok { status := some .awaitingConfirmation
            nodeEvents := [nodeEvent lib p 0 "confirm_intent" "needs_confirmation" "ok"] }
    else
      .ok { status := some .buildRetrievalPlan
            nodeEvents := [nodeEvent lib p 0 "confirm_intent" "auto_confirmed" "ok"] }

/-- mirrors graph/nodes.py:180-186 -/
def pause : NodeResult := .ok {}

/-! ## Retrieval -/

/-- mirrors graph/nodes.py:196-211; `dict.fromkeys` keeps the first of each. -/
def buildRetrievalPlan : NodeResult :=
  reading "search_intent" s.searchIntent fun intent =>
    .ok { retrievalPlan := some {
            queryTerms := (intent.topics ++ intent.expandedTerms).eraseDups
            regions := intent.regions
            publishedFrom := intent.publishedFrom
            publishedTo := intent.publishedTo
            minBudgetMinorUnits := intent.minBudget.map (·.minorUnits) }
          status := some .retrieveCandidates
          nodeEvents := [nodeEvent lib p 0 "build_retrieval_plan" "plan_built" "ok"] }

/-- mirrors graph/nodes.py:214-236 -/
def retrieveCandidates : NodeResult :=
  reading "retrieval_plan" s.retrievalPlan fun plan =>
    let filters : RetrievalFilter := {
      regions := if plan.regions = [] then none else some plan.regions
      publishedFrom := plan.publishedFrom
      publishedTo := plan.publishedTo
      minBudgetMinorUnits := plan.minBudgetMinorUnits }
    awaiting (p.search (joinWith " " plan.queryTerms) filters) fun result =>
      let degraded := result.degradedModes ≠ []
      .ok { candidateNoticeIds := result.candidates
            degradedModes := result.degradedModes
            status := some .resolveDuplicates
            nodeEvents := [nodeEvent lib p 0 "retrieve_candidates"
              (if degraded then "lexical_only" else "hybrid")
              (if degraded then "degraded" else "ok")] }

/-- One pair of the double loop of `resolve_duplicates`; the accumulator is
the number of model calls made and the groups found. -/
def resolvePair (views : Dict String NoticeView) (acc : Nat × List DuplicateGroup)
    (pair : String × String) : Except String (Nat × List DuplicateGroup) :=
  match views.get pair.1, views.get pair.2 with
  | some source, some target =>
    match (classifyDuplicate lib source target []).decision with
    | .ambiguous =>
      match p.classify acc.1 source target with
      | .error e => .error e
      | .ok m => .ok (acc.1 + 1, acc.2 ++ [⟨pair.1, [pair.2], m.decision⟩])
    | .exact => .ok (acc.1, acc.2 ++ [⟨pair.1, [pair.2], .exact⟩])
    | .distinct => .ok acc
  | _, _ => .ok acc

/-- The pairs in loop order, without a notice and itself. -/
def orderedPairs (ids : List String) : List (String × String) :=
  ids.flatMap fun a => (ids.filter (· ≠ a)).map fun b => (a, b)

/-- mirrors graph/nodes.py:239-275 -/
def resolveDuplicates : NodeResult :=
  awaiting (p.loadNoticeViews s.candidateNoticeIds) fun views =>
    awaiting ((orderedPairs s.candidateNoticeIds).foldlM (resolvePair lib p views) (0, []))
      fun acc =>
        .ok { duplicateGroups := acc.2
              status := some .candidatesResolved
              nodeEvents := [nodeEvent lib p 0 "resolve_duplicates" "duplicates_resolved" "ok"] }

/-- `evidence_by_id[span.span_hash]` with one more span. -/
def bindSpan (d : EvidenceById) (span : NoticeEvidence) : EvidenceById :=
  d.set span.spanHash <|
    match d.get span.spanHash with
    | none => .one span
    | some (.list spans) => .list (spans ++ [span])
    | some (.tuple spans) => .tuple (spans ++ [span])
    | some (.one existing) => .tuple [existing, span]

/-- mirrors graph/nodes.py:601-604 -/
def formatBudget (minorUnits : Option Int) (currency : Option String) : Option String :=
  minorUnits.map fun n => currencyOr currency ++ " " ++ toString n

/-- `view.title or notice_version_id` -/
def titleOr (view : NoticeView) (noticeVersionId : String) : String :=
  if truthy view.title then orEmpty view.title else noticeVersionId

/-- One candidate of `verify_evidence`. -/
def verifyOne (views : Dict String NoticeView) (acc : EvidenceById × List VerifiedOpportunity)
    (noticeVersionId : String) : Except String (EvidenceById × List VerifiedOpportunity) :=
  match views.get noticeVersionId with
  | none => .ok acc
  | some view =>
    match extractEvidence lib noticeVersionId (joinWith "\n" view.claimSupportingTexts)
        view.claimSupportingTexts with
    | .error e => .error e
    | .ok spans =>
      .ok (spans.foldl bindSpan acc.1, acc.2 ++ [{
        noticeId := noticeVersionId
        title := titleOr view noticeVersionId
        region := view.region
        purchaser := view.purchaser
        budgetRaw := formatBudget view.budgetMinorUnits view.budgetCurrency
        evidence := spans.map fun span => ⟨span.spanHash, span.text, noticeVersionId⟩ }])

/-- mirrors graph/nodes.py:278-332 -/
def verifyEvidence : NodeResult :=
  awaiting (p.loadNoticeViews s.candidateNoticeIds) fun views =>
    awaiting (s.candidateNoticeIds.foldlM (verifyOne lib views) (.empty, [])) fun acc =>
      .ok { evidenceById := acc.1
            verifiedOpportunities := acc.2
            status := some .synthesizeReport
            nodeEvents := [nodeEvent lib p 0 "verify_evidence" "evidence_verified" "ok"] }

/-! ## The report -/

/-- The drafts of the opportunities from number `k` on. -/
def synthesizeFrom : Nat → List VerifiedOpportunity → Except String (List ReportItem)
  | _, [] => .ok []
  | k, opportunity :: rest =>
    match p.synthesize k opportunity with
    | .error e => .error e
    | .ok draft =>
      match synthesizeFrom (k + 1) rest with
      | .error e => .error e
      | .ok items => .ok (draft.items ++ items)

/-- mirrors graph/nodes.py:335-348 -/
def synthesizeReport : NodeResult :=
  awaiting (synthesizeFrom p 0 s.verifiedOpportunities) fun items =>
    .ok { report := some (some { items })
          status := some .validateReport
          nodeEvents := [nodeEvent lib p 0 "synthesize_report" "report_synthesized" "ok"] }

/-- mirrors graph/nodes.py:351-386 -/
def validateReportNode : NodeResult :=
  reading "report" s.report fun report =>
    let result := validateReport lib report.items s.evidenceById
    if result.valid then
      .ok { status := some .persistAndDeliver
            nodeEvents := [nodeEvent lib p 0 "validate_report" "report_valid" "ok"] }
    else if s.retryCount < MAX_SYNTHESIS_RETRIES then
      .ok { retryCount := some (s.retryCount + 1)
            report := some none
            status := some .synthesizeReport
            nodeEvents := [nodeEvent lib p 0 "validate_report" "report_invalid_retry" "ok"] }
    else
      .ok { status := some .failed
            report := some none
            errors := [{
              code := .evidenceInsufficient
              message := "Report cited unsupported claims after one synthesis retry;" ++
                " refusing to deliver."
              details := [("validation_errors", .strs result.errors)] }]
            nodeEvents := [nodeEvent lib p 0 "validate_report" "evidence_insufficient" "error"] }

/-- mirrors graph/nodes.py:389-417 -/
def evidenceForClaim (claim : ReportClaim) (item : ReportItem) (evidenceById : EvidenceById) :
    List NoticeEvidence :=
  claim.citationIds.filterMap fun citationId =>
    (evidenceById.get citationId).bind fun binding =>
      binding.candidates.find? (·.noticeVersionId == item.noticeId)

/-- One claim of the double loop of `verify_semantics`. -/
def verifyClaim (verify : Nat → ReportClaim → List NoticeEvidence → List String →
      Except String ClaimSupportVerification) (evidenceById : EvidenceById)
    (acc : Nat × List ClaimVerification × Bool) (entry : ReportItem × Nat × ReportClaim) :
    Nat × List ClaimVerification × Bool :=
  let (item, claimIndex, claim) := entry
  let evidence := evidenceForClaim claim item evidenceById
  if evidence = [] then acc
  else
    match verify acc.1 claim evidence claim.citationIds with
    | .error _ => (acc.1 + 1, acc.2.1, true)
    | .ok verdict => (acc.1 + 1, acc.2.1 ++ [⟨item.noticeId, claimIndex, verdict⟩], acc.2.2)

def indexedClaims (items : List ReportItem) : List (ReportItem × Nat × ReportClaim) :=
  items.flatMap fun item => item.claims.zipIdx.map fun (claim, i) => (item, i, claim)

/-- mirrors graph/nodes.py:420-475 -/
def verifySemantics : NodeResult :=
  match p.semanticVerifier, s.report with
  | some verify, some draft =>
    if draft.items = [] then
      .ok { nodeEvents := [nodeEvent lib p 0 "verify_semantics" "semantics_skipped" "ok"] }
    else
      let (_, verdicts, degraded) :=
        (indexedClaims draft.items).foldl (verifyClaim verify s.evidenceById) (0, [], false)
      .ok { claimVerifications := verdicts
            nodeEvents := [nodeEvent lib p 0 "verify_semantics"
              (if degraded then "semantics_degraded" else "semantics_verified")
              (if degraded then "degraded" else "ok")]
            degradedModes := if degraded then ["semantic_verifier_unavailable"] else [] }
  | _, _ => .ok { nodeEvents := [nodeEvent lib p 0 "verify_semantics" "semantics_skipped" "ok"] }

/-! ## Delivery -/

/-- The verdict of one claim: the last one recorded under its key. -/
def verdictFor (verifications : List ClaimVerification) (noticeId : String) (index : Nat) :
    Option ClaimSupportVerification :=
  (verifications.reverse.find? fun e => e.noticeId == noticeId && e.claimIndex == index).map
    (·.verification)

/-- mirrors graph/nodes.py:544-572 -/
def applySupportStatus (items : List ReportItem) (verifications : List ClaimVerification) :
    List ReportItem :=
  items.map fun item =>
    { item with
      claims := item.claims.mapIdx fun index claim =>
        { claim with
          supportStatus := (verdictFor verifications item.noticeId index).map (·.status) } }

/-- mirrors graph/nodes.py:575-589 -/
def intentConditions (intent : SearchIntent) : List (String × String) :=
  [("topics", joinWith ", " intent.topics), ("regions", joinWith ", " intent.regions)] ++
  (intent.publishedFrom.toList.map fun d => ("published_from", lib.isoformat d)) ++
  (intent.publishedTo.toList.map fun d => ("published_to", lib.isoformat d)) ++
  (intent.minBudget.toList.map fun m =>
    ("min_budget", m.currency ++ " " ++ toString m.minorUnits)) ++
  (intent.maxBudget.toList.map fun m =>
    ("max_budget", m.currency ++ " " ++ toString m.minorUnits))

def deliveryFailed (k : Nat) (code : BidScopeErrorCode) (message : String) : Update where
  status := some .failed
  errors := [{ code, message }]
  nodeEvents := [nodeEvent lib p k "persist_and_deliver" "online_report_failed" "error"]

/-- The report `persist_and_deliver` hands to the store. -/
def deliveredReport (draft : ReportDraft) (intent : SearchIntent) : Report where
  runId := s.runId
  generatedAt := p.now 0
  queryConditions := intentConditions lib intent
  freshnessWindow := draft.freshnessWindow
  sourceAvailability := draft.sourceAvailability
  completenessWarning := draft.completenessWarning
  items := applySupportStatus draft.items s.claimVerifications

/-- mirrors graph/nodes.py:478-541 -/
def persistAndDeliver : NodeResult :=
  match s.report, s.searchIntent with
  | some draft, some intent =>
    let report := deliveredReport lib p s draft intent
    let call := Effect.persist report s.evidenceById s.claimVerifications
    match p.persistOnlineReport report s.evidenceById s.claimVerifications with
    | .error (.other e) => ⟨[call], .error (.other e)⟩
    | .error (.delivery code message) => ⟨[call], .ok (deliveryFailed lib p 1 code message)⟩
    | .ok persisted =>
      match p.exportDocx persisted with
      | .error (.other e) => ⟨[call, .exported persisted], .error (.other e)⟩
      | .error (.delivery code message) =>
        ⟨[call, .exported persisted], .ok {
          status := some .completed
          errors := [{ code, message, details := [("docx_retryable", .bool true)] }]
          nodeEvents := [nodeEvent lib p 1 "persist_and_deliver"
            "online_report_ready_docx_failed" "degraded"] }⟩
      | .ok () =>
        ⟨[call, .exported persisted], .ok {
          status := some .completed
          nodeEvents := [nodeEvent lib p 1 "persist_and_deliver" "report_delivered" "ok"] }⟩
  | _, _ =>
    .ok (deliveryFailed lib p 0 .deliveryError
      "validated report or confirmed intent was unavailable")

end BidScope.L2
