import BidScope.L1Domain.Deduplication
import BidScope.L1Domain.Evidence

/-!
# Graph state

`graph/state.py`: the state the twelve nodes read and write, and the partial
update a node returns. `RunState.apply` is the reducer of every channel: list
channels append, `evidence_by_id` merges with the new entries winning, the
others are overwritten by the last writer.

The `latency` channel has no reader and no writer and is left out.
-/
namespace BidScope.L2

open BidScope.L1

/-- mirrors graph/state.py:33-46 -/
structure RetrievalPlan where
  queryTerms : List String
  regions : List String
  publishedFrom : Option Datetime
  publishedTo : Option Datetime
  minBudgetMinorUnits : Option Int
  deriving DecidableEq, Repr

/-- mirrors graph/state.py:50-60 -/
structure DuplicateGroup where
  representativeId : String
  memberIds : List String
  decision : DuplicateDecision
  deriving DecidableEq, Repr

/-- mirrors graph/state.py:63-108 -/
structure RunState where
  runId : String := ""
  userRequest : String := ""
  status : RunStatus := .pending
  searchIntent : Option SearchIntent := none
  retrievalPlan : Option RetrievalPlan := none
  evidenceById : EvidenceById := .empty
  candidateNoticeIds : List String := []
  duplicateGroups : List DuplicateGroup := []
  verifiedOpportunities : List VerifiedOpportunity := []
  report : Option ReportDraft := none
  nodeEvents : List NodeEvent := []
  tokenUsage : List ModelUsage := []
  errors : List SerializableError := []
  retryCount : Nat := 0
  degradedModes : List String := []
  claimVerifications : List ClaimVerification := []
  eventSeqOffset : Option Nat := none
  deriving DecidableEq

/-- What a node returns: the channels it writes. -/
structure Update where
  searchIntent : Option SearchIntent := none
  status : Option RunStatus := none
  retrievalPlan : Option RetrievalPlan := none
  evidenceById : EvidenceById := .empty
  candidateNoticeIds : List String := []
  duplicateGroups : List DuplicateGroup := []
  verifiedOpportunities : List VerifiedOpportunity := []
  report : Option (Option ReportDraft) := none
  nodeEvents : List NodeEvent := []
  tokenUsage : List ModelUsage := []
  errors : List SerializableError := []
  retryCount : Option Nat := none
  degradedModes : List String := []
  claimVerifications : List ClaimVerification := []
  deriving DecidableEq

/-- The reducers of the channels. -/
def RunState.apply (s : RunState) (u : Update) : RunState where
  runId := s.runId
  userRequest := s.userRequest
  status := u.status.getD s.status
  searchIntent := u.searchIntent.or s.searchIntent
  retrievalPlan := u.retrievalPlan.or s.retrievalPlan
  evidenceById := s.evidenceById.merge u.evidenceById
  candidateNoticeIds := s.candidateNoticeIds ++ u.candidateNoticeIds
  duplicateGroups := s.duplicateGroups ++ u.duplicateGroups
  verifiedOpportunities := s.verifiedOpportunities ++ u.verifiedOpportunities
  report := u.report.getD s.report
  nodeEvents := s.nodeEvents ++ u.nodeEvents
  tokenUsage := s.tokenUsage ++ u.tokenUsage
  errors := s.errors ++ u.errors
  retryCount := u.retryCount.getD s.retryCount
  degradedModes := s.degradedModes ++ u.degradedModes
  claimVerifications := s.claimVerifications ++ u.claimVerifications
  eventSeqOffset := s.eventSeqOffset

/-- The input of a fresh run; the executor adds the run's id and the base of
its event sequence.
mirrors graph/executor.py:492-533 -/
structure Input where
  userRequest : String
  runId : String
  eventSeqOffset : Option Nat
  deriving DecidableEq, Repr

def RunState.applyInput (s : RunState) (i : Input) : RunState :=
  { s with
    userRequest := i.userRequest
    runId := i.runId
    eventSeqOffset := i.eventSeqOffset }

/-! ## Channel lemmas -/

section Channels

variable (s : RunState) (u : Update)

@[simp] theorem apply_runId : (s.apply u).runId = s.runId := rfl
@[simp] theorem apply_userRequest : (s.apply u).userRequest = s.userRequest := rfl
@[simp] theorem apply_status : (s.apply u).status = u.status.getD s.status := rfl
@[simp] theorem apply_searchIntent : (s.apply u).searchIntent = u.searchIntent.or s.searchIntent :=
  rfl
@[simp] theorem apply_retrievalPlan :
    (s.apply u).retrievalPlan = u.retrievalPlan.or s.retrievalPlan := rfl
@[simp] theorem apply_evidenceById :
    (s.apply u).evidenceById = s.evidenceById.merge u.evidenceById := rfl
@[simp] theorem apply_report : (s.apply u).report = u.report.getD s.report := rfl
@[simp] theorem apply_nodeEvents : (s.apply u).nodeEvents = s.nodeEvents ++ u.nodeEvents := rfl
@[simp] theorem apply_errors : (s.apply u).errors = s.errors ++ u.errors := rfl
@[simp] theorem apply_retryCount : (s.apply u).retryCount = u.retryCount.getD s.retryCount := rfl
@[simp] theorem apply_eventSeqOffset : (s.apply u).eventSeqOffset = s.eventSeqOffset := rfl

variable (i : Input)

@[simp] theorem applyInput_nodeEvents : (s.applyInput i).nodeEvents = s.nodeEvents := rfl
@[simp] theorem applyInput_searchIntent : (s.applyInput i).searchIntent = s.searchIntent := rfl
@[simp] theorem applyInput_report : (s.applyInput i).report = s.report := rfl
@[simp] theorem applyInput_retryCount : (s.applyInput i).retryCount = s.retryCount := rfl
@[simp] theorem applyInput_status : (s.applyInput i).status = s.status := rfl
@[simp] theorem applyInput_errors : (s.applyInput i).errors = s.errors := rfl
@[simp] theorem applyInput_evidenceById : (s.applyInput i).evidenceById = s.evidenceById := rfl
@[simp] theorem applyInput_eventSeqOffset :
    (s.applyInput i).eventSeqOffset = i.eventSeqOffset := rfl

end Channels

end BidScope.L2
