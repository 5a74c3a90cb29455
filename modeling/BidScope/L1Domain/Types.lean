import Mathlib.Data.Rat.Defs
import Mathlib.Algebra.Order.Ring.Rat
import Mathlib.Data.List.TakeWhile
import BidScope.Core.Text

/-!
# Domain values

The values the graph, the services and the stores exchange: enumerations
(`domain/enums.py`), intents (`domain/intents.py`), evidence
(`domain/notices.py`), reports (`domain/reports.py`, `llm/types.py`) and the
semantic verdicts (`evidence/semantic_verifier.py`).

A Pydantic validator is a field: a `SearchIntent` with inverted dates or
budgets, a `ReportClaim` without citations or with a repeated one, and a
verdict that breaks its contract cannot be built.

Standard-library functions whose tables are not in the repository (hashing,
Unicode normalisation, ISO timestamps, URL splitting) are the fields of `Lib`.
-/
namespace BidScope.L1

/-- An aware `datetime`: the instant in microseconds since the epoch, and the
UTC offset it is written with. Python compares aware datetimes by instant. -/
structure Datetime where
  utc : Int
  offset : Int
  deriving DecidableEq, Repr

def Datetime.same (a b : Option Datetime) : Bool := a.map (·.utc) == b.map (·.utc)

structure SplitResult where
  scheme : String
  netloc : String
  path : String
  deriving DecidableEq, Repr

structure Lib where
  /-- `hashlib.sha256(text.encode("utf-8")).hexdigest()` -/
  sha256 : String → String
  /-- `unicodedata.normalize("NFKC", value)` -/
  nfkc : String → String
  /-- `str.lower` -/
  lower : String → String
  /-- `repr` of a `str` -/
  repr : String → String
  isoformat : Datetime → String
  /-- `datetime.fromisoformat`, `none` where it raises `ValueError` -/
  fromisoformat : String → Option Datetime
  urlsplit : String → SplitResult
  urlunsplit : SplitResult → String

/-- The library on lower-case ASCII text and the Unix epoch, for runs on
concrete values that take no digest. -/
def asciiLib : Lib where
  sha256 s := "sha256:" ++ s
  nfkc s := s
  lower s := s
  repr s := "'" ++ s ++ "'"
  isoformat _ := "1970-01-01T00:00:00+00:00"
  fromisoformat s := if s = "1970-01-01T00:00:00+00:00" then some ⟨0, 0⟩ else none
  urlsplit s := ⟨"", "", s⟩
  urlunsplit r := r.path

/-! ## Strings -/

/-- `str.isspace` of one character. -/
def isSpace (c : Char) : Bool :=
  (9 ≤ c.toNat && c.toNat ≤ 13) || (28 ≤ c.toNat && c.toNat ≤ 32) || c.toNat == 0x85 ||
    c.toNat == 0xA0 || c.toNat == 0x1680 || (0x2000 ≤ c.toNat && c.toNat ≤ 0x200A) ||
    c.toNat == 0x2028 || c.toNat == 0x2029 || c.toNat == 0x202F || c.toNat == 0x205F ||
    c.toNat == 0x3000

/-- `str.strip()` -/
def strip (s : String) : String :=
  .ofList ((s.toList.dropWhile isSpace).reverse.dropWhile isSpace).reverse

/-- A text with more than white space in it is not blank. -/
theorem strip_ne_empty {s : String} {c : Char} (hc : c ∈ s.toList) (h : isSpace c = false) :
    strip s ≠ "" := by
  intro he
  have hl := congrArg String.toList he
  rw [strip, String.toList_ofList] at hl
  have hback := List.dropWhile_eq_nil_iff.mp (List.reverse_eq_nil_iff.mp hl)
  have hkeep : s.toList.dropWhile isSpace ≠ [] := fun hnil => by
    have hspace := List.dropWhile_eq_nil_iff.mp hnil c hc
    rw [h] at hspace
    cases hspace
  have hhead := List.head_dropWhile_not isSpace hkeep
  rw [hback _ (List.mem_reverse.mpr (List.head_mem hkeep))] at hhead
  cases hhead

/-- A stripped text that is not empty does not end in white space. -/
theorem exists_of_strip_ne {s : String} (h : strip s ≠ "") :
    ∃ c ∈ (strip s).toList, isSpace c = false := by
  have hl : (strip s).toList = ((s.toList.dropWhile isSpace).reverse.dropWhile isSpace).reverse := by
    rw [strip, String.toList_ofList]
  have hne : (s.toList.dropWhile isSpace).reverse.dropWhile isSpace ≠ [] := by
    intro hnil
    rw [hnil] at hl
    exact h (String.toList_eq_nil_iff.mp hl)
  refine ⟨_, hl ▸ List.mem_reverse.mpr (List.head_mem hne), List.head_dropWhile_not isSpace hne⟩

def wordsGo : List Char → List Char → List (List Char)
  | [], w => if w = [] then [] else [w.reverse]
  | c :: cs, w =>
    if isSpace c then (if w = [] then wordsGo cs [] else w.reverse :: wordsGo cs [])
    else wordsGo cs (c :: w)

/-- `str.split()` -/
def split (s : String) : List String := (wordsGo s.toList []).map .ofList

/-- `sep.join(parts)` -/
def joinWith (sep : String) (parts : List String) : String :=
  .ofList (Text.join sep.toList (parts.map String.toList))

/-! ## Enumerations -/

/-- mirrors domain/enums.py:16-33 -/
inductive RunStatus where
  | pending | parseIntent | validateIntent | awaitingConfirmation | confirmIntent
  | buildRetrievalPlan | retrieveCandidates | candidatesResolved | resolveDuplicates
  | verifyEvidence | synthesizeReport | validateReport | persistAndDeliver | completed | failed
  | retryable | evidenceInsufficient
  deriving DecidableEq, Repr

/-- mirrors domain/enums.py:50-59 -/
inductive ClaimSupportStatus where
  | supported | unsupported | uncertain
  deriving DecidableEq, Repr

/-- mirrors domain/types.py:18-30 -/
inductive BidScopeErrorCode where
  | snapshotIntegrityError | snapshotStale | parseDrift | intentInvalid | retrievalEmpty
  | evidenceInsufficient | modelTransientError | deliveryError | snapshotImportError
  | graphNodeError
  deriving DecidableEq, Repr

/-! ## Intents -/

/-- mirrors domain/notices.py:10-15 -/
structure Money where
  minorUnits : Int
  currency : String := "CNY"
  rawText : Option String := none
  deriving DecidableEq, Repr

/-- mirrors domain/intents.py:9-11 -/
structure RunSchedule where
  cronExpression : String
  timezone : String := "Asia/Shanghai"
  deriving DecidableEq, Repr

/-- mirrors domain/intents.py:14-52. The last three fields are its validators
(timestamps are aware by type). -/
structure SearchIntent where
  topics : List String
  expandedTerms : List String := []
  regions : List String := []
  publishedFrom : Option Datetime := none
  publishedTo : Option Datetime := none
  minBudget : Option Money := none
  maxBudget : Option Money := none
  schedule : Option RunSchedule := none
  confidence : ℚ := 0
  assumptions : List String := []
  confidenceRange : 0 ≤ confidence ∧ confidence ≤ 1 := by decide
  dateRange : ∀ a ∈ publishedFrom, ∀ b ∈ publishedTo, a.utc ≤ b.utc := by simp
  budgetRange : ∀ a ∈ minBudget, ∀ b ∈ maxBudget, a.minorUnits ≤ b.minorUnits := by simp
  deriving DecidableEq

namespace SearchIntent

theorem sure : (0 : ℚ) ≤ 1 ∧ (1 : ℚ) ≤ 1 := by decide

theorem anyDates : ∀ a ∈ (none : Option Datetime), ∀ b ∈ (none : Option Datetime),
    a.utc ≤ b.utc := by simp

theorem anyBudget : ∀ a ∈ (none : Option Money), ∀ b ∈ (none : Option Money),
    a.minorUnits ≤ b.minorUnits := by simp

end SearchIntent

/-! ## Evidence and reports -/

/-- mirrors domain/notices.py:45-50 -/
structure NoticeEvidence where
  noticeVersionId : String
  text : String
  start : Int
  stop : Int
  spanHash : String
  startNonneg : 0 ≤ start
  stopNonneg : 0 ≤ stop
  deriving DecidableEq, Repr

/-- mirrors domain/reports.py:9-11 -/
structure ReportCitation where
  evidenceId : String
  label : Option String := none
  deriving DecidableEq, Repr

/-- mirrors domain/reports.py:14-28 -/
structure ReportClaim where
  text : String
  citationIds : List String
  supportStatus : Option ClaimSupportStatus := none
  hasCitations : citationIds ≠ []
  distinctCitations : citationIds.Nodup
  deriving DecidableEq, Repr

/-- mirrors domain/reports.py:31-39; `known_fields` is a `dict`, kept in its
insertion order. -/
structure ReportItem where
  noticeId : String
  title : String
  knownFields : List (String × String) := []
  unknownFields : List String := []
  relevanceReason : Option String := none
  riskNote : Option String := none
  citations : List ReportCitation := []
  claims : List ReportClaim := []
  deriving DecidableEq, Repr

/-- mirrors domain/reports.py:42-49 -/
structure Report where
  runId : String
  generatedAt : Datetime
  queryConditions : List (String × String)
  freshnessWindow : Option String := none
  sourceAvailability : List String := []
  completenessWarning : Option String := none
  items : List ReportItem := []
  deriving DecidableEq, Repr

/-- mirrors llm/types.py:67-84 -/
structure ReportDraft where
  items : List ReportItem := []
  freshnessWindow : Option String := none
  sourceAvailability : List String := []
  completenessWarning : Option String := none
  assumptions : List String := []
  deriving DecidableEq, Repr

/-- mirrors llm/types.py:36-45 -/
structure EvidenceSpan where
  evidenceId : String
  text : String
  noticeId : String
  deriving DecidableEq, Repr

/-- mirrors llm/types.py:49-64 -/
structure VerifiedOpportunity where
  noticeId : String
  title : String
  region : Option String := none
  purchaser : Option String := none
  budgetRaw : Option String := none
  deadline : Option String := none
  summary : Option String := none
  evidence : List EvidenceSpan := []
  deriving DecidableEq, Repr

/-- mirrors llm/types.py:88-101 -/
structure ModelUsage where
  model : String
  promptTokens : Int
  completionTokens : Int
  latencyMs : ℚ
  pricingSnapshot : String := "unspecified"
  deriving DecidableEq

/-! ## Semantic verdicts -/

/-- mirrors evidence/semantic_verifier.py:28-55; the last four fields are
`__post_init__`. -/
structure ClaimSupportVerification where
  status : ClaimSupportStatus
  rationale : String
  evidenceIdsUsed : List String
  conflictEvidenceIds : List String
  verifierVersion : String
  rationaleNonblank : strip rationale ≠ ""
  versionNonblank : strip verifierVersion ≠ ""
  conflictsUnsupported : status ≠ .unsupported → conflictEvidenceIds = []
  conflictsUsed : ∀ i ∈ conflictEvidenceIds, i ∈ evidenceIdsUsed
  deriving DecidableEq

/-- mirrors evidence/semantic_verifier.py:59-70 -/
structure ClaimVerification where
  noticeId : String
  claimIndex : Nat
  verification : ClaimSupportVerification
  deriving DecidableEq

/-! ## Events and errors -/

/-- The values the modelled code puts into a `details` dict. -/
inductive Detail where
  | int (n : Int)
  | bool (b : Bool)
  | str (s : String)
  | strs (l : List String)
  deriving DecidableEq, Repr

/-- mirrors domain/runs.py:17-20 -/
structure SerializableError where
  code : BidScopeErrorCode
  message : String
  details : List (String × Detail) := []
  deriving DecidableEq, Repr

/-- A node event as the graph stores it, with details of any kind.
mirrors graph/nodes.py:46-66 -/
structure NodeEventOf (V : Type) where
  node : String
  event : String
  status : String
  timestamp : String
  message : Option String := none
  details : List (String × V) := []
  deriving DecidableEq, Repr

abbrev NodeEvent := NodeEventOf Detail

end BidScope.L1
