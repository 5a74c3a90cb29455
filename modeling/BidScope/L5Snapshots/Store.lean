import BidScope.Core.Dict
import BidScope.L1Domain.Types

/-!
# Snapshots and their tables

What the importer reads (`domain/notices.py`, `domain/snapshots.py`,
`domain/provenance.py`, `snapshots/adapters.py`) and the tables it writes
(`persistence/models.py`).

A bundle is what `inspect_bundle` and the source's adapter make of its
directory: an inspection result and the notices parsed, or the exception the
adapter raises. Rows stand in the order they were inserted.

`Tables.written` is ghost: every content the committed imports wrote, in order.
-/
namespace BidScope.L5

open BidScope.L1

/-! ## Notices and bundles -/

/-- mirrors domain/enums.py:4-7 -/
inductive SourceName where
  | ccgp | ggzy | syntheticDemo
  deriving DecidableEq, Repr

def SourceName.value : SourceName → String
  | .ccgp => "ccgp"
  | .ggzy => "ggzy"
  | .syntheticDemo => "synthetic_demo"

/-- mirrors domain/enums.py:10-13 -/
inductive CaptureKind where
  | rawResponse | curatedPublicExcerpt | syntheticDemo
  deriving DecidableEq, Repr

def CaptureKind.value : CaptureKind → String
  | .rawResponse => "raw_response"
  | .curatedPublicExcerpt => "curated_public_excerpt"
  | .syntheticDemo => "synthetic_demo"

/-- A parsed `HttpUrl`. -/
structure HttpUrl where
  text : String
  host : Option String
  deriving DecidableEq, Repr

/-- mirrors domain/provenance.py:23-26 -/
def officialHosts : SourceName → Option (List String)
  | .ccgp => some ["www.ccgp.gov.cn", "search.ccgp.gov.cn"]
  | .ggzy => some ["www.ggzy.gov.cn"]
  | .syntheticDemo => none

def SYNTHETIC_HOST : String := "example.invalid"

/-- `external_id.startswith(_SYNTHETIC_ID_PREFIX)` -/
def hasSyntheticPrefix (externalId : String) : Bool := "demo-".toList.isPrefixOf externalId.toList

/-- Whether `validate_provenance` finds no error.
mirrors domain/provenance.py:42-99 -/
def validProvenance (source : SourceName) (captureKind : CaptureKind) (host : Option String)
    (externalId : String) : Bool :=
  match host with
  | none => false
  | some host =>
    if captureKind = .syntheticDemo then
      source == .syntheticDemo && host == SYNTHETIC_HOST && hasSyntheticPrefix externalId
    else
      source != .syntheticDemo && host != SYNTHETIC_HOST &&
        (match officialHosts source with
          | none => false
          | some allowed => allowed.contains host) &&
        !hasSyntheticPrefix externalId

/-- A value of `raw_fields`: a string, or anything else by its JSON text. -/
inductive RawValue where
  | str (s : String)
  | json (text : String)
  deriving DecidableEq, Repr

/-- mirrors domain/notices.py:18-42 -/
structure NormalizedNotice where
  source : SourceName
  externalId : String
  sourceUrl : HttpUrl
  captureKind : CaptureKind
  title : Option String := none
  purchaser : Option String := none
  region : Option String := none
  publishTime : Option Datetime := none
  deadline : Option Datetime := none
  budget : Option Money := none
  summary : Option String := none
  cancellation : Bool := false
  parserVersion : String
  rawFields : List (String × RawValue) := []
  provenance : validProvenance source captureKind sourceUrl.host externalId = true := by decide
  deriving DecidableEq

/-- The fields of a `SnapshotManifest` the importer reads, and the whole of it
as `model_dump(mode="json")`.
mirrors domain/snapshots.py:156-177 -/
structure SnapshotManifest where
  bundleId : String
  source : SourceName
  captureKind : CaptureKind
  schemaVersion : Nat
  sourceUrls : List HttpUrl
  retrievedAt : Datetime
  retrievalOutcome : String
  parserVersion : String
  payload : String
  deriving DecidableEq

/-- mirrors snapshots/adapters.py:11-15 -/
structure InspectionError where
  code : String
  message : String
  path : Option String := none
  deriving DecidableEq, Repr

/-- mirrors snapshots/adapters.py:18-28 -/
structure InspectionResult where
  valid : Bool
  bundleId : Option String
  errors : List InspectionError
  actualHashes : List (String × String)
  manifestSha256 : Option String
  manifest : Option SnapshotManifest
  deriving DecidableEq

/-! ## Exceptions -/

/-- mirrors snapshots/importer.py:82-96 -/
structure SnapshotImportError where
  message : String
  errors : List InspectionError := []
  bundleId : Option String := none
  manifestSha256 : Option String := none
  deriving DecidableEq, Repr

/-- What may be raised on the way through an import. -/
inductive Exn where
  | snapshotImport (error : SnapshotImportError)
  | parseDrift (message : String)
  /-- an `OSError` -/
  | os (message : String)
  /-- `IntegrityError`, by the constraint that is violated -/
  | integrity (constraint : String)
  | other (typeName : String)
  deriving DecidableEq, Repr

/-- `type(error).__name__` -/
def Exn.typeName : Exn → String
  | .snapshotImport _ => "SnapshotImportError"
  | .parseDrift _ => "ParseDrift"
  | .os _ => "OSError"
  | .integrity _ => "IntegrityError"
  | .other typeName => typeName

/-- A directory handed to the importer: the resource limit it exceeds, if any,
its inspection, and what its adapter parses. -/
structure Bundle where
  overLimit : Option String := none
  inspection : InspectionResult
  parsed : Except Exn (List NormalizedNotice)

/-! ## Tables -/

/-- mirrors persistence/models.py:58-75 -/
structure SourceNotice where
  id : String
  canonicalNoticeId : String
  source : String
  externalId : String
  sourceUrl : String
  firstSeenAt : Datetime
  latestSeenAt : Datetime
  contentHash : String
  projectNumber : Option String := none
  deriving DecidableEq, Repr

/-- mirrors persistence/models.py:78-99; `createdAt` is the `now()` of the
transaction that inserted the row. -/
structure NoticeVersion where
  id : String
  sourceNoticeId : String
  createdAt : Int
  payloadObjectKey : String
  captureKind : String
  parserVersion : String
  contentHash : String
  title : Option String
  purchaser : Option String
  region : Option String
  publishDate : Option Datetime
  deadline : Option Datetime
  budgetMinorUnits : Option Int
  budgetCurrency : Option String
  summary : Option String
  cancellation : Bool
  rawFields : List (String × RawValue)
  embedding : Option (List ℚ) := none
  deriving DecidableEq

/-- mirrors persistence/models.py:124-132 -/
structure EvidenceRow where
  id : String
  noticeVersionId : String
  text : String
  start : Int
  stop : Int
  spanHash : String
  deriving DecidableEq, Repr

/-- mirrors persistence/models.py:138-150 -/
structure SnapshotBundle where
  id : String
  bundleId : String
  source : String
  captureKind : String
  schemaVersion : Nat
  sourceUrls : List String
  retrievedAt : Datetime
  retrievalOutcome : String
  parserVersion : String
  manifest : String
  deriving DecidableEq, Repr

/-- mirrors persistence/models.py:153-164; the entries of `metrics` are fields. -/
structure SnapshotImport where
  id : String
  snapshotBundleId : String
  idempotencyKey : String
  status : String
  startedAt : Datetime
  finishedAt : Option Datetime
  manifestSha256 : Option String
  payloadFileCount : Nat
  noticeCount : Nat
  reprocessing : String
  deriving DecidableEq, Repr

/-- mirrors persistence/models.py:209-228; the entries of `details` are fields. -/
structure AuditEvent where
  id : String
  eventType : String
  outcome : String
  method : String
  path : String
  snapshotImportId : String
  bundleId : String
  status : String
  noticeCount : Nat
  reprocessing : String
  deriving DecidableEq, Repr

/-- One content written: whose, which, and when. -/
structure Written where
  source : String
  externalId : String
  contentHash : String
  notice : NormalizedNotice
  importedAt : Int
  deriving DecidableEq

structure Tables where
  canonicalNotices : List String := []
  sourceNotices : List SourceNotice := []
  versions : List NoticeVersion := []
  evidence : List EvidenceRow := []
  bundles : List SnapshotBundle := []
  imports : List SnapshotImport := []
  auditEvents : List AuditEvent := []
  /-- ghost -/
  written : List Written := []
  deriving DecidableEq

/-- Outside the transaction: stored objects, and how many UUIDs were drawn. -/
structure Outside where
  objects : Dict String String := .empty
  drawn : Nat := 0
  deriving DecidableEq

/-- `Lib`, the serialiser of notices, and the database's random UUIDs, which
never repeat. -/
structure SnapshotLib extends Lib where
  /-- `json.dumps(notice.model_dump(mode="json"), sort_keys=True, ensure_ascii=False)` -/
  canonicalJson : NormalizedNotice → String
  /-- the `k`-th value of `gen_random_uuid()` -/
  uuid : Nat → String
  uuid_injective : Function.Injective uuid

/-! ## A library for concrete runs -/

/-- `json.dumps` of the fields in which the notices of a run differ. -/
def asciiJson (n : NormalizedNotice) : String :=
  let text (s : Option String) := (s.map fun s => "\"" ++ s ++ "\"").getD "null"
  let fields := [
    ("cancellation", if n.cancellation then "true" else "false"),
    ("external_id", n.externalId),
    ("region", text n.region),
    ("title", text n.title)]
  "\x7b" ++ joinWith "," (fields.map fun (key, value) => key ++ ":" ++ value) ++ "\x7d"

def asciiSnapshotLib : SnapshotLib where
  toLib := asciiLib
  canonicalJson := asciiJson
  uuid k := String.ofList (List.replicate (k + 1) 'u')
  uuid_injective := by
    intro j k h
    have hlen := congrArg List.length (String.ofList_inj.mp h)
    simpa using hlen

end BidScope.L5
