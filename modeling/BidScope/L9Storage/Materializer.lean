import Mathlib.Algebra.BigOperators.Group.List.Basic
import Mathlib.Algebra.Order.Ring.Nat
import BidScope.Core.Disks
import BidScope.L9Storage.Reparse

/-!
# Materializing an authorized page

`AuthorizedBundleMaterializer.materialize` on a disk with links, where every
call to the system may fail: a bundle is written in a temporary directory of the
staging root, inspected, and moved to its place; one that is there already is
inspected and compared.
-/
namespace BidScope.L9.Authorized

open BidScope.L1 BidScope.L5
open Json (Data)

/-! ## The request -/

/-- mirrors ingestion/ports.py:55-68 -/
structure SourcePage where
  cursorBefore : Option String
  nextCursor : Option String
  items : List (Json Json.Number)
  responseBytes : Bytes
  responseSha256 : String
  retrievedAt : PyDatetime
  statusCode : Int
  sourceUrl : String
  responseItemsField : String
  noticeFieldMap : Dict String String

/-- A value of `extra_metadata`; a number with a point is known by its `str`, and
a key that is not a string is `none`. -/
inductive PyValue where
  | none
  | bool (b : Bool)
  | int (n : Int)
  | float (text : String)
  | str (s : String)
  | sequence (items : List PyValue)
  | mapping (entries : List (Option String × PyValue))
  | other

/-- The arguments of `materialize`. -/
structure Request where
  page : SourcePage
  batchId : String
  dataContract : Option SourceContract
  retrievalOutcome : String
  parserVersion : String
  extraMetadata : List (Option String × PyValue)

/-- `urlsplit(url)` with the properties that are read. -/
structure SourceSplit where
  scheme : String
  hostname : Option String
  port : Option Nat
  username : Option String
  password : Option String
  query : String
  fragment : String

/-- What the materializer takes from the libraries and the system. -/
structure MaterializeLib extends PydanticLib where
  /-- `sha256(…).hexdigest()` -/
  sha256 : Bytes → String
  lower : String → String
  /-- `none` where `urlsplit`, the port or the host raises `ValueError` -/
  urlsplit : String → Option SourceSplit
  isoformat : Datetime → String
  /-- `json.loads` on a text that is not JSON: it reads `NaN` and raises on others -/
  loadsOther : Bytes → Loaded (Json Json.Number)
  /-- the text of the `OSError` that reading the path raises -/
  osError : List String → String
  /-- the size of a file that cannot be read -/
  size : List String → Nat

/-- A `BundleQuarantineError`. -/
structure Quarantine where
  code : String
  message : String
  deriving DecidableEq, Repr

variable (lib : MaterializeLib)

/-! ## Checks of the request -/

mutual

/-- mirrors ingestion/materializer.py:215-254 -/
def walk : PyValue → Except Quarantine Unit
  | .mapping entries => walkEntries entries
  | .sequence items => walkItems items
  | .str s =>
    if sensitiveValue lib.casefold s then
      .error ⟨"credential_metadata", "credential-bearing metadata is not admitted"⟩
    else .ok ()
  | .other => .error ⟨"invalid_metadata", "acquisition metadata values are not supported"⟩
  | .none | .bool _ | .int _ | .float _ => .ok ()

def walkItems : List PyValue → Except Quarantine Unit
  | [] => .ok ()
  | v :: rest =>
    match walk v with
    | .error e => .error e
    | .ok _ => walkItems rest

def walkEntries : List (Option String × PyValue) → Except Quarantine Unit
  | [] => .ok ()
  | (key, v) :: rest =>
    match key with
    | none => .error ⟨"invalid_metadata", "acquisition metadata keys must be strings"⟩
    | some key =>
      if sensitiveKey lib.casefold key then
        .error ⟨"credential_metadata", "credential-bearing metadata is not admitted"⟩
      else
        match walk v with
        | .error e => .error e
        | .ok _ => walkEntries rest

end

/-- `str(value)` of a scalar. -/
def PyValue.scalar? : PyValue → Option String
  | .str s => some s
  | .bool b => some (if b then "True" else "False")
  | .int n => some (toString n)
  | .float text => some text
  | .none | .sequence _ | .mapping _ | .other => Option.none

def scalars : List (Option String × PyValue) → Dict String String → Except Quarantine (Dict String String)
  | [], safe => .ok safe
  | (key, v) :: rest, safe =>
    match v.scalar? with
    | none => .error ⟨"invalid_metadata", "acquisition metadata values must be scalar"⟩
    | some text => scalars rest (safe.set (key.getD "") text)

/-- mirrors ingestion/materializer.py:214-265 -/
def safeExtraMetadata (extra : List (Option String × PyValue)) : Except Quarantine (Dict String String) :=
  match walk lib (.mapping extra) with
  | .error e => .error e
  | .ok _ => scalars extra .empty

/-- mirrors ingestion/materializer.py:268-290 -/
def approvedUrl (sourceUrl : String) : Bool :=
  match lib.urlsplit sourceUrl with
  | none => false
  | some parsed =>
    parsed.scheme == "https" &&
      (match parsed.hostname with
        | none => false
        | some host => ((officialHosts .ccgp).getD []).contains (lib.casefold host)) &&
      [none, some 443].contains parsed.port && parsed.username.isNone && parsed.password.isNone &&
      parsed.query == "" && parsed.fragment == ""

/-! ## The manifest -/

/-- The arguments of `AuthorizedAcquisitionMetadata`.
mirrors ingestion/materializer.py:97-106 -/
def metadataInput (page : SourcePage) (hash : String) (extra : Dict String String) : AcquisitionInput where
  responseSha256 := .ok hash
  statusCode := .ok page.statusCode
  cursorBefore := .ok page.cursorBefore
  cursorAfter := .ok page.nextCursor
  requestCount := .ok 1
  recordCount := .ok page.items.length
  responseItemsField := .ok page.responseItemsField
  noticeFieldMap := .ok page.noticeFieldMap
  extra := .ok extra

def isoText : PyDatetime → String
  | .aware t => lib.isoformat t
  | .naive text => text

/-- mirrors ingestion/materializer.py:112-123 -/
def identity (r : Request) (contract : SourceContract) (metadata : AcquisitionMetadata) : Data :=
  .dict [("acquisition_metadata", metadata.dump), ("batch_id", .str r.batchId),
    ("data_contract", contract.dump lib.toPydanticLib), ("cursor_before", optional .str r.page.cursorBefore),
    ("next_cursor", optional .str r.page.nextCursor), ("parser_version", .str r.parserVersion),
    ("retrieval_outcome", .str r.retrievalOutcome), ("retrieved_at", .str (isoText lib r.page.retrievedAt)),
    ("response_sha256", .str (lib.sha256 r.page.responseBytes)), ("source_url", .str r.page.sourceUrl)]

/-- The response, a newline and the identity name the bundle.
mirrors ingestion/materializer.py:124-127 -/
def bundleIdOf (r : Request) (contract : SourceContract) (metadata : AcquisitionMetadata) : String :=
  "ccgp-live-" ++
    lib.sha256 (r.page.responseBytes ++ 10 :: Json.utf8 (Json.canonical (identity lib r contract metadata)))

/-- mirrors ingestion/materializer.py:192-206 -/
def manifestInput (r : Request) (contract : SourceContract) (metadata : AcquisitionMetadata) : ManifestInput where
  schemaVersion := .ok 2
  bundleId := .ok (bundleIdOf lib r contract metadata)
  source := .ok .ccgp
  captureKind := .ok .rawResponse
  sourceUrls := .ok [some r.page.sourceUrl]
  retrievedAt := .ok r.page.retrievedAt
  retrievalOutcome := .ok r.retrievalOutcome
  parserVersion := .ok r.parserVersion
  files := .ok (.ofList [("response.json", metadata.responseSha256)])
  batchId := .ok (some r.batchId)
  dataContract := .ok (some contract)
  acquisitionMetadata := .ok (some metadata)

/-- `manifest_bytes`
mirrors ingestion/materializer.py:137-142 -/
def manifestBytes (manifest : SnapshotManifest) : Bytes :=
  Json.utf8 (Json.canonical (manifest.dump lib.toPydanticLib))

/-- What is known before the disk is touched. -/
structure Prepared where
  bundleId : String
  manifest : SnapshotManifest
  responseSha256 : String

/-- mirrors ingestion/materializer.py:96-142 -/
def describe (r : Request) (contract : SourceContract) (extra : Dict String String) : Except Quarantine Prepared :=
  let hash := lib.sha256 r.page.responseBytes
  match (metadataInput r.page hash extra).validate lib.toPydanticLib with
  | .wrong _ _ => .error ⟨"invalid_metadata", "authorized acquisition metadata is invalid"⟩
  | .ok metadata =>
    match (manifestInput lib r contract metadata).validate lib.toPydanticLib with
    | .wrong _ _ => .error ⟨"invalid_manifest", "authorized bundle manifest is invalid"⟩
    | .ok manifest => .ok ⟨bundleIdOf lib r contract metadata, manifest, hash⟩

/-- mirrors ingestion/materializer.py:75-142 -/
def prepare (maxBundleBytes : Nat) (r : Request) : Except Quarantine Prepared :=
  match r.dataContract with
  | none => .error ⟨"missing_data_contract", "authorized data contract is missing"⟩
  | some contract =>
    if contract.reviewStatus ≠ .approved then
      .error ⟨"authorization_not_approved", "authorized data contract is not approved"⟩
    else if approvedUrl lib r.page.sourceUrl = false then
      .error ⟨"invalid_source_url", "authorized source URL is not approved"⟩
    else if r.page.responseSha256 = "" then .error ⟨"missing_response_hash", "source response hash is missing"⟩
    else if lib.lower r.page.responseSha256 ≠ lib.sha256 r.page.responseBytes then
      .error ⟨"response_hash_mismatch", "source response hash mismatched"⟩
    else if maxBundleBytes < r.page.responseBytes.length then
      .error ⟨"response_too_large", "source response exceeds bundle limit"⟩
    else
      match safeExtraMetadata lib r.extraMetadata with
      | .error e => .error e
      | .ok extra => describe lib r contract extra

/-! ## Bundles of authorized manifests -/

/-- The manifest as the inspection hands it on. -/
def SnapshotManifest.toBundle (m : SnapshotManifest) : BundleManifest where
  manifest :=
    { bundleId := m.bundleId, source := m.source, captureKind := m.captureKind,
      schemaVersion := m.schemaVersion.toNat, sourceUrls := m.sourceUrls.map Url.toHttpUrl,
      retrievedAt := m.retrievedAt, retrievalOutcome := m.retrievalOutcome, parserVersion := m.parserVersion,
      payload := .ofList (Json.canonical (m.dump lib.toPydanticLib)) }
  files := m.files

/-- `json.loads(bytes.decode("utf-8"))` -/
def loads (bytes : Bytes) : Loaded (Json Json.Number) :=
  match (Json.decodeUtf8 bytes).bind Json.parse with
  | some (.obj fields) => .object (.obj fields)
  | some _ => .notObject
  | none => lib.loadsOther bytes

/-- `raw.get("bundle_id")`, where that is a string -/
def rawBundleId (raw : Json Json.Number) : Option String :=
  match raw.get "bundle_id" with
  | some (.str units) =>
    match lib.str (.str units) with
    | .ok s => some s
    | .wrong _ _ => none
  | _ => none

def modelValidate (raw : Json Json.Number) : Except ValidationError BundleManifest :=
  match SnapshotManifest.ofJson lib.toPydanticLib raw with
  | .ok m => .ok (m.toBundle lib)
  | .wrong e es => .error ⟨e :: es, List.cons_ne_nil e es⟩

/-- What `inspect_bundle` takes from elsewhere, for these manifests; the file
system refuses no look at the bundles below the staging root. -/
def bundleLib : BundleLib (Json Json.Number) where
  sha256 := lib.sha256
  lower := lib.lower
  loads := loads lib
  bundleId := rawBundleId lib
  validate := modelValidate lib
  osError := lib.osError

theorem bundleLib_granted : (bundleLib lib).access.Granted := ⟨fun _ => rfl, fun _ => rfl, fun _ => rfl⟩

/-! ## The materializer -/

/-- mirrors ingestion/materializer.py:59-63 -/
structure Materializer where
  stagingRoot : List String
  names : ∀ s ∈ stagingRoot, Ordinary s
  maxBundleBytes : Nat
  positive : 0 < maxBundleBytes

structure MaterializedBundle where
  path : List String
  manifest : SnapshotManifest
  bundleId : String
  responseSha256 : String

inductive Raised where
  | quarantine (error : Quarantine)
  /-- raised as it comes from `mkdir`, `exists` or `mkdtemp` -/
  | osError
  /-- a loop of links -/
  | runtimeError
  deriving DecidableEq

/-- The calls that may raise an `OSError` on any disk. -/
inductive Call where
  | mkdir | stat | sizes | mkdtemp | writeResponse | writeManifest | replace
  deriving DecidableEq

/-- What the system does during one call of `materialize`. -/
structure System where
  fails : Call → Bool
  /-- the random end of the temporary name -/
  suffix : String
  /-- what a write that fails leaves in its file, `none` where there is no file -/
  torn : Call → Option Bytes
  /-- the file that a write makes can be read -/
  readable : Call → Bool
  /-- `shutil.rmtree` removes the tree -/
  removes : Bool

variable (m : Materializer) (sys : System)

def responseName : String := "response.json"

def Materializer.target (bundleId : String) : List String := m.stagingRoot ++ [bundleId]

/-- `path.stat().st_size` of a file -/
def fileSize (d : Disk Bytes) (path : List String) : Nat :=
  match d.stat path with
  | some (.file (.regular (some bytes))) => bytes.length
  | _ => lib.size path

/-- mirrors ingestion/materializer.py:153-155 -/
def totalBytes (d : Disk Bytes) (root : List String) : Nat :=
  (((d.below root).filter d.isFile).map (fileSize lib d)).sum

def quarantine {α : Type} (code message : String) : Except Raised α := .error (.quarantine ⟨code, message⟩)

/-- `_raise_quarantine`
mirrors ingestion/materializer.py:293-298 -/
def raiseQuarantine {α : Type} (inspection : InspectionResult) : Except Raised α :=
  quarantine ((inspection.errors.head?.map (·.code)).getD "invalid_bundle")
    "authorized source bundle failed integrity inspection"

def notIdentical {α : Type} : Except Raised α :=
  quarantine "bundle_collision" "existing source bundle is not identical"

def readError {α : Type} : Except Raised α :=
  quarantine "bundle_read_error" "existing source bundle could not be read"

def bundleOf (p : Prepared) (response : Bytes) : MaterializedBundle :=
  ⟨m.target p.bundleId, p.manifest, p.manifest.bundleId, lib.sha256 response⟩

/-- The two files as they are to be.
mirrors ingestion/materializer.py:326-331 -/
def identical (d : Disk Bytes) (target : List String) (manifest response : Bytes) : Except Raised Unit :=
  match readBytes (d.stat (target ++ [manifestName])) with
  | none => readError
  | some stored =>
    if stored ≠ manifest then notIdentical
    else
      match readBytes (d.stat (target ++ [responseName])) with
      | none => readError
      | some stored => if stored ≠ response then notIdentical else .ok ()

/-- `resolved` is the root when the target leads out of it, so the check asks for no more than a prefix.
mirrors ingestion/materializer.py:300-341 -/
def reuseExisting (d : Disk Bytes) (p : Prepared) (response : Bytes) : Except Raised MaterializedBundle :=
  let target := m.target p.bundleId
  if Disk.isLink (d.lstat target) = true ∨ d.stat target ≠ some .dir then
    quarantine "bundle_collision" "existing source bundle is not a directory"
  else
    match d.realpath m.stagingRoot, d.realpath target with
    | some root, some resolved =>
      if root.isPrefixOf resolved = false then
        quarantine "bundle_collision" "existing source bundle escapes staging"
      else if sys.fails .sizes then readError
      else if m.maxBundleBytes < totalBytes lib d resolved then
        quarantine "bundle_too_large" "existing source bundle exceeds the configured limit"
      else
        match inspectBundle (bundleLib lib) d target with
        | none => .error .runtimeError
        | some inspection =>
          if inspection.valid = false ∨ inspection.manifest = none then notIdentical
          else
            match identical d target (manifestBytes lib p.manifest) response with
            | .error e => .error e
            | .ok _ => .ok (bundleOf lib m p response)
    | _, _ => .error .runtimeError

/-! ## Staging -/

/-- An `OSError` in the block that is cleaned up after. -/
def materializationFailed {α : Type} : Except Raised α :=
  quarantine "materialization_failed" "could not materialize source bundle"

/-- `write_bytes` of a new file; the disk it leaves, and whether it returned. -/
def writeBytes (call : Call) (d : Disk Bytes) (path : List String) (bytes : Bytes) : Disk Bytes × Bool :=
  if sys.fails call then
    match sys.torn call with
    | none => (d, false)
    | some part => ((d.write path (.regular (some part))).getD d, false)
  else
    match d.write path (.regular (if sys.readable call then some bytes else none)) with
    | none => (d, false)
    | some d => (d, true)

/-- From the writes to the inspection; `temporary` is where `path` leads.
mirrors ingestion/materializer.py:151-162 -/
def fill (d : Disk Bytes) (path temporary : List String) (manifest response : Bytes) :
    Disk Bytes × Except Raised Unit :=
  match writeBytes sys .writeResponse d (temporary ++ [responseName]) response with
  | (d, false) => (d, materializationFailed)
  | (d, true) =>
    match writeBytes sys .writeManifest d (temporary ++ [manifestName]) manifest with
    | (d, false) => (d, materializationFailed)
    | (d, true) =>
      if sys.fails .sizes then (d, materializationFailed)
      else if m.maxBundleBytes < totalBytes lib d temporary then
        (d, quarantine "bundle_too_large" "materialized source bundle exceeds the configured limit")
      else
        match inspectBundle (bundleLib lib) d path with
        | none => (d, .error .runtimeError)
        | some inspection =>
          if inspection.valid = false ∨ inspection.manifest = none then (d, raiseQuarantine inspection)
          else (d, .ok ())

/-- The block and its `finally`; `root` is where the staging root leads.
mirrors ingestion/materializer.py:149-177 -/
def stage (d : Disk Bytes) (root : List String) (name bundleId : String) (manifest response : Bytes) :
    Disk Bytes × Except Raised Unit :=
  let temporary := root ++ [name]
  let cleanUp (d : Disk Bytes) : Disk Bytes := if sys.removes then d.removeTree temporary else d
  match fill lib m sys d (m.stagingRoot ++ [name]) temporary manifest response with
  | (d, .error e) => (cleanUp d, .error e)
  | (d, .ok _) =>
    if sys.fails .replace then (cleanUp d, materializationFailed)
    else
      match d.move temporary (root ++ [bundleId]) with
      | none => (cleanUp d, materializationFailed)
      | some d => (d, .ok ())

/-- `tempfile.mkdtemp(prefix=f".{bundle_id}.")` -/
def temporaryName (bundleId : String) : String := "." ++ bundleId ++ "." ++ sys.suffix

/-- On a disk with the staging root, which leads to `root`.
mirrors ingestion/materializer.py:145-178 -/
def place (d : Disk Bytes) (root : List String) (p : Prepared) (response : Bytes) :
    Disk Bytes × Except Raised MaterializedBundle :=
  if sys.fails .stat then (d, .error .osError)
  else if (d.stat (m.target p.bundleId)).isSome then (d, reuseExisting lib m sys d p response)
  else if sys.fails .mkdtemp then (d, .error .osError)
  else
    match d.mkdir (root ++ [temporaryName sys p.bundleId]) with
    | none => (d, .error .osError)
    | some d =>
      match stage lib m sys d root (temporaryName sys p.bundleId) p.bundleId (manifestBytes lib p.manifest) response with
      | (d, .error e) => (d, .error e)
      | (d, .ok _) => (d, .ok ⟨m.target p.bundleId, p.manifest, p.bundleId, p.responseSha256⟩)

/-- mirrors ingestion/materializer.py:65-178 -/
def materialize (d : Disk Bytes) (r : Request) : Disk Bytes × Except Raised MaterializedBundle :=
  match prepare lib m.maxBundleBytes r with
  | .error e => (d, .error (.quarantine e))
  | .ok p =>
    if sys.fails .mkdir then (d, .error .osError)
    else
      match d.makeDirs m.stagingRoot with
      | none => (d, .error .osError)
      | some d =>
        match d.resolve m.stagingRoot with
        | none => (d, .error .osError)
        | some root => place lib m sys d root p r.page.responseBytes

end BidScope.L9.Authorized
