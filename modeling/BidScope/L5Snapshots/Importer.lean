import Mathlib.Data.String.Basic
import BidScope.Core.KeyOrder
import BidScope.Core.Txn
import BidScope.L5Snapshots.Store

/-!
# The importer

`snapshots/importer.py` with the repository it writes through
(`persistence/repositories.py`) and its unit of work: the program of one
`import_bundle` call, statement by statement.

Every statement, the commit, the closing of the session, the staging of the
bundle and the removal of the temporary directory may raise; an `ImportCall`
says which of them do. Unique constraints are checked by the inserts.

The transaction ends before the temporary directory is removed, so an exception
of the removal leaves `import_bundle` after the rows are stored.
-/
namespace BidScope.L5

open BidScope.L1 Txn

/-- A call and what its environment does to it. -/
structure ImportCall where
  bundle : Bundle
  /-- `now()` in the call's transaction -/
  now : Int
  clock : Nat → Datetime
  /-- what statement `k` raises -/
  fault : Nat → Option Exn := fun _ => none
  staging : Option Exn := none
  commit : Commit Exn := .done
  close : Option Exn := none
  /-- what removing the temporary directory raises -/
  cleanup : Option Exn := none

structure Store where
  rows : Tables := {}
  outside : Outside := {}
  deriving DecidableEq

abbrev Prog (α : Type) := Txn.Prog Tables Outside Exn α

/-! ## Pure helpers -/

variable (lib : SnapshotLib)

/-- mirrors snapshots/importer.py:114-128 -/
def contentHash (notice : NormalizedNotice) : String := lib.sha256 (lib.canonicalJson notice)

/-- mirrors snapshots/importer.py:131-133 -/
def payloadObjectKey (bundleId contentHash : String) : String :=
  "snapshots/" ++ bundleId ++ "/" ++ contentHash

/-- mirrors snapshots/importer.py:472-474 -/
def formatDatetime (value : Option Datetime) : Option String := value.map lib.isoformat

/-- mirrors snapshots/importer.py:469 -/
def METADATA_FIELD_KEYS : List String := ["synthetic_channel"]

/-- mirrors snapshots/importer.py:477-484 -/
structure Span where
  text : String
  start : Int
  stop : Int
  spanHash : String
  deriving DecidableEq, Repr

def span (text : String) : Span := ⟨text, 0, text.length, lib.sha256 text⟩

/-- mirrors snapshots/importer.py:434-465 -/
def buildEvidence (notice : NormalizedNotice) : List Span :=
  let fields := [notice.title, notice.purchaser, notice.region, notice.summary,
    formatDatetime lib notice.publishTime, formatDatetime lib notice.deadline,
    notice.budget.bind (·.rawText)]
  let raw := notice.rawFields.filterMap fun (key, value) =>
    if METADATA_FIELD_KEYS.contains key then none
    else match value with
      | .str s => some s
      | .json _ => none
  ((fields.filterMap id ++ raw).filter (· ≠ "")).map (span lib)

/-- mirrors snapshots/importer.py:366-379 -/
def deriveIdempotencyKey (bundleId : String) (notices : List NormalizedNotice)
    (manifestSha256 : Option String) : String :=
  let noticeHashes := KeyOrder.orderBy id (notices.map (contentHash lib))
  lib.sha256 (bundleId ++ "|" ++ manifestSha256.getD "" ++ "|" ++ joinWith "," noticeHashes)

/-! ## Repository -/

variable (call : ImportCall)

def find {α : Type} (f : Tables → α) : Prog α := .query call.fault f

/-- An `INSERT` of the row `make id` under a new id; `violated` is the unique
constraint it breaks, if any. -/
def insert {α : Type} (violated : Tables → Option String) (make : String → α)
    (add : Tables → α → Tables) : Prog α :=
  .statement call.fault fun rows outside =>
    match violated rows with
    | some constraint => .error (.integrity constraint)
    | none =>
      let row := make (lib.uuid outside.drawn)
      .ok (row, add rows row, { outside with drawn := outside.drawn + 1 })

def update (f : Tables → Tables) : Prog PUnit :=
  .statement call.fault fun rows outside => .ok (⟨⟩, f rows, outside)

/-- mirrors persistence/repositories.py:84-89 -/
def findImport (idempotencyKey : String) : Prog (Option SnapshotImport) :=
  find call fun t => t.imports.find? (·.idempotencyKey == idempotencyKey)

/-- mirrors persistence/repositories.py:47-50 -/
def findBundleByExternalId (bundleId : String) : Prog (Option SnapshotBundle) :=
  find call fun t => t.bundles.find? (·.bundleId == bundleId)

def bundleRow (manifest : SnapshotManifest) (id : String) : SnapshotBundle where
  id := id
  bundleId := manifest.bundleId
  source := manifest.source.value
  captureKind := manifest.captureKind.value
  schemaVersion := manifest.schemaVersion
  sourceUrls := manifest.sourceUrls.map (·.text)
  retrievedAt := manifest.retrievedAt
  retrievalOutcome := manifest.retrievalOutcome
  parserVersion := manifest.parserVersion
  manifest := manifest.payload

/-- mirrors persistence/repositories.py:52-80 -/
def getOrCreateBundle (manifest : SnapshotManifest) : Prog SnapshotBundle :=
  findBundleByExternalId call manifest.bundleId >>= fun
    | some existing => pure existing
    | none =>
      insert lib call
        (fun t => if t.bundles.any (·.bundleId == manifest.bundleId)
          then some "uq_snapshot_bundles_bundle_id" else none)
        (bundleRow manifest) (fun t row => { t with bundles := t.bundles ++ [row] })

/-- mirrors persistence/repositories.py:91-110 -/
def createImport (record : String → SnapshotImport) : Prog SnapshotImport :=
  insert lib call
    (fun t => if t.imports.any (·.idempotencyKey == (record "").idempotencyKey)
      then some "uq_snapshot_imports_idempotency_key" else none)
    record (fun t row => { t with imports := t.imports ++ [row] })

def SnapshotImport.succeed (finishedAt : Datetime) (record : SnapshotImport) : SnapshotImport :=
  { record with status := "success", finishedAt := some finishedAt }

/-- mirrors persistence/repositories.py:112-116 -/
def markImportSuccess (importId : String) (finishedAt : Datetime) : Prog PUnit :=
  update call fun t => { t with
    imports := t.imports.map fun r => if r.id = importId then r.succeed finishedAt else r }

/-- mirrors persistence/repositories.py:120-127 -/
def findSourceNotice (source externalId : String) : Prog (Option SourceNotice) :=
  find call fun t => t.sourceNotices.find? fun n => n.source == source && n.externalId == externalId

def SourceNotice.seen (latestSeenAt : Datetime) (contentHash : String) (n : SourceNotice) :
    SourceNotice :=
  { n with latestSeenAt, contentHash }

/-- The assignments to the attributes of a row found, and their flush. -/
def touchSourceNotice (existing : SourceNotice) (latestSeenAt : Datetime) (contentHash : String) :
    Prog SourceNotice :=
  update call (fun t => { t with
    sourceNotices := t.sourceNotices.map fun n =>
      if n.id = existing.id then n.seen latestSeenAt contentHash else n }) >>= fun _ =>
  pure (existing.seen latestSeenAt contentHash)

def insertCanonicalNotice : Prog String :=
  insert lib call (fun _ => none) id fun t id => { t with
    canonicalNotices := t.canonicalNotices ++ [id] }

def insertSourceNotice (row : String → SourceNotice) : Prog SourceNotice :=
  insert lib call
    (fun t => if t.sourceNotices.any fun n =>
        n.source == (row "").source && n.externalId == (row "").externalId
      then some "uq_source_notices_source_external_id" else none)
    row (fun t n => { t with sourceNotices := t.sourceNotices ++ [n] })

/-- mirrors persistence/repositories.py:129-177 -/
def getOrCreateSourceNotice (source externalId sourceUrl contentHash : String)
    (firstSeenAt latestSeenAt : Datetime) : Prog SourceNotice :=
  findSourceNotice call source externalId >>= fun
    | some existing => touchSourceNotice call existing latestSeenAt contentHash
    | none =>
      find call (fun _ => PUnit.unit) >>= fun _ =>  -- SAVEPOINT
      .savepoint
        (insertCanonicalNotice lib call >>= fun canonicalNoticeId =>
          insertSourceNotice lib call fun id =>
            { id, canonicalNoticeId, source, externalId, sourceUrl, firstSeenAt, latestSeenAt,
              contentHash })
        fun
          | .integrity constraint => some <|
              findSourceNotice call source externalId >>= fun
                | some existing => touchSourceNotice call existing latestSeenAt contentHash
                | none => .raise (.integrity constraint)
          | _ => none

/-- mirrors persistence/repositories.py:181-189 -/
def findVersionByHash (sourceNoticeId contentHash : String) : Prog (Option NoticeVersion) :=
  find call fun t => t.versions.find? fun v =>
    v.sourceNoticeId == sourceNoticeId && v.contentHash == contentHash

/-- The row of a notice's content. -/
def versionRow (manifest : SnapshotManifest) (sourceNoticeId objectKey : String)
    (notice : NormalizedNotice) (id : String) : NoticeVersion where
  id := id
  sourceNoticeId := sourceNoticeId
  createdAt := call.now
  payloadObjectKey := objectKey
  captureKind := manifest.captureKind.value
  parserVersion := notice.parserVersion
  contentHash := contentHash lib notice
  title := notice.title
  purchaser := notice.purchaser
  region := notice.region
  publishDate := notice.publishTime
  deadline := notice.deadline
  budgetMinorUnits := notice.budget.map (·.minorUnits)
  budgetCurrency := notice.budget.map (·.currency)
  summary := notice.summary
  cancellation := notice.cancellation
  rawFields := notice.rawFields

/-- mirrors persistence/repositories.py:191-228 -/
def createVersion (row : String → NoticeVersion) : Prog NoticeVersion :=
  insert lib call
    (fun t => if t.versions.any fun v =>
        v.sourceNoticeId == (row "").sourceNoticeId && v.contentHash == (row "").contentHash
      then some "uq_notice_versions_source_notice_id_content_hash" else none)
    row (fun t v => { t with versions := t.versions ++ [v] })

/-- mirrors persistence/repositories.py:232-249 -/
def createEvidence (noticeVersionId : String) (evidence : Span) : Prog PUnit :=
  insert lib call (fun _ => none)
    (fun id => { id, noticeVersionId, text := evidence.text, start := evidence.start,
                 stop := evidence.stop, spanHash := evidence.spanHash : EvidenceRow })
    (fun t row => { t with evidence := t.evidence ++ [row] }) >>= fun _ => pure ⟨⟩

/-! ## The import -/

/-- `object_store.put_bytes` -/
def putBytes (key data : String) : Prog PUnit :=
  .statement call.fault fun rows outside =>
    .ok (⟨⟩, rows, { outside with objects := outside.objects.set key data })

/-- ghost: the content is written to its source notice. -/
def noteWritten (manifest : SnapshotManifest) (notice : NormalizedNotice) : Prog PUnit := fun s =>
  (.ok ⟨⟩, { s with rows := { s.rows with
    written := s.rows.written ++ [{ source := manifest.source.value, externalId := notice.externalId,
                                    contentHash := contentHash lib notice, notice,
                                    importedAt := call.now }] } })

/-- The version of a content and its evidence, unless the content is stored. -/
def storeVersion (manifest : SnapshotManifest) (sourceNoticeId objectKey : String)
    (notice : NormalizedNotice) : Prog PUnit :=
  findVersionByHash call sourceNoticeId (contentHash lib notice) >>= fun
    | some _ => pure ⟨⟩
    | none =>
      createVersion lib call (versionRow lib call manifest sourceNoticeId objectKey notice) >>=
        fun version => .each (fun _ => createEvidence lib call version.id) 0 (buildEvidence lib notice)

/-- The notice number `k`; the clock is read twice for each.
mirrors snapshots/importer.py:381-432 -/
def importNotice (manifest : SnapshotManifest) (bundle : SnapshotBundle) (k : Nat)
    (notice : NormalizedNotice) : Prog PUnit :=
  let objectKey := payloadObjectKey bundle.bundleId (contentHash lib notice)
  putBytes call objectKey (lib.canonicalJson notice) >>= fun _ =>
  getOrCreateSourceNotice lib call manifest.source.value notice.externalId notice.sourceUrl.text
    (contentHash lib notice) (call.clock (2 * k + 1)) (call.clock (2 * k + 2)) >>= fun source =>
  noteWritten lib call manifest notice >>= fun _ =>
  storeVersion lib call manifest source.id objectKey notice

/-- mirrors audit.py:126-151, for a successful import -/
def recordAuditEvent (record : SnapshotImport) (manifest : SnapshotManifest) : Prog AuditEvent :=
  insert lib call (fun _ => none)
    (fun id => {
      id
      eventType := "snapshot_import.succeeded"
      outcome := "success"
      method := "CLI"
      path := "snapshots/import"
      snapshotImportId := record.id
      bundleId := manifest.bundleId
      status := "success"
      noticeCount := record.noticeCount
      reprocessing := record.reprocessing })
    (fun t event => { t with auditEvents := t.auditEvents ++ [event] })

/-- From the creation of the import record on.
mirrors snapshots/importer.py:275-336 -/
def importFresh (manifest : SnapshotManifest) (inspection : InspectionResult)
    (notices : List NormalizedNotice) (key : String) (existingBundle : Option SnapshotBundle) :
    Prog SnapshotImport :=
  getOrCreateBundle lib call manifest >>= fun bundle =>
  createImport lib call (fun id => {
    id
    snapshotBundleId := bundle.id
    idempotencyKey := key
    status := "running"
    startedAt := call.clock 0
    finishedAt := none
    manifestSha256 := inspection.manifestSha256
    payloadFileCount := inspection.actualHashes.length
    noticeCount := notices.length
    reprocessing := if existingBundle.isSome then "new_version" else "new" }) >>= fun record =>
  .each (importNotice lib call manifest bundle) 0 notices >>= fun _ =>
  markImportSuccess call record.id (call.clock (2 * notices.length + 1)) >>= fun _ =>
  recordAuditEvent lib call record manifest >>= fun _ =>
  pure (record.succeed (call.clock (2 * notices.length + 1)))

/-- `existing_bundle is not None and existing_bundle.manifest != manifest_payload` -/
def conflicts (existingBundle : Option SnapshotBundle) (manifest : SnapshotManifest) : Bool :=
  existingBundle.any (·.manifest != manifest.payload)

/-- The body of the unit of work.
mirrors snapshots/importer.py:254-336 -/
def importBody (manifest : SnapshotManifest) (inspection : InspectionResult)
    (notices : List NormalizedNotice) (key : String) : Prog SnapshotImport :=
  findImport call key >>= fun existing =>
  match existing.filter (·.status == "success") with
  | some record => pure record
  | none =>
    findBundleByExternalId call manifest.bundleId >>= fun existingBundle =>
    if conflicts existingBundle manifest then
      .raise (.snapshotImport {
        message := "bundle_id already exists with a different manifest; " ++
          "use a new immutable bundle_id for the revised batch" })
    else importFresh lib call manifest inspection notices key existingBundle

/-- mirrors snapshots/importer.py:236-248 -/
def parseNotices (manifest : SnapshotManifest) (bundle : Bundle) :
    Except Exn (List NormalizedNotice) :=
  match bundle.parsed with
  | .ok notices => .ok notices
  | .error (.snapshotImport e) => .error (.snapshotImport e)
  | .error (.parseDrift message) => .error (.parseDrift message)
  | .error e => .error (.snapshotImport {
      message := "bundle parser rejected the staged payload"
      errors := [{ code := "parse_failed", message := e.typeName }]
      bundleId := some manifest.bundleId
      manifestSha256 := bundle.inspection.manifestSha256 })

/-- The manifest of a bundle that passed its inspection. -/
def InspectionResult.accepted (inspection : InspectionResult) : Option SnapshotManifest :=
  if inspection.valid then inspection.manifest else none

/-- mirrors snapshots/importer.py:212-345 -/
def importVerifiedBundle (store : Store) : Except Exn SnapshotImport × Store :=
  let inspection := call.bundle.inspection
  match inspection.accepted with
  | none =>
    (.error (.snapshotImport {
      message := "bundle failed integrity inspection: [" ++
        joinWith ", " (inspection.errors.map fun e => lib.repr e.code) ++ "]"
      errors := inspection.errors
      bundleId := inspection.bundleId
      manifestSha256 := inspection.manifestSha256 }), store)
  | some manifest =>
    match parseNotices manifest call.bundle with
    | .error e => (.error e, store)
    | .ok notices =>
      let key := deriveIdempotencyKey lib manifest.bundleId notices inspection.manifestSha256
      let (result, rows, outside) := unitOfWork call.commit call.close
        (importBody lib call manifest inspection notices key) store.rows store.outside
      (result, ⟨rows, outside⟩)

/-- `except OSError` of `import_bundle`. -/
def materializeError : Exn → Exn
  | .os message => .snapshotImport {
      message := "could not materialize bundle for import: " ++ message }
  | e => e

/-- mirrors snapshots/importer.py:160-210 -/
def importBundle (store : Store) : Except Exn SnapshotImport × Store :=
  match call.bundle.overLimit with
  | some limit =>
    (.error (.snapshotImport {
      message := "snapshot bundle resource limit exceeded: " ++ limit
      errors := [{ code := "bundle_resource_limit_exceeded", message := limit ++ " exceeded" }] }),
      store)
  | none =>
    match call.staging with
    | some e => (.error (materializeError e), store)
    | none =>
      let (result, store') := importVerifiedBundle lib call store
      match call.cleanup with
      | some e => (.error (materializeError e), store')
      | none => (result.mapError materializeError, store')

end BidScope.L5
