import BidScope.L7Delivery.Rendering

/-!
# The DOCX attachment of a report

`ReportDelivery.export_report` (`delivery/docx.py`), called by the run that
persisted the report, with the report in memory, and by any number of
delivery-only retries, each with the report loaded from the database.

**Steps of a call.** `look` reads the row and asks the store for the object the
row names; `put` renders and stores; `read` reads the row again; `commit` sets
its key. Storage fails when it is asked or while it stores, with or without the
object landing; a call may end anywhere (`fail`), and an object may go missing.
`docx` is what python-docx and the zip normalisation make of a document.

**Law (`Deterministic`).** In every run, whatever function `docx` is,
* the row names an object only after one was stored under its key, and then
  always the same (`Attached`);
* all that is ever stored is one object: one key, and the same bytes.

* `attached_always`: the first holds in every run.
* `renderReport_stored_iff`: the report as it is loaded renders like the one in
  memory exactly when that is already as the database returns it.
* `deterministic_iff`: so the law holds for exactly these reports.
-/
namespace BidScope.L7

open BidScope.L1 BidScope.L2 KeyOrder

/-! ## Keys -/

/-- mirrors delivery/docx.py:58-60 -/
def exportKey (reportId : String) : String := RENDERER_VERSION ++ ":" ++ reportId

/-- `[A-Za-z0-9._-]` -/
def isSafe (c : Char) : Bool := c.isAlphanum || c == '.' || c == '_' || c == '-'

/-- mirrors delivery/docx.py:63-67 -/
def sanitizeFilename (name : String) : String :=
  let sanitized := name.toList.map fun c => if isSafe c then c else '_'
  let stripped := ((sanitized.dropWhile (· == '.')).reverse.dropWhile (· == '.')).reverse
  if stripped = [] then "report" else .ofList stripped

/-- mirrors delivery/docx.py:70-73 -/
def objectKeyOf (reportId : String) : String :=
  let safe := sanitizeFilename reportId
  "reports/" ++ safe ++ "/" ++ RENDERER_VERSION ++ "/bidscope-" ++ safe ++ ".docx"

/-! ## The row -/

inductive ExportError where
  /-- `DeliveryError` -/
  | delivery (message : String)
  /-- `DataError`: a text that is no uuid. -/
  | data
  /-- The connection, the process or the caller failed. -/
  | fault (message : String)
  deriving DecidableEq, Repr

/-- mirrors delivery/docx.py:48-55 -/
structure ExportRecord where
  exportKey : String
  objectKey : String
  reportId : String
  generatedAt : Datetime
  deriving DecidableEq, Repr

variable (lib : Lib) (pg : Pg)

/-- `session.get(ReportModel, id)` -/
def sessionGet (rows : Rows) (id : String) : Except ExportError (Option ReportRow) :=
  match pg.parseUuid id with
  | none => .error .data
  | some id => .ok (rows.reports.find? (·.id = id))

def exportRecord (row : ReportRow) (objectKey : String) : ExportRecord where
  exportKey := exportKey (pg.uuidStr row.id)
  objectKey := objectKey
  reportId := pg.uuidStr row.id
  generatedAt := ⟨row.generatedAt, 0⟩

def ReportRow.attach (id : Uuid) (key : String) (row : ReportRow) : ReportRow :=
  if row.id = id then { row with docxObjectKey := some key } else row

def Rows.attach (rows : Rows) (id : Uuid) (key : String) : Rows :=
  { rows with reports := rows.reports.map (.attach id key) }

theorem ReportRow.attach_id (id : Uuid) (key : String) (row : ReportRow) :
    (row.attach id key).id = row.id ∧ (row.attach id key).runId = row.runId := by
  unfold ReportRow.attach
  split <;> exact ⟨rfl, rfl⟩

theorem attach_reports {α : Type} (rows : Rows) (id : Uuid) (key : String) {f : ReportRow → α}
    (hf : ∀ row : ReportRow, f (row.attach id key) = f row) :
    (rows.attach id key).reports.map f = rows.reports.map f := by
  rw [Rows.attach, List.map_map]
  exact List.map_congr_left fun row _ => hf row

theorem constraints_attach {base : Base} {rows : Rows} (h : Constraints base rows) (id : Uuid)
    (key : String) : Constraints base (rows.attach id key) := by
  have hid := attach_reports rows id key fun row => (row.attach_id id key).1
  have hrun := attach_reports rows id key fun row => (row.attach_id id key).2
  have hreportId : ((rows.attach id key).reports.map (·.id)).Nodup := by
    rw [hid]
    exact h.reportId
  have hreportRunId : ((rows.attach id key).reports.map (·.runId)).Nodup := by
    rw [hrun]
    exact h.reportRunId
  have hreportRun : ∀ r ∈ (rows.attach id key).reports, r.runId ∈ base.runs := by
    intro row hrow
    obtain ⟨r, hr, rfl⟩ := List.mem_map.mp hrow
    rw [(r.attach_id id key).2]
    exact h.reportRun r hr
  have hitem : ∀ i ∈ rows.items, i.reportId ∈ (rows.attach id key).reports.map (·.id) := by
    rw [hid]
    exact h.itemReport
  have hverification : ∀ v ∈ rows.verifications, v.reportId ∈ (rows.attach id key).reports.map (·.id) := by
    rw [hid]
    exact h.verificationReport
  exact ⟨h.evidenceId, hreportId, hreportRunId, hreportRun, h.itemId, hitem, h.itemVersion,
    h.citationId, h.citationItem, h.citationEvidence, h.claimId, h.claimItem, h.verificationId,
    h.verificationClaim, hverification, h.claimCitationId, h.claimCitationClaim,
    h.claimCitationEvidence, h.claimEvidence⟩

/-- `row.docx_object_key = object_key` and the commit. -/
def Db.attach (db : Db) (id : Uuid) (key : String) : Db :=
  ⟨db.base, db.rows.attach id key, constraints_attach db.constraints id key⟩

/-! ## Exports -/

abbrev Bytes := List UInt8

inductive ExportPhase where
  | asked
  | keyed (objectKey : String)
  | written (objectKey : String)
  | attaching (objectKey : String)
  | done (result : Except ExportError ExportRecord)
  deriving DecidableEq

def ExportPhase.finished : ExportPhase → Bool
  | .done _ => true
  | _ => false

/-- `puts` lists what was ever stored. -/
structure AState where
  db : Db
  objects : Dict String Bytes := .empty
  exports : Dict Nat (PersistedReport × ExportPhase) := .empty
  puts : List (String × Bytes) := []

/-- Storing succeeds, or raises with or without the object stored. -/
inductive PutOutcome where
  | stored
  | raised (landed : Bool)
  deriving DecidableEq

inductive AEv where
  | first (i : Nat)
  | retry (i : Nat) (runId : String)
  | look (i : Nat) (storeFails : Bool)
  | put (i : Nat) (outcome : PutOutcome)
  | read (i : Nat)
  | commit (i : Nat)
  | fail (i : Nat) (message : String)
  | lose (key : String)

def storageFailed (p : PersistedReport) : ExportError :=
  .delivery ("DOCX storage failed for report " ++ p.id)

/-- mirrors delivery/docx.py:183-205 -/
def look (s : AState) (p : PersistedReport) (storeFails : Bool) : ExportPhase :=
  match sessionGet pg s.db.rows p.id with
  | .error e => .done (.error e)
  | .ok none => .done (.error (.delivery "online report is not persisted"))
  | .ok (some row) =>
    if truthy row.docxObjectKey then
      let key := orEmpty row.docxObjectKey
      if storeFails then .done (.error (storageFailed p))
      else if (s.objects.get key).isSome then .done (.ok (exportRecord pg row key))
      else .keyed key
    else .keyed (objectKeyOf p.id)

/-- mirrors delivery/docx.py:217-229, up to the commit -/
def readAgain (s : AState) (p : PersistedReport) (key : String) : ExportPhase :=
  match sessionGet pg s.db.rows p.id with
  | .error e => .done (.error e)
  | .ok none => .done (.error (.delivery "online report disappeared before DOCX attachment"))
  | .ok (some row) =>
    match row.docxObjectKey with
    | none => .attaching key
    | some attached => .done (.ok (exportRecord pg row attached))

def AState.move (s : AState) (i : Nat) (p : PersistedReport) (phase : ExportPhase) : AState :=
  { s with exports := s.exports.set i (p, phase) }

def AState.store (s : AState) (key : String) (data : Bytes) : AState :=
  { s with objects := s.objects.set key data, puts := s.puts ++ [(key, data)] }

variable (docx : List Block → Bytes)

/-- mirrors delivery/docx.py:207-215 -/
def putStep (s : AState) (i : Nat) (p : PersistedReport) (key : String) : PutOutcome → AState
  | .stored => (s.store key (docx (renderReport lib p.report))).move i p (.written key)
  | .raised landed =>
    (if landed then s.store key (docx (renderReport lib p.report)) else s).move i p
      (.done (.error (storageFailed p)))

/-- `row.docx_object_key = object_key`; the commit sets it whatever it is by then. -/
def commitStep (s : AState) (i : Nat) (p : PersistedReport) (key : String) : AState :=
  match sessionGet pg s.db.rows p.id with
  | .ok (some row) =>
    { s with db := s.db.attach row.id key }.move i p (.done (.ok (exportRecord pg row key)))
  | _ => s.move i p (.done (.error (.fault "StaleDataError")))

/-- The exports of one report; `persisted` is what the run handed over. -/
def astep (run : Uuid) (persisted : PersistedReport) (s : AState) : AEv → Option AState
  | .first i => if (s.exports.get i).isNone then some (s.move i persisted .asked) else none
  | .retry i runId =>
    if (s.exports.get i).isNone ∧ pg.parseUuid runId = some run then
      match loadOnlineReport pg s.db runId with
      | .ok (some p) => some (s.move i p .asked)
      | _ => none
    else none
  | .look i storeFails =>
    match s.exports.get i with
    | some (p, .asked) => some (s.move i p (look pg s p storeFails))
    | _ => none
  | .put i outcome =>
    match s.exports.get i with
    | some (p, .keyed key) => some (putStep lib docx s i p key outcome)
    | _ => none
  | .read i =>
    match s.exports.get i with
    | some (p, .written key) => some (s.move i p (readAgain pg s p key))
    | _ => none
  | .commit i =>
    match s.exports.get i with
    | some (p, .attaching key) => some (commitStep pg s i p key)
    | _ => none
  | .fail i message =>
    match s.exports.get i with
    | some (p, phase) =>
      if phase.finished then none else some (s.move i p (.done (.error (.fault message))))
    | none => none
  | .lose key => some { s with objects := s.objects.erase key }

/-- The report is stored in `db`, and nothing was exported. -/
def AStart (db : Db) (s : AState) : Prop := s.db = db ∧ s.exports = .empty ∧ s.puts = []

def alts (db : Db) (run : Uuid) (persisted : PersistedReport) : LTS AState AEv :=
  LTS.ofFn (AStart db) (astep lib pg docx run persisted)

/-! ## The law -/

/-- The key the row of the run has. -/
def rowKey (db : Db) (run : Uuid) : Option String := (findByRunId db.rows run).bind (·.docxObjectKey)

/-- Over the runs that begin in `db`, for this `docx`. -/
structure AttachmentLaw (db : Db) (run : Uuid) (persisted : PersistedReport) : Prop where
  /-- An object was stored under the key of the row. -/
  stored : ∀ s, (alts lib pg docx db run persisted).Reachable s →
    ∀ key, rowKey s.db run = some key → ∃ bytes, (key, bytes) ∈ s.puts
  /-- The key of the row stays. -/
  kept : ∀ s ev s', (alts lib pg docx db run persisted).Reachable s →
    astep lib pg docx run persisted s ev = some s' →
    ∀ key, rowKey s.db run = some key → rowKey s'.db run = some key
  /-- There is one object. -/
  same : ∃ object, ∀ s, (alts lib pg docx db run persisted).Reachable s → ∀ x ∈ s.puts, x = object

/-- Whatever function of a document its bytes are. -/
def Deterministic (db : Db) (run : Uuid) (persisted : PersistedReport) : Prop :=
  ∀ docx, AttachmentLaw lib pg docx db run persisted

/-- The report is written as the database returns it: its time in UTC, its
objects in the order the database lists them, its run in canonical spelling. -/
structure AsReturned (report : Report) : Prop where
  generatedAt : lib.isoformat ⟨report.generatedAt.utc, 0⟩ = lib.isoformat report.generatedAt
  queryConditions : jsonObject pg (.ofList report.queryConditions) = report.queryConditions
  knownFields : ∀ item ∈ report.items, jsonObject pg (.ofList item.knownFields) = item.knownFields
  runId : canonicalUuid pg report.runId = report.runId

/-! ## The two renderings -/

variable {lib pg docx} {report : Report} {vs : List ClaimVerification}

theorem front_stored_iff : front lib (storedReport pg vs report) = front lib report ↔
    lib.isoformat ⟨report.generatedAt.utc, 0⟩ = lib.isoformat report.generatedAt ∧
      jsonObject pg (.ofList report.queryConditions) = report.queryConditions := by
  simp [front, storedReport, fieldTable]
  exact fun _ _ => rfl

theorem front_length : (front lib (storedReport pg vs report)).length = (front lib report).length := by
  simp [front, storedReport]
  rfl

/-- The blocks of an item's known fields. -/
def knownBlocks (fields : List (String × String)) : List Block :=
  if fields = [] then [] else [.paragraph "Known fields:", fieldTable fields]

/-- The head of an item behind its known fields. -/
def headRest (item : ReportItem) : List Block :=
  (itemHead 0 { item with knownFields := [] }).tail

theorem itemHead_eq (index : Nat) (item : ReportItem) : itemHead index item =
    .heading (toString index ++ ". " ++ item.title) 2 :: (knownBlocks item.knownFields ++ headRest item) := by
  simp only [itemHead, knownBlocks, headRest, List.append_assoc, List.cons_append, List.nil_append,
    List.tail_cons, if_true]

theorem knownBlocks_inj {a b : List (String × String)} : knownBlocks a = knownBlocks b ↔ a = b := by
  cases a <;> cases b <;> simp [knownBlocks, fieldTable]

theorem knownBlocks_length {a b : List (String × String)} (h : a = [] ↔ b = []) :
    (knownBlocks a).length = (knownBlocks b).length := by
  cases a <;> cases b <;> simp [knownBlocks] at h ⊢

theorem jsonObject_eq_nil {fields : List (String × String)} :
    jsonObject pg (.ofList fields) = [] ↔ fields = [] := by
  constructor
  · intro h
    have hsame := sameObject_jsonObject pg fields
    rw [h] at hsame
    cases fields with
    | nil => rfl
    | cons f fs =>
      have hget := hsame f.1
      rw [Dict.get_ofList, Dict.get_ofList, List.filter_cons_of_pos (by simp)] at hget
      simp [List.getLast?_cons] at hget
  · rintro rfl
    exact (pg.jsonPerm []).eq_nil

variable {verifications : Nat → Option ClaimVerification} {item : ReportItem} {index : Nat}

theorem claimBlocks_congr {a b : List ReportClaim} (h : a.map (·.text) = b.map (·.text)) :
    claimBlocks a = claimBlocks b := by
  have hlines := congrArg (List.map fun text => Block.paragraph ("  - " ++ text)) h
  rw [List.map_map, List.map_map] at hlines
  have hnil : a = [] ↔ b = [] := by
    rw [← List.map_eq_nil_iff (f := (·.text)), h, List.map_eq_nil_iff]
  unfold claimBlocks
  by_cases ha : a = []
  · rw [if_pos ha, if_pos (hnil.mp ha)]
  · rw [if_neg ha, if_neg (mt hnil.mpr ha)]
    exact congrArg _ hlines

theorem claimBlocks_stored : claimBlocks (storedItem pg verifications item).claims = claimBlocks item.claims := by
  refine claimBlocks_congr ?_
  have htext : (fun claim : ReportClaim => claim.text) ∘ (fun x : ReportClaim × Nat =>
      storedClaim (verifications x.2) x.1) = (·.text) ∘ Prod.fst := rfl
  rw [storedItem, List.map_map]
  exact (congrArg (item.claims.zipIdx.map ·) htext).trans (by rw [← List.map_map, List.zipIdx_map_fst])

/-- An item as it is loaded has the sections of the one in memory exactly when
its known fields are listed alike. -/
theorem itemHead_stored_iff : itemHead index (storedItem pg verifications item) = itemHead index item ↔
    jsonObject pg (.ofList item.knownFields) = item.knownFields := by
  have hrest : headRest (storedItem pg verifications item) = headRest item := rfl
  rw [itemHead_eq, itemHead_eq, hrest, List.cons.injEq, List.append_cancel_right_eq, knownBlocks_inj]
  exact and_iff_right rfl

theorem itemHead_length :
    (itemHead index (storedItem pg verifications item)).length = (itemHead index item).length := by
  have hrest : headRest (storedItem pg verifications item) = headRest item := rfl
  rw [itemHead_eq, itemHead_eq, hrest, List.length_cons, List.length_cons, List.length_append,
    List.length_append, storedItem, knownBlocks_length jsonObject_eq_nil]

theorem itemSections_stored (pg : Pg) : ∀ (items : List ReportItem) (f : ReportItem → Nat → Option ClaimVerification)
    (index : Nat),
    (itemSections index (items.map fun item => storedItem pg (f item) item)).length =
        (itemSections index items).length ∧
      (itemSections index (items.map fun item => storedItem pg (f item) item) = itemSections index items ↔
        ∀ item ∈ items, jsonObject pg (.ofList item.knownFields) = item.knownFields)
  | [], _, _ => ⟨rfl, iff_of_true rfl nofun⟩
  | item :: items, f, index => by
    obtain ⟨hlength, hiff⟩ := itemSections_stored pg items f (index + 1)
    have hhead : (itemHead index (storedItem pg (f item) item)).length = (itemHead index item).length :=
      itemHead_length
    constructor
    · simp only [List.map_cons, itemSections, List.length_append, hhead, hlength, claimBlocks_stored]
    · rw [List.map_cons, itemSections, itemSections, List.forall_mem_cons, ← hiff, claimBlocks_stored,
        List.append_assoc, List.append_assoc]
      constructor
      · intro h
        obtain ⟨hitem, hrest⟩ := List.append_inj h hhead
        exact ⟨itemHead_stored_iff.mp hitem, (List.append_cancel_left_eq ..).mp hrest⟩
      · rintro ⟨hitem, hrest⟩
        rw [itemHead_stored_iff.mpr hitem, hrest]

/-- **The loaded report renders like the one in memory exactly when that is
already as the database returns it.** -/
theorem renderReport_stored_iff : renderReport lib (storedReport pg vs report) = renderReport lib report ↔
    AsReturned lib pg report := by
  obtain ⟨hlength, hitems⟩ := itemSections_stored pg report.items
    (fun item => indexed (indexVerifications vs) item.noticeId) 1
  have happendix : appendix (storedReport pg vs report) = appendix report ↔
      canonicalUuid pg report.runId = report.runId := by
    simp [appendix, storedReport]
  unfold renderReport
  rw [List.append_assoc, List.append_assoc]
  constructor
  · intro h
    obtain ⟨hfront, h⟩ := List.append_inj h front_length
    obtain ⟨hsections, hend⟩ := List.append_inj h hlength
    obtain ⟨hgenerated, hconditions⟩ := front_stored_iff.mp hfront
    exact ⟨hgenerated, hconditions, hitems.mp hsections, happendix.mp hend⟩
  · rintro ⟨hgenerated, hconditions, hknown, hrun⟩
    have hsections : itemSections 1 (storedReport pg vs report).items = itemSections 1 report.items :=
      hitems.mpr hknown
    rw [front_stored_iff.mpr ⟨hgenerated, hconditions⟩, hsections, happendix.mpr hrun]

/-! ## A row with its key -/

theorem find_attach (rows : Rows) (id : Uuid) (key : String) {p : ReportRow → Bool}
    (hp : ∀ row : ReportRow, p (row.attach id key) = p row) :
    (rows.attach id key).reports.find? p = (rows.reports.find? p).map (.attach id key) := by
  have hcomp : p ∘ ReportRow.attach id key = p := funext hp
  rw [Rows.attach, List.find?_map, hcomp]

theorem findByRunId_attach (rows : Rows) (id : Uuid) (key : String) (run : Uuid) :
    findByRunId (rows.attach id key) run = (findByRunId rows run).map (.attach id key) :=
  find_attach rows id key fun row => by rw [(row.attach_id id key).2]

theorem sessionGet_attach (rows : Rows) (id : Uuid) (key text : String) :
    sessionGet pg (rows.attach id key) text =
      (sessionGet pg rows text).map fun row => row.map (.attach id key) := by
  unfold sessionGet
  cases pg.parseUuid text with
  | none => rfl
  | some u =>
    have hfind := find_attach rows id key (p := (·.id = u)) fun row => by rw [(row.attach_id id key).1]
    simp only [hfind]
    rfl

/-- A row is read back as before but for its key. -/
theorem project_attach {db : Db} {row : ReportRow} {id : Uuid} {key : String} {p : PersistedReport}
    (h : project pg db row = .ok p) (hid : row.id = id) :
    project pg (db.attach id key) (row.attach id key) = .ok { p with docxObjectKey := some key } := by
  have hitems : projectItems pg (db.attach id key) row.id = projectItems pg db row.id := rfl
  rw [ReportRow.attach, if_pos hid]
  unfold project at h ⊢
  rw [hitems]
  cases hproject : projectItems pg db row.id with
  | error e => simp [hproject] at h
  | ok items =>
    simp only [hproject, Except.ok.injEq] at h
    rw [← h]

theorem attach_self (row : ReportRow) (key : String) :
    row.attach row.id key = { row with docxObjectKey := some key } := if_pos rfl

theorem attach_attach (db : Db) (id : Uuid) (key : String) :
    (db.attach id key).attach id key = db.attach id key := by
  have hrow : ReportRow.attach id key ∘ ReportRow.attach id key = ReportRow.attach id key := by
    funext row
    unfold ReportRow.attach
    by_cases h : row.id = id <;> simp [h]
  have hrows : (db.rows.attach id key).attach id key = db.rows.attach id key := by
    rw [Rows.attach, Rows.attach, List.map_map, hrow]
  simp only [Db.attach, hrows]

/-! ## The invariant -/

/-- The report of the run as it is stored before any export, and loaded. -/
structure Exportable (pg : Pg) (db : Db) (run : Uuid) (loaded : Report) (row : ReportRow) : Prop where
  found : findByRunId db.rows run = some row
  named : pg.parseUuid (pg.uuidStr row.id) = some row.id
  unset : row.docxObjectKey = none
  projected : project pg db row = .ok ⟨pg.uuidStr row.id, loaded, none⟩

/-- What a call may have reached: no key but `key`, and none to set before an
object is stored. -/
def PhaseOk (key : String) (puts : List (String × Bytes)) : ExportPhase → Prop
  | .asked | .done _ => True
  | .keyed k => k = key
  | .written k | .attaching k => k = key ∧ ∃ bytes, (key, bytes) ∈ puts

structure AInv (lib : Lib) (docx : List Block → Bytes) (id key : String) (rid : Uuid) (db : Db)
    (report loaded : Report) (s : AState) : Prop where
  db : s.db = db ∨ s.db = db.attach rid key ∧ ∃ bytes, (key, bytes) ∈ s.puts
  exports : ∀ i p phase, s.exports.get i = some (p, phase) →
    p.id = id ∧ (p.report = report ∨ p.report = loaded) ∧ PhaseOk key s.puts phase
  puts : ∀ x ∈ s.puts, x.1 = key ∧ ∃ r, (r = report ∨ r = loaded) ∧ x.2 = docx (renderReport lib r)

variable {db : Db} {run rid : Uuid} {id key : String} {loaded : Report} {row : ReportRow} {s s' : AState}
  {i : Nat} {p : PersistedReport}

theorem PhaseOk.mono {puts more : List (String × Bytes)} {phase : ExportPhase}
    (h : PhaseOk key puts phase) : PhaseOk key (puts ++ more) phase := by
  cases phase with
  | asked | done => trivial
  | keyed => exact h
  | written | attaching =>
    obtain ⟨hkey, bytes, hmem⟩ := h
    exact ⟨hkey, bytes, List.mem_append_left _ hmem⟩

namespace AInv

variable (hI : AInv lib docx id key rid db report loaded s)

include hI

theorem move {phase : ExportPhase} (hid : p.id = id) (hreport : p.report = report ∨ p.report = loaded)
    (hphase : PhaseOk key s.puts phase) :
    AInv lib docx id key rid db report loaded (s.move i p phase) where
  db := hI.db
  exports := by
    intro j q ph h
    rw [AState.move, Dict.get_set] at h
    split at h
    · cases h
      exact ⟨hid, hreport, hphase⟩
    · exact hI.exports j q ph h
  puts := hI.puts

theorem store (hreport : p.report = report ∨ p.report = loaded) :
    AInv lib docx id key rid db report loaded (s.store key (docx (renderReport lib p.report))) where
  db := hI.db.imp_right fun ⟨hdb, bytes, hmem⟩ => ⟨hdb, bytes, List.mem_append_left _ hmem⟩
  exports j q ph h := by
    obtain ⟨hid, hq, hphase⟩ := hI.exports j q ph h
    exact ⟨hid, hq, hphase.mono⟩
  puts x hx := by
    rcases List.mem_append.mp hx with hx | hx
    · exact hI.puts x hx
    · rw [List.mem_singleton.mp hx]
      exact ⟨rfl, p.report, hreport, rfl⟩

theorem attach (hmem : ∃ bytes, (key, bytes) ∈ s.puts) :
    AInv lib docx id key rid db report loaded { s with db := s.db.attach rid key } where
  db := by
    refine Or.inr ⟨?_, hmem⟩
    rcases hI.db with hdb | ⟨hdb, -⟩
    · exact congrArg (·.attach rid key) hdb
    · rw [hdb]
      exact attach_attach db rid key
  exports := hI.exports
  puts := hI.puts

end AInv

/-! ## Steps -/

/-- The invariant for the row of the run. -/
abbrev RowInv (lib : Lib) (pg : Pg) (docx : List Block → Bytes) (db : Db) (row : ReportRow)
    (report loaded : Report) (s : AState) : Prop :=
  AInv lib docx (pg.uuidStr row.id) (objectKeyOf (pg.uuidStr row.id)) row.id db report loaded s

/-- The calls read the row with no key, or with the one an object is stored under. -/
theorem session_row (hE : Exportable pg db run loaded row)
    (hI : RowInv lib pg docx db row report loaded s) :
    ∃ r, sessionGet pg s.db.rows (pg.uuidStr row.id) = .ok (some r) ∧ r.id = row.id ∧
      (r.docxObjectKey = none ∨ r.docxObjectKey = some (objectKeyOf (pg.uuidStr row.id)) ∧
        ∃ bytes, (objectKeyOf (pg.uuidStr row.id), bytes) ∈ s.puts) := by
  have hrow : sessionGet pg db.rows (pg.uuidStr row.id) = .ok (some row) := by
    unfold sessionGet
    rw [hE.named]
    exact congrArg _ (Joins.first_unique db.constraints.reportId (mem_findByRunId hE.found).1)
  rcases hI.db with hdb | ⟨hdb, hmem⟩
  · exact ⟨row, by rw [hdb, hrow], rfl, Or.inl hE.unset⟩
  · refine ⟨row.attach row.id (objectKeyOf (pg.uuidStr row.id)), ?_, (row.attach_id ..).1, Or.inr ⟨?_, hmem⟩⟩
    · rw [hdb]
      exact (sessionGet_attach ..).trans (by rw [hrow]; rfl)
    · rw [attach_self]

theorem load_ok (hE : Exportable pg db run loaded row)
    (hI : RowInv lib pg docx db row report loaded s) {runId : String} (hrun : pg.parseUuid runId = some run)
    (hload : loadOnlineReport pg s.db runId = .ok (some p)) :
    p.id = pg.uuidStr row.id ∧ p.report = loaded := by
  unfold loadOnlineReport at hload
  rw [hrun] at hload
  rcases hI.db with hdb | ⟨hdb, -⟩
  · rw [hdb] at hload
    simp only [hE.found, hE.projected, Except.ok.injEq, Option.some.injEq] at hload
    rw [← hload]
    exact ⟨rfl, rfl⟩
  · have hfound : findByRunId s.db.rows run = some (row.attach row.id (objectKeyOf (pg.uuidStr row.id))) := by
      rw [hdb]
      exact (findByRunId_attach ..).trans (by rw [hE.found]; rfl)
    simp only [hfound] at hload
    rw [hdb, project_attach hE.projected rfl] at hload
    simp only [Except.ok.injEq, Option.some.injEq] at hload
    rw [← hload]
    exact ⟨rfl, rfl⟩

theorem look_ok (hE : Exportable pg db run loaded row) (hI : RowInv lib pg docx db row report loaded s)
    (hid : p.id = pg.uuidStr row.id) (storeFails : Bool) :
    PhaseOk (objectKeyOf (pg.uuidStr row.id)) s.puts (look pg s p storeFails) := by
  obtain ⟨r, hget, -, hkey⟩ := session_row hE hI
  unfold look
  rw [hid, hget]
  rcases hkey with hkey | ⟨hkey, -⟩
  · simp only [hkey, truthy, orEmpty]
    exact rfl
  · simp only [hkey, orEmpty]
    repeat' split
    all_goals trivial

theorem readAgain_ok (hE : Exportable pg db run loaded row) (hI : RowInv lib pg docx db row report loaded s)
    (hid : p.id = pg.uuidStr row.id)
    (hmem : ∃ bytes, (objectKeyOf (pg.uuidStr row.id), bytes) ∈ s.puts) :
    PhaseOk (objectKeyOf (pg.uuidStr row.id)) s.puts
      (readAgain pg s p (objectKeyOf (pg.uuidStr row.id))) := by
  obtain ⟨r, hget, -, hkey⟩ := session_row hE hI
  unfold readAgain
  rw [hid, hget]
  rcases hkey with hkey | ⟨hkey, -⟩
  · simp only [hkey]
    exact ⟨rfl, hmem⟩
  · simp only [hkey]
    trivial

theorem ainv_put (hI : RowInv lib pg docx db row report loaded s) (hid : p.id = pg.uuidStr row.id)
    (hreport : p.report = report ∨ p.report = loaded) (outcome : PutOutcome) :
    RowInv lib pg docx db row report loaded
      (putStep lib docx s i p (objectKeyOf (pg.uuidStr row.id)) outcome) := by
  cases outcome with
  | stored =>
    refine (hI.store hreport).move hid hreport ⟨rfl, docx (renderReport lib p.report), ?_⟩
    exact List.mem_append_right _ (List.mem_singleton_self _)
  | raised landed =>
    cases landed with
    | true => exact (hI.store hreport).move hid hreport trivial
    | false => exact hI.move hid hreport trivial

theorem ainv_commit (hE : Exportable pg db run loaded row) (hI : RowInv lib pg docx db row report loaded s)
    (hid : p.id = pg.uuidStr row.id) (hreport : p.report = report ∨ p.report = loaded)
    (hmem : ∃ bytes, (objectKeyOf (pg.uuidStr row.id), bytes) ∈ s.puts) :
    RowInv lib pg docx db row report loaded (commitStep pg s i p (objectKeyOf (pg.uuidStr row.id))) := by
  obtain ⟨r, hget, hr, -⟩ := session_row hE hI
  unfold commitStep
  simp only [hid, hget, hr]
  exact (hI.attach hmem).move hid hreport trivial

theorem ainv_step {persisted : PersistedReport} {ev : AEv} (hE : Exportable pg db run loaded row)
    (hpersisted : persisted = ⟨pg.uuidStr row.id, report, none⟩)
    (hI : RowInv lib pg docx db row report loaded s)
    (h : astep lib pg docx run persisted s ev = some s') : RowInv lib pg docx db row report loaded s' := by
  cases ev with
  | first i =>
    simp only [astep] at h
    split at h
    · cases h
      exact hI.move (by rw [hpersisted]) (Or.inl (by rw [hpersisted])) trivial
    · cases h
  | retry i runId =>
    simp only [astep] at h
    split at h
    · next hguard =>
      split at h
      · next p hload =>
        cases h
        obtain ⟨hid, hloaded⟩ := load_ok hE hI hguard.2 hload
        exact hI.move hid (Or.inr hloaded) trivial
      · cases h
    · cases h
  | look i storeFails =>
    simp only [astep] at h
    split at h
    · next p hget =>
      cases h
      obtain ⟨hid, hreport, -⟩ := hI.exports i p _ hget
      exact hI.move hid hreport (look_ok hE hI hid storeFails)
    · cases h
  | put i outcome =>
    simp only [astep] at h
    split at h
    · next p key hget =>
      cases h
      obtain ⟨hid, hreport, rfl⟩ := hI.exports i p _ hget
      exact ainv_put hI hid hreport outcome
    · cases h
  | read i =>
    simp only [astep] at h
    split at h
    · next p key hget =>
      cases h
      obtain ⟨hid, hreport, rfl, hmem⟩ := hI.exports i p _ hget
      exact hI.move hid hreport (readAgain_ok hE hI hid hmem)
    · cases h
  | commit i =>
    simp only [astep] at h
    split at h
    · next p key hget =>
      cases h
      obtain ⟨hid, hreport, rfl, hmem⟩ := hI.exports i p _ hget
      exact ainv_commit hE hI hid hreport hmem
    · cases h
  | fail i message =>
    simp only [astep] at h
    split at h
    · next p phase hget =>
      split at h
      · cases h
      · cases h
        obtain ⟨hid, hreport, -⟩ := hI.exports i p _ hget
        exact hI.move hid hreport trivial
    · cases h
  | lose key =>
    obtain rfl := Option.some.inj h
    exact ⟨hI.db, hI.exports, hI.puts⟩

theorem ainv_inductive {persisted : PersistedReport} (hE : Exportable pg db run loaded row)
    (hpersisted : persisted = ⟨pg.uuidStr row.id, report, none⟩) :
    (alts lib pg docx db run persisted).Inductive (RowInv lib pg docx db row report loaded) where
  init s h := by
    obtain ⟨hdb, hexports, hputs⟩ := h
    refine ⟨Or.inl hdb, fun i p phase hget => ?_, fun x hx => ?_⟩
    · rw [hexports] at hget
      cases hget
    · rw [hputs] at hx
      cases hx
  step s ev s' hI h := ainv_step hE hpersisted hI h

/-- The key of the row in a state of the invariant. -/
theorem rowKey_cases (hE : Exportable pg db run loaded row) (hI : RowInv lib pg docx db row report loaded s) :
    (s.db = db ∧ rowKey s.db run = none) ∨ (s.db = db.attach row.id (objectKeyOf (pg.uuidStr row.id)) ∧
      rowKey s.db run = some (objectKeyOf (pg.uuidStr row.id)) ∧
        ∃ bytes, (objectKeyOf (pg.uuidStr row.id), bytes) ∈ s.puts) := by
  rcases hI.db with hdb | ⟨hdb, hmem⟩
  · refine Or.inl ⟨hdb, ?_⟩
    rw [rowKey, hdb, hE.found, Option.bind_some, hE.unset]
  · refine Or.inr ⟨hdb, ?_, hmem⟩
    have hfound := findByRunId_attach db.rows row.id (objectKeyOf (pg.uuidStr row.id)) run
    rw [hE.found, Option.map_some, attach_self] at hfound
    rw [rowKey, hdb]
    exact congrArg (·.bind (·.docxObjectKey)) hfound

theorem putStep_db (s : AState) (i : Nat) (p : PersistedReport) (key : String) (outcome : PutOutcome) :
    (putStep lib docx s i p key outcome).db = s.db := by
  rcases outcome with _ | landed
  · rfl
  · cases landed <;> rfl

/-- A step leaves the database alone or attaches the key. -/
theorem db_step {persisted : PersistedReport} {ev : AEv} (hE : Exportable pg db run loaded row)
    (hI : RowInv lib pg docx db row report loaded s)
    (h : astep lib pg docx run persisted s ev = some s') :
    s'.db = s.db ∨ s'.db = s.db.attach row.id (objectKeyOf (pg.uuidStr row.id)) := by
  cases ev with
  | commit i =>
    simp only [astep] at h
    split at h
    · next p key hget =>
      cases h
      obtain ⟨hid, -, rfl, -⟩ := hI.exports i p _ hget
      obtain ⟨r, hget, hr, -⟩ := session_row hE hI
      right
      unfold commitStep
      simp only [hid, hget, hr]
      rfl
    · cases h
  | put i outcome =>
    simp only [astep] at h
    split at h
    · cases h
      exact Or.inl (putStep_db ..)
    · cases h
  | first | retry | look | read | fail | lose =>
    left
    simp only [astep] at h
    repeat' split at h
    all_goals cases h
    all_goals rfl

/-- The row of the report never names anything but what was stored, and its key stays. -/
theorem attached_always {persisted : PersistedReport} (hE : Exportable pg db run loaded row)
    (hpersisted : persisted = ⟨pg.uuidStr row.id, report, none⟩)
    (hs : (alts lib pg docx db run persisted).Reachable s) (hkey : rowKey s.db run = some key) :
    (∃ bytes, (key, bytes) ∈ s.puts) ∧ ∀ ev s', astep lib pg docx run persisted s ev = some s' →
      rowKey s'.db run = some key := by
  have hI := (ainv_inductive hE hpersisted).reachable s hs
  rcases rowKey_cases hE hI with ⟨-, hnone⟩ | ⟨hdb, hsome, hmem⟩
  · rw [hkey] at hnone
    cases hnone
  · rw [hkey, Option.some.injEq] at hsome
    rw [← hsome] at hmem
    refine ⟨hmem, fun ev s' hstep => ?_⟩
    have hdb' : s'.db = s.db := by
      rcases db_step hE hI hstep with h | h
      · exact h
      · rw [h, hdb]
        exact attach_attach ..
    rw [hdb', hkey]

/-! ## The law -/

/-- What a persisted report is before any export. -/
theorem persist_exportable {ev : EvidenceById} {draw : Nat → Uuid} {first : PersistedReport}
    (hrun : pg.parseUuid report.runId = some run) (hnew : findByRunId db.rows run = none)
    (hid : pg.parseUuid (pg.uuidStr (draw 0)) = some (draw 0))
    (hok : (persistOnlineReport pg ev draw db report vs).1 = .ok first) :
    ∃ row, Exportable pg (persistOnlineReport pg ev draw db report vs).2 run (storedReport pg vs report) row ∧
      first = ⟨pg.uuidStr row.id, report, none⟩ := by
  unfold persistOnlineReport at hok ⊢
  simp only [hrun, hnew] at hok ⊢
  cases hwrite : writeReport pg ⟨draw, fun _ => db.base.evidence⟩ ev run report vs with
  | error e => simp [hwrite] at hok
  | ok t =>
    simp only [hwrite] at hok ⊢
    cases hcommit : commit db t with
    | error e => simp [hcommit, afterIntegrityError, hnew] at hok
    | ok db' =>
      simp only [hcommit, Except.ok.injEq] at hok ⊢
      obtain ⟨hrow, hwritten, -⟩ := writeReport_written hwrite
      have hs : Stored pg ⟨draw, fun _ => db.base.evidence⟩ db db' run report vs t :=
        ⟨hcommit, hrow, hwritten, fun _ _ he => he⟩
      have hdrawn : t.report.id = draw 0 := by
        unfold writeReport at hwrite
        dsimp only at hwrite
        split at hwrite
        · cases hwrite
        · rw [← Except.ok.inj hwrite]
          rfl
      have hunset : t.report.docxObjectKey = none := by
        rw [hrow]
        rfl
      have hmem : t.report ∈ db'.rows.reports := by
        rw [(commit_ok hcommit).2]
        exact List.mem_append_right _ (List.mem_singleton_self _)
      have hrunId : t.report.runId = run := by
        rw [hrow]
        rfl
      refine ⟨t.report, ⟨hrunId ▸ findByRunId_mem hmem, by rw [hdrawn, hid], hunset, hs.project_stored hrun⟩, ?_⟩
      rw [← hok, hunset]

/-- An export of a report runs to where its bytes are stored. -/
theorem put_reachable (lib : Lib) (docx : List Block → Bytes) (persisted p : PersistedReport) (ev : AEv)
    (hE : Exportable pg db run loaded row)
    (hid : p.id = pg.uuidStr row.id)
    (hbegin : astep lib pg docx run persisted { db } ev = some (({ db } : AState).move 0 p .asked)) :
    ∃ s, (alts lib pg docx db run persisted).Reachable s ∧
      (objectKeyOf (pg.uuidStr row.id), docx (renderReport lib p.report)) ∈ s.puts := by
  have hstart : AStart db { db } := ⟨rfl, rfl, rfl⟩
  have hasked := (LTS.Reachable.init (M := alts lib pg docx db run persisted) hstart).step hbegin
  have hrow : sessionGet pg db.rows p.id = .ok (some row) := by
    unfold sessionGet
    rw [hid, hE.named]
    exact congrArg _ (Joins.first_unique db.constraints.reportId (mem_findByRunId hE.found).1)
  have hlook : look pg (({ db } : AState).move 0 p .asked) p false = .keyed (objectKeyOf p.id) := by
    unfold look
    have hget : sessionGet pg (({ db } : AState).move 0 p .asked).db.rows p.id = .ok (some row) := hrow
    rw [hget]
    simp only [hE.unset, truthy, orEmpty]
    rfl
  have hget : ∀ (s : AState) phase, (s.move 0 p phase).exports.get 0 = some (p, phase) :=
    fun s phase => Dict.get_set_self ..
  have hlooked : (alts lib pg docx db run persisted).step (({ db } : AState).move 0 p .asked) (.look 0 false)
      ((({ db } : AState).move 0 p .asked).move 0 p (.keyed (objectKeyOf p.id))) := by
    simp only [alts, LTS.ofFn, astep, hget, hlook]
  have hput : (alts lib pg docx db run persisted).step
      ((({ db } : AState).move 0 p .asked).move 0 p (.keyed (objectKeyOf p.id))) (.put 0 .stored)
      (putStep lib docx ((({ db } : AState).move 0 p .asked).move 0 p (.keyed (objectKeyOf p.id))) 0 p
        (objectKeyOf p.id) .stored) := by
    simp only [alts, LTS.ofFn, astep, hget]
  refine ⟨_, (hasked.step hlooked).step hput, ?_⟩
  rw [← hid]
  exact List.mem_append_right _ (List.mem_singleton_self _)

section Persisted

variable {evidenceByHash : EvidenceById} {draw : Nat → Uuid} {persisted : PersistedReport}

theorem asReturned_of_deterministic (hrun : pg.parseUuid report.runId = some run)
    (hnew : findByRunId db.rows run = none) (hid : pg.parseUuid (pg.uuidStr (draw 0)) = some (draw 0))
    (hok : (persistOnlineReport pg evidenceByHash draw db report vs).1 = .ok persisted)
    (h : Deterministic lib pg (persistOnlineReport pg evidenceByHash draw db report vs).2 run persisted) :
    AsReturned lib pg report := by
  obtain ⟨row, hE, hpersisted⟩ := persist_exportable hrun hnew hid hok
  -- bytes that tell the document of the report in memory from any other
  let docx : List Block → Bytes := fun blocks => if blocks = renderReport lib report then [0] else [1]
  obtain ⟨object, hsame⟩ := (h docx).same
  have hload : loadOnlineReport pg (persistOnlineReport pg evidenceByHash draw db report vs).2 report.runId =
      .ok (some ⟨pg.uuidStr row.id, storedReport pg vs report, none⟩) := by
    obtain ⟨hmem, hrowRun⟩ := mem_findByRunId hE.found
    exact load_stored hmem (hrowRun ▸ hrun) hE.projected
  obtain ⟨s, hs, hput⟩ := put_reachable lib docx persisted persisted (.first 0) hE (by rw [hpersisted]) rfl
  obtain ⟨t, ht, hput'⟩ := put_reachable lib docx persisted
    ⟨pg.uuidStr row.id, storedReport pg vs report, none⟩ (.retry 0 report.runId) hE rfl
    (by simp only [astep, hload, hrun]; rfl)
  have hbytes : docx (renderReport lib report) = docx (renderReport lib (storedReport pg vs report)) := by
    have hobject := (hsame s hs _ hput).trans (hsame t ht _ hput').symm
    rw [hpersisted] at hobject
    exact (Prod.mk.inj hobject).2
  have hrender : renderReport lib (storedReport pg vs report) = renderReport lib report := by
    simp only [docx, if_true] at hbytes
    split at hbytes
    · next h => exact h
    · cases hbytes
  exact renderReport_stored_iff.mp hrender

theorem deterministic_of_asReturned (hrun : pg.parseUuid report.runId = some run)
    (hnew : findByRunId db.rows run = none) (hid : pg.parseUuid (pg.uuidStr (draw 0)) = some (draw 0))
    (hok : (persistOnlineReport pg evidenceByHash draw db report vs).1 = .ok persisted)
    (h : AsReturned lib pg report) :
    Deterministic lib pg (persistOnlineReport pg evidenceByHash draw db report vs).2 run persisted := by
  intro docx
  obtain ⟨row, hE, hpersisted⟩ := persist_exportable hrun hnew hid hok
  have hrender : renderReport lib (storedReport pg vs report) = renderReport lib report :=
    renderReport_stored_iff.mpr h
  refine ⟨fun s hs key hkey => (attached_always hE hpersisted hs hkey).1,
    fun s ev s' hs hstep key hkey => (attached_always hE hpersisted hs hkey).2 ev s' hstep, ?_⟩
  refine ⟨(objectKeyOf (pg.uuidStr row.id), docx (renderReport lib report)), fun s hs x hx => ?_⟩
  obtain ⟨hkey, r, hr, hbytes⟩ := ((ainv_inductive hE hpersisted).reachable s hs).puts x hx
  rcases hr with rfl | rfl
  · exact Prod.ext hkey hbytes
  · rw [hrender] at hbytes
    exact Prod.ext hkey hbytes

end Persisted

/-- **The attachment is deterministic exactly when the report is written as the
database returns it.** -/
theorem deterministic_iff (lib : Lib) (pg : Pg) (evidenceByHash : EvidenceById) (draw : Nat → Uuid) (db : Db)
    (report : Report) (vs : List ClaimVerification) (run : Uuid) (persisted : PersistedReport)
    (hrun : pg.parseUuid report.runId = some run) (hnew : findByRunId db.rows run = none)
    (hid : pg.parseUuid (pg.uuidStr (draw 0)) = some (draw 0))
    (hok : (persistOnlineReport pg evidenceByHash draw db report vs).1 = .ok persisted) :
    Deterministic lib pg (persistOnlineReport pg evidenceByHash draw db report vs).2 run persisted ↔
      AsReturned lib pg report :=
  ⟨asReturned_of_deterministic hrun hnew hid hok, deterministic_of_asReturned hrun hnew hid hok⟩

/-! ## Keys by length, then bytes -/

/-- A key's UTF-8 bytes: how many, and as one number. -/
def jsonbKey (key : String) : Nat ×ₗ Nat :=
  let bytes := key.toList.flatMap String.utf8EncodeChar
  toLex (bytes.length, bytes.foldl (fun n b => 256 * n + b.toNat) 0)

def jsonbKeys (es : List (String × String)) : List (String × String) := orderBy (fun e => jsonbKey e.1) es

theorem jsonbKeys_perm (es : List (String × String)) : (jsonbKeys es).Perm es := orderBy_perm _ _

def jsonbPg : Pg where
  parseUuid := hexPg.parseUuid
  uuidStr := hexPg.uuidStr
  jsonKeys := jsonbKeys
  jsonPerm := jsonbKeys_perm

/-- A report of run 10. -/
def reportOn (queryConditions : List (String × String)) : Report where
  runId := "00000000-0000-0000-0000-00000000000a"
  generatedAt := ⟨0, 0⟩
  queryConditions := queryConditions

def persistedOn (queryConditions : List (String × String)) : PersistedReport :=
  ⟨"00000000-0000-0000-0000-000000000064", reportOn queryConditions, none⟩

/-- What is stored of it. -/
def dbOn (queryConditions : List (String × String)) : Db :=
  (persistOnlineReport jsonbPg .empty (100 + ·) demoDb (reportOn queryConditions) []).2

def topicsAndRegions : List (String × String) := [("topics", "服务器"), ("regions", "四川")]

/-- Topics and regions stand as the database lists them. -/
theorem topics_deterministic :
    Deterministic asciiLib jsonbPg (dbOn topicsAndRegions) 10 (persistedOn topicsAndRegions) :=
  (deterministic_iff asciiLib jsonbPg .empty (100 + ·) demoDb (reportOn topicsAndRegions) [] 10 _
    (by decide +kernel) rfl (by decide +kernel) (by decide +kernel)).mpr
      ⟨rfl, by decide +kernel, nofun, by decide +kernel⟩

def datedConditions : List (String × String) :=
  topicsAndRegions ++ [("published_from", "2026-07-01"), ("min_budget", "CNY 100")]

/-- A first date stands before the budget, and comes back behind it: the run and a
retry store different bytes. -/
theorem dated_differs :
    (persistOnlineReport jsonbPg .empty (100 + ·) demoDb (reportOn datedConditions) []).1 =
      .ok (persistedOn datedConditions) ∧
    ¬ Deterministic asciiLib jsonbPg (dbOn datedConditions) 10 (persistedOn datedConditions) := by
  have hok : (persistOnlineReport jsonbPg .empty (100 + ·) demoDb (reportOn datedConditions) []).1 =
      .ok (persistedOn datedConditions) := by decide +kernel
  refine ⟨hok, fun h => ?_⟩
  have hreturned := asReturned_of_deterministic (by decide +kernel) rfl (by decide +kernel) hok h
  exact absurd hreturned.queryConditions (by decide +kernel)

end BidScope.L7
