import BidScope.Core.Joins
import BidScope.L2Graph.Nodes

/-!
# Report rows

The six tables a report is flattened into (`persistence/models.py`), and
`ReportPersistence._project` (`delivery/reports.py`), which rebuilds it by
joins through the evidence rows.

**PostgreSQL.** `Pg` is how the database reads and writes what is not a plain
value: the text of a uuid, and a JSONB object, which is a map whose keys it
lists in an order of its own. `Constraints` are the keys and references of the
schema; a `Db` carries them. Texts are without the character U+0000, which no
text column or JSONB value takes.

* `project_grown`: reports and evidence stored later do not change how a stored
  report is read.
-/
namespace BidScope.L7

open BidScope.L1 BidScope.L2 KeyOrder

abbrev Uuid := Nat

structure Pg where
  parseUuid : String → Option Uuid
  uuidStr : Uuid → String
  jsonKeys : List (String × String) → List (String × String)
  jsonPerm : ∀ es, (jsonKeys es).Perm es

/-! ## Tables -/

/-- mirrors persistence/models.py:124-132 -/
structure EvidenceRow where
  id : Uuid
  noticeVersionId : Uuid
  text : String
  start : Int
  stop : Int
  spanHash : String
  deriving DecidableEq, Repr

/-- `generatedAt` is the instant, as `timestamptz` keeps it.
mirrors persistence/models.py:347-362 -/
structure ReportRow where
  id : Uuid
  runId : Uuid
  conditions : Dict String String
  freshnessWindow : Option String
  sourceAvailability : List String
  completenessWarning : Option String
  generatedAt : Int
  docxObjectKey : Option String := none
  deriving DecidableEq

/-- mirrors persistence/models.py:365-376 -/
structure ItemRow where
  id : Uuid
  reportId : Uuid
  rank : Nat
  noticeVersionId : Uuid
  title : String
  knownFields : Dict String String
  unknownFields : List String
  relevanceReason : Option String
  riskNote : Option String
  deriving DecidableEq

/-- mirrors persistence/models.py:423-434 -/
structure CitationRow where
  id : Uuid
  reportItemId : Uuid
  ordinal : Nat
  evidenceId : Uuid
  label : Option String
  spanStart : Option Int
  spanEnd : Option Int
  deriving DecidableEq, Repr

/-- mirrors persistence/models.py:379-387 -/
structure ClaimRow where
  id : Uuid
  reportItemId : Uuid
  ordinal : Nat
  text : String
  supportStatus : Option ClaimSupportStatus
  deriving DecidableEq, Repr

/-- mirrors persistence/models.py:390-400 -/
structure VerificationRow where
  id : Uuid
  reportClaimId : Uuid
  reportId : Uuid
  status : ClaimSupportStatus
  rationale : String
  evidenceIdsUsed : List String
  conflictEvidenceIds : List String
  verifierVersion : String
  deriving DecidableEq, Repr

/-- mirrors persistence/models.py:403-420 -/
structure ClaimCitationRow where
  id : Uuid
  reportClaimId : Uuid
  ordinal : Nat
  evidenceId : Uuid
  label : Option String
  deriving DecidableEq, Repr

structure Rows where
  reports : List ReportRow := []
  items : List ItemRow := []
  citations : List CitationRow := []
  claims : List ClaimRow := []
  verifications : List VerificationRow := []
  claimCitations : List ClaimCitationRow := []
  deriving DecidableEq

/-- The rows other code writes: runs, notice versions and their evidence. None
of them is ever deleted. -/
structure Base where
  runs : List Uuid
  versions : List Uuid
  evidence : List EvidenceRow
  deriving DecidableEq

/-- Primary keys, unique constraints and foreign keys. -/
structure Constraints (base : Base) (rows : Rows) : Prop where
  evidenceId : (base.evidence.map (·.id)).Nodup
  reportId : (rows.reports.map (·.id)).Nodup
  reportRunId : (rows.reports.map (·.runId)).Nodup
  reportRun : ∀ r ∈ rows.reports, r.runId ∈ base.runs
  itemId : (rows.items.map (·.id)).Nodup
  itemReport : ∀ i ∈ rows.items, i.reportId ∈ rows.reports.map (·.id)
  itemVersion : ∀ i ∈ rows.items, i.noticeVersionId ∈ base.versions
  citationId : (rows.citations.map (·.id)).Nodup
  citationItem : ∀ c ∈ rows.citations, c.reportItemId ∈ rows.items.map (·.id)
  citationEvidence : ∀ c ∈ rows.citations, c.evidenceId ∈ base.evidence.map (·.id)
  claimId : (rows.claims.map (·.id)).Nodup
  claimItem : ∀ c ∈ rows.claims, c.reportItemId ∈ rows.items.map (·.id)
  verificationId : (rows.verifications.map (·.id)).Nodup
  verificationClaim : ∀ v ∈ rows.verifications, v.reportClaimId ∈ rows.claims.map (·.id)
  verificationReport : ∀ v ∈ rows.verifications, v.reportId ∈ rows.reports.map (·.id)
  claimCitationId : (rows.claimCitations.map (·.id)).Nodup
  claimCitationClaim : ∀ c ∈ rows.claimCitations, c.reportClaimId ∈ rows.claims.map (·.id)
  claimCitationEvidence : ∀ c ∈ rows.claimCitations, c.evidenceId ∈ base.evidence.map (·.id)
  claimEvidence : (rows.claimCitations.map fun c => (c.reportClaimId, c.evidenceId)).Nodup

instance (base : Base) (rows : Rows) : Decidable (Constraints base rows) :=
  decidable_of_iff
    ((base.evidence.map (·.id)).Nodup ∧ (rows.reports.map (·.id)).Nodup ∧
      (rows.reports.map (·.runId)).Nodup ∧ (∀ r ∈ rows.reports, r.runId ∈ base.runs) ∧
      (rows.items.map (·.id)).Nodup ∧ (∀ i ∈ rows.items, i.reportId ∈ rows.reports.map (·.id)) ∧
      (∀ i ∈ rows.items, i.noticeVersionId ∈ base.versions) ∧
      (rows.citations.map (·.id)).Nodup ∧
      (∀ c ∈ rows.citations, c.reportItemId ∈ rows.items.map (·.id)) ∧
      (∀ c ∈ rows.citations, c.evidenceId ∈ base.evidence.map (·.id)) ∧
      (rows.claims.map (·.id)).Nodup ∧
      (∀ c ∈ rows.claims, c.reportItemId ∈ rows.items.map (·.id)) ∧
      (rows.verifications.map (·.id)).Nodup ∧
      (∀ v ∈ rows.verifications, v.reportClaimId ∈ rows.claims.map (·.id)) ∧
      (∀ v ∈ rows.verifications, v.reportId ∈ rows.reports.map (·.id)) ∧
      (rows.claimCitations.map (·.id)).Nodup ∧
      (∀ c ∈ rows.claimCitations, c.reportClaimId ∈ rows.claims.map (·.id)) ∧
      (∀ c ∈ rows.claimCitations, c.evidenceId ∈ base.evidence.map (·.id)) ∧
      (rows.claimCitations.map fun c => (c.reportClaimId, c.evidenceId)).Nodup)
    ⟨fun ⟨h1, h2, h3, h4, h5, h6, h7, h8, h9, h10, h11, h12, h13, h14, h15, h16, h17, h18, h19⟩ =>
        ⟨h1, h2, h3, h4, h5, h6, h7, h8, h9, h10, h11, h12, h13, h14, h15, h16, h17, h18, h19⟩,
      fun h => ⟨h.1, h.2, h.3, h.4, h.5, h.6, h.7, h.8, h.9, h.10, h.11, h.12, h.13, h.14, h.15,
        h.16, h.17, h.18, h.19⟩⟩

structure Db where
  base : Base
  rows : Rows
  constraints : Constraints base rows

/-! ## Reading a report -/

inductive PersistError where
  /-- `DeliveryError` -/
  | delivery (message : String)
  /-- SQLAlchemy's `IntegrityError`: a constraint is violated. -/
  | integrity
  /-- `DataError`: a text that is no uuid. -/
  | data
  /-- A `ValidationError` of the domain model. -/
  | validation
  /-- The connection, the process or the caller failed. -/
  | fault (message : String)
  deriving DecidableEq, Repr

variable (pg : Pg)

/-- A JSONB object as the driver returns it. -/
def jsonObject (fields : Dict String String) : List (String × String) := pg.jsonKeys fields.entries

/-- mirrors delivery/reports.py:304-308 -/
def findByRunId (rows : Rows) (runId : Uuid) : Option ReportRow :=
  rows.reports.find? (·.runId = runId)

/-- `JOIN notice_evidence ON evidence_id = notice_evidence.id` -/
def spanHash (base : Base) (evidenceId : Uuid) : Option String :=
  (Ledger.first EvidenceRow.id base.evidence evidenceId).map (·.spanHash)

/-- `ORDER BY report_item_id, ordinal, id` -/
def citationKey (c : CitationRow) : Nat ×ₗ Nat ×ₗ Nat :=
  Joins.siblingKey c.reportItemId c.ordinal c.id

def claimKey (c : ClaimRow) : Nat ×ₗ Nat ×ₗ Nat := Joins.siblingKey c.reportItemId c.ordinal c.id

def claimCitationKey (c : ClaimCitationRow) : Nat ×ₗ Nat ×ₗ Nat :=
  Joins.siblingKey c.reportClaimId c.ordinal c.id

def itemRowsOf (rows : Rows) (reportId : Uuid) : List ItemRow :=
  orderBy (fun i : ItemRow => toLex (i.rank, i.id)) (rows.items.filter (·.reportId = reportId))

/-- The rows of the citation query, with the span hashes joined to them. -/
def citationRowsOf (db : Db) (itemIds : List Uuid) : List (CitationRow × String) :=
  (orderBy citationKey (db.rows.citations.filter fun c => itemIds.contains c.reportItemId)).filterMap
    fun c => (spanHash db.base c.evidenceId).map (c, ·)

def claimRowsOf (rows : Rows) (itemIds : List Uuid) : List ClaimRow :=
  orderBy claimKey (rows.claims.filter fun c => itemIds.contains c.reportItemId)

def claimCitationRowsOf (db : Db) (claimIds : List Uuid) : List (Uuid × String) :=
  (orderBy claimCitationKey
    (db.rows.claimCitations.filter fun c => claimIds.contains c.reportClaimId)).filterMap
      fun c => (spanHash db.base c.evidenceId).map (c.reportClaimId, ·)

/-- `DomainClaim(...)`: its validator takes no citation twice. -/
def domainClaim (claim : ClaimRow) (citationIds : List String) :
    Except PersistError (Option ReportClaim) :=
  if hne : citationIds = [] then .ok none
  else if hd : citationIds.Nodup then .ok (some ⟨claim.text, citationIds, claim.supportStatus, hne, hd⟩)
  else .error .validation

/-- The claims of one item, in order; a claim without citations is left out. -/
def domainClaims (citationIds : Uuid → List String) :
    List ClaimRow → Except PersistError (List ReportClaim)
  | [] => .ok []
  | claim :: rest =>
    match domainClaim claim (citationIds claim.id), domainClaims citationIds rest with
    | .ok c, .ok cs => .ok (c.toList ++ cs)
    | .error e, _ => .error e
    | _, .error e => .error e

def domainItems (citations : List (CitationRow × String)) (claims : List ClaimRow)
    (citationIds : Uuid → List String) : List ItemRow → Except PersistError (List ReportItem)
  | [] => .ok []
  | item :: rest =>
    match domainClaims citationIds (claims.filter (·.reportItemId = item.id)),
        domainItems citations claims citationIds rest with
    | .ok itemClaims, .ok items => .ok ({
        noticeId := pg.uuidStr item.noticeVersionId
        title := item.title
        knownFields := jsonObject pg item.knownFields
        unknownFields := item.unknownFields
        relevanceReason := item.relevanceReason
        riskNote := item.riskNote
        citations := (citations.filter (·.1.reportItemId = item.id)).map fun c => ⟨c.2, c.1.label⟩
        claims := itemClaims } :: items)
    | .error e, _ => .error e
    | _, .error e => .error e

/-- The items of a report: its item rows, their citations and claims, and the
citations of these, each read by one query and grouped by parent. -/
def projectItems (db : Db) (reportId : Uuid) : Except PersistError (List ReportItem) :=
  let itemRows := itemRowsOf db.rows reportId
  let itemIds := itemRows.map (·.id)
  let claimRows := claimRowsOf db.rows itemIds
  let claimCitations := claimCitationRowsOf db (claimRows.map (·.id))
  domainItems pg (citationRowsOf db itemIds) claimRows
    (fun claimId => (claimCitations.filter (·.1 = claimId)).map (·.2)) itemRows

/-- mirrors delivery/reports.py:310-389 -/
def project (db : Db) (row : ReportRow) : Except PersistError PersistedReport :=
  match projectItems pg db row.id with
  | .error e => .error e
  | .ok items => .ok {
      id := pg.uuidStr row.id
      report := {
        runId := pg.uuidStr row.runId
        generatedAt := ⟨row.generatedAt, 0⟩
        queryConditions := jsonObject pg row.conditions
        freshnessWindow := row.freshnessWindow
        sourceAvailability := row.sourceAvailability
        completenessWarning := row.completenessWarning
        items }
      docxObjectKey := row.docxObjectKey }

/-- mirrors delivery/reports.py:160-164 -/
def loadOnlineReport (db : Db) (runId : String) : Except PersistError (Option PersistedReport) :=
  match pg.parseUuid runId with
  | none => .error .data
  | some run =>
    match findByRunId db.rows run with
    | none => .ok none
    | some row =>
      match project pg db row with
      | .error e => .error e
      | .ok persisted => .ok (some persisted)

/-! ## Rows added later -/

def Rows.append (rows more : Rows) : Rows where
  reports := rows.reports ++ more.reports
  items := rows.items ++ more.items
  citations := rows.citations ++ more.citations
  claims := rows.claims ++ more.claims
  verifications := rows.verifications ++ more.verifications
  claimCitations := rows.claimCitations ++ more.claimCitations

/-- No row of `more` hangs below a row of `rows`. -/
structure Apart (rows more : Rows) : Prop where
  items : ∀ i ∈ more.items, i.reportId ∉ rows.reports.map (·.id)
  citations : ∀ c ∈ more.citations, c.reportItemId ∉ rows.items.map (·.id)
  claims : ∀ c ∈ more.claims, c.reportItemId ∉ rows.items.map (·.id)
  verifications : ∀ v ∈ more.verifications, v.reportClaimId ∉ rows.claims.map (·.id)
  claimCitations : ∀ c ∈ more.claimCitations, c.reportClaimId ∉ rows.claims.map (·.id)

/-- `db'` is `db` with reports and evidence stored after. -/
structure Grown (db db' : Db) : Prop where
  rows : ∃ more, db'.rows = db.rows.append more ∧ Apart db.rows more
  evidence : ∃ more, db'.base.evidence = db.base.evidence ++ more

variable {pg} {db db' : Db}

theorem Rows.append_empty (rows : Rows) : rows.append {} = rows := by simp [Rows.append]

theorem Grown.of_rows (hrows : db'.rows = db.rows)
    (hevidence : ∃ more, db'.base.evidence = db.base.evidence ++ more) : Grown db db' where
  rows := ⟨{}, by rw [hrows, Rows.append_empty], by constructor <;> simp⟩
  evidence := hevidence

theorem Grown.refl (db : Db) : Grown db db := .of_rows rfl ⟨[], by simp⟩

theorem Grown.trans {db'' : Db} (h : Grown db db') (h' : Grown db' db'') : Grown db db'' := by
  obtain ⟨more, hmore, hapart⟩ := h.rows
  obtain ⟨more', hmore', hapart'⟩ := h'.rows
  obtain ⟨e, he⟩ := h.evidence
  obtain ⟨e', he'⟩ := h'.evidence
  have hold : ∀ {α : Type} {key : α → Uuid} {old new : List α} {k : Uuid},
      k ∉ (old ++ new).map key → k ∉ old.map key := by
    intro α key old new k hk hmem
    exact hk (List.map_append ▸ List.mem_append_left _ hmem)
  rw [hmore] at hapart'
  refine ⟨⟨more.append more', ?_, ?_⟩, e ++ e', by rw [he', he, List.append_assoc]⟩
  · rw [hmore', hmore]
    simp [Rows.append]
  · constructor
    · exact List.forall_mem_append.mpr ⟨hapart.items, fun i hi => hold (hapart'.items i hi)⟩
    · exact List.forall_mem_append.mpr ⟨hapart.citations, fun c hc => hold (hapart'.citations c hc)⟩
    · exact List.forall_mem_append.mpr ⟨hapart.claims, fun c hc => hold (hapart'.claims c hc)⟩
    · exact List.forall_mem_append.mpr
        ⟨hapart.verifications, fun v hv => hold (hapart'.verifications v hv)⟩
    · exact List.forall_mem_append.mpr
        ⟨hapart.claimCitations, fun c hc => hold (hapart'.claimCitations c hc)⟩

theorem filter_apart {α κ : Type} [DecidableEq κ] {rows more : List α} {parent : α → κ}
    {ids known : List κ} (hsub : ∀ k ∈ ids, k ∈ known) (hmore : ∀ a ∈ more, parent a ∉ known) :
    (rows ++ more).filter (fun a => ids.contains (parent a)) =
      rows.filter fun a => ids.contains (parent a) := by
  have hnone : more.filter (fun a => ids.contains (parent a)) = [] := by
    rw [List.filter_eq_nil_iff]
    intro a ha hin
    exact hmore a ha (hsub _ (by simpa using hin))
  rw [List.filter_append, hnone, List.append_nil]

theorem spanHash_grown (hg : Grown db db') {id : Uuid} (h : id ∈ db.base.evidence.map (·.id)) :
    spanHash db'.base id = spanHash db.base id := by
  obtain ⟨more, hmore⟩ := hg.evidence
  obtain ⟨e, he, rfl⟩ := List.mem_map.mp h
  have hfound := Joins.first_unique db.constraints.evidenceId he
  unfold spanHash
  rw [hmore, Joins.first_grown hfound, hfound]

theorem itemRowsOf_grown {more : Rows} (hapart : Apart db.rows more) {row : ReportRow}
    (hrow : row ∈ db.rows.reports) :
    itemRowsOf (db.rows.append more) row.id = itemRowsOf db.rows row.id := by
  have hnone : more.items.filter (·.reportId = row.id) = [] := by
    rw [List.filter_eq_nil_iff]
    intro i hi hid
    rw [decide_eq_true_eq] at hid
    exact hapart.items i hi (hid ▸ List.mem_map_of_mem hrow)
  unfold itemRowsOf Rows.append
  rw [List.filter_append, hnone, List.append_nil]

theorem mem_itemRowsOf {rows : Rows} {reportId : Uuid} {i : ItemRow} :
    i ∈ itemRowsOf rows reportId ↔ i ∈ rows.items ∧ i.reportId = reportId := by
  unfold itemRowsOf
  rw [(orderBy_perm _ _).mem_iff, List.mem_filter, decide_eq_true_eq]

theorem mem_claimRowsOf {rows : Rows} {itemIds : List Uuid} {c : ClaimRow} :
    c ∈ claimRowsOf rows itemIds ↔ c ∈ rows.claims ∧ c.reportItemId ∈ itemIds := by
  unfold claimRowsOf
  rw [(orderBy_perm _ _).mem_iff, List.mem_filter, List.contains_iff_mem]

/-- A join through evidence that is stored reads the same when evidence is added. -/
theorem join_grown (hg : Grown db db') {α β : Type} {rows : List α} {evidenceId : α → Uuid}
    {f : α → String → β} (h : ∀ a ∈ rows, evidenceId a ∈ db.base.evidence.map (·.id)) :
    (rows.filterMap fun a => (spanHash db'.base (evidenceId a)).map (f a)) =
      rows.filterMap fun a => (spanHash db.base (evidenceId a)).map (f a) := by
  refine List.filterMap_congr fun a ha => ?_
  rw [spanHash_grown hg (h a ha)]

theorem citationRowsOf_grown (hg : Grown db db') {itemIds : List Uuid}
    (hids : ∀ id ∈ itemIds, id ∈ db.rows.items.map (·.id)) :
    citationRowsOf db' itemIds = citationRowsOf db itemIds := by
  obtain ⟨more, hmore, hapart⟩ := hg.rows
  unfold citationRowsOf
  rw [hmore, Rows.append, filter_apart hids hapart.citations]
  refine join_grown hg fun c hc => ?_
  rw [(orderBy_perm _ _).mem_iff] at hc
  exact db.constraints.citationEvidence c (List.mem_of_mem_filter hc)

theorem claimCitationRowsOf_grown (hg : Grown db db') {claimIds : List Uuid}
    (hids : ∀ id ∈ claimIds, id ∈ db.rows.claims.map (·.id)) :
    claimCitationRowsOf db' claimIds = claimCitationRowsOf db claimIds := by
  obtain ⟨more, hmore, hapart⟩ := hg.rows
  unfold claimCitationRowsOf
  rw [hmore, Rows.append, filter_apart hids hapart.claimCitations]
  refine join_grown hg fun c hc => ?_
  rw [(orderBy_perm _ _).mem_iff] at hc
  exact db.constraints.claimCitationEvidence c (List.mem_of_mem_filter hc)

theorem claimRowsOf_grown (hg : Grown db db') {itemIds : List Uuid}
    (hids : ∀ id ∈ itemIds, id ∈ db.rows.items.map (·.id)) :
    claimRowsOf db'.rows itemIds = claimRowsOf db.rows itemIds := by
  obtain ⟨more, hmore, hapart⟩ := hg.rows
  unfold claimRowsOf
  rw [hmore, Rows.append, filter_apart hids hapart.claims]

theorem mem_itemIds {reportId id : Uuid} (h : id ∈ (itemRowsOf db.rows reportId).map (·.id)) :
    id ∈ db.rows.items.map (·.id) := by
  obtain ⟨i, hi, rfl⟩ := List.mem_map.mp h
  exact List.mem_map_of_mem (mem_itemRowsOf.mp hi).1

/-- What is stored later does not change how a stored report is read. -/
theorem project_grown (hg : Grown db db') {row : ReportRow} (hrow : row ∈ db.rows.reports) :
    project pg db' row = project pg db row := by
  obtain ⟨more, hmore, hapart⟩ := hg.rows
  have hitems : itemRowsOf db'.rows row.id = itemRowsOf db.rows row.id := by
    rw [hmore, itemRowsOf_grown hapart hrow]
  have hids : ∀ id ∈ (itemRowsOf db.rows row.id).map (·.id), id ∈ db.rows.items.map (·.id) :=
    fun _ => mem_itemIds
  have hclaimIds : ∀ id ∈ (claimRowsOf db.rows ((itemRowsOf db.rows row.id).map (·.id))).map (·.id),
      id ∈ db.rows.claims.map (·.id) := by
    intro id hid
    obtain ⟨c, hc, rfl⟩ := List.mem_map.mp hid
    exact List.mem_map_of_mem (mem_claimRowsOf.mp hc).1
  have hsame : projectItems pg db' row.id = projectItems pg db row.id := by
    unfold projectItems
    dsimp only
    rw [hitems, claimRowsOf_grown hg hids, citationRowsOf_grown hg hids, claimCitationRowsOf_grown hg hclaimIds]
  unfold project
  rw [hsame]

end BidScope.L7
