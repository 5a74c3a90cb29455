import BidScope.L7Delivery.Verdicts

/-!
# Renderings of a report

What leaves the system of a stored report: the document `render_report` builds
(`delivery/docx.py`), from the report a run persisted or from the report loaded
for a retry, and the claims of the JSON report (`api/routes/reports.py`).

**Documents.** A document is the list of headings, paragraphs and tables added
to it, in order. That text python-docx refuses (control characters) fails the
export is left out.

**Law (`SupportedOnly`).** The main list of the JSON report shows claims that
are not refused; each document is that of a report without the refused claims.

* `json_supported`: the main list is made of claims that are not refused.
* `docxSupported_iff`: a document shows every claim of its report.
* `supportedOnly_iff`: so the law holds exactly when no claim is refused.
-/
namespace BidScope.L7

open BidScope.L1 BidScope.L2 KeyOrder

/-! ## The document -/

inductive Block where
  | heading (text : String) (level : Nat)
  | paragraph (text : String)
  | table (rows : List (String × String))
  deriving DecidableEq, Repr

/-- mirrors delivery/docx.py:29-31 -/
def RENDERER_VERSION : String := "docx-v1"

/-- `if text:` for a text that may be `None`. -/
def whenSet (text : Option String) (blocks : String → List Block) : List Block :=
  if truthy text then blocks (orEmpty text) else []

def fieldTable (fields : List (String × String)) : Block := .table (("Field", "Value") :: fields)

/-- The document before its items. -/
def front (lib : Lib) (report : Report) : List Block :=
  [.heading "BidScope Report" 0,
    .paragraph ("Generated at: " ++ lib.isoformat report.generatedAt)] ++
  whenSet report.freshnessWindow (fun window => [.paragraph ("Freshness window: " ++ window)]) ++
  [.heading "Query Conditions" 1, fieldTable report.queryConditions] ++
  (if report.sourceAvailability = [] then []
    else .heading "Source Availability" 1 :: report.sourceAvailability.map .paragraph) ++
  whenSet report.completenessWarning (fun warning =>
    [.heading "Completeness Warning" 1, .paragraph warning]) ++
  [.heading "Opportunities" 1]

/-- `citation.label or citation.evidence_id` -/
def citationText (citation : ReportCitation) : String :=
  if truthy citation.label then orEmpty citation.label else citation.evidenceId

/-- An item before its claims. -/
def itemHead (index : Nat) (item : ReportItem) : List Block :=
  [.heading (toString index ++ ". " ++ item.title) 2] ++
  (if item.knownFields = [] then []
    else [.paragraph "Known fields:", fieldTable item.knownFields]) ++
  (if item.unknownFields = [] then []
    else [.paragraph ("未知字段 (unknown fields): " ++ joinWith ", " item.unknownFields)]) ++
  whenSet item.relevanceReason (fun reason => [.paragraph ("Relevance: " ++ reason)]) ++
  whenSet item.riskNote (fun note => [.paragraph ("Risk: " ++ note)]) ++
  (if item.citations = [] then []
    else .paragraph "Evidence:" :: (item.citations.zipIdx 1).map fun (citation, i) =>
      .paragraph ("  [" ++ toString i ++ "] " ++ citationText citation))

def claimBlocks (claims : List ReportClaim) : List Block :=
  if claims = [] then []
  else .paragraph "Claims:" :: claims.map fun claim => .paragraph ("  - " ++ claim.text)

/-- The items from number `index` on. -/
def itemSections : Nat → List ReportItem → List Block
  | _, [] => []
  | index, item :: rest =>
    itemHead index item ++ claimBlocks item.claims ++ itemSections (index + 1) rest

def appendix (report : Report) : List Block :=
  [.heading "Appendix" 1, .paragraph ("Renderer version: " ++ RENDERER_VERSION),
    .paragraph ("Report run ID: " ++ report.runId),
    .paragraph ("This document was generated automatically and reflects the " ++
      "evidence available at generation time.")]

/-- mirrors delivery/docx.py:95-167 -/
def renderReport (lib : Lib) (report : Report) : List Block :=
  front lib report ++ itemSections 1 report.items ++ appendix report

/-! ## The claims of the JSON report -/

/-- mirrors api/routes/reports.py:36-41 -/
def REPORT_ITEMS_LIMIT : Nat := 100

def ITEM_TEXT_LIMIT : Nat := 240

def CLAIMS_LIMIT : Nat := 100

def CITATIONS_LIMIT : Nat := 100

/-- mirrors domain/enums.py:50-59 -/
def statusValue : ClaimSupportStatus → String
  | .supported => "supported"
  | .unsupported => "unsupported"
  | .uncertain => "uncertain"

/-- mirrors api/routes/reports.py:65-68 -/
def boundedText (value : String) (limit : Nat) : Option String :=
  if value = "" then none else some (.ofList (value.toList.take limit))

/-- `_bounded_text(value, _ITEM_TEXT_LIMIT) or ""` -/
def itemText (value : String) : String := (boundedText value ITEM_TEXT_LIMIT).getD ""

def itemTexts (values : List String) : List String := (values.take CITATIONS_LIMIT).map itemText

/-- A claim as `_fetch_report` reads it. -/
structure FetchedClaim where
  text : String
  citationIds : List String
  supportStatus : Option ClaimSupportStatus
  verification : Option Recorded
  deriving DecidableEq, Repr

structure VerificationJson where
  status : String
  rationale : String
  evidenceIdsUsed : List String
  conflictEvidenceIds : List String
  verifierVersion : String
  deriving DecidableEq, Repr

structure MainClaim where
  text : String
  citationIds : List String
  supportStatus : Option String
  deriving DecidableEq, Repr

structure ReviewClaim where
  text : String
  citationIds : List String
  supportStatus : String
  verification : Option VerificationJson
  deriving DecidableEq, Repr

/-- mirrors api/routes/reports.py:144-163 -/
def serializeVerification (v : Recorded) : VerificationJson where
  status := itemText (statusValue v.status)
  rationale := itemText v.rationale
  evidenceIdsUsed := itemTexts v.evidenceIdsUsed
  conflictEvidenceIds := itemTexts v.conflictEvidenceIds
  verifierVersion := itemText v.verifierVersion

def mainClaim (claim : FetchedClaim) : MainClaim where
  text := itemText claim.text
  citationIds := itemTexts claim.citationIds
  supportStatus := claim.supportStatus.map fun status => itemText (statusValue status)

def reviewClaim (claim : FetchedClaim) (status : ClaimSupportStatus) : ReviewClaim where
  text := itemText claim.text
  citationIds := itemTexts claim.citationIds
  supportStatus := itemText (statusValue status)
  verification := claim.verification.map serializeVerification

/-- The loop of `_serialize_claims`. -/
def splitClaims : List FetchedClaim → List MainClaim × List ReviewClaim
  | [] => ([], [])
  | claim :: rest =>
    let (main, review) := splitClaims rest
    match claim.supportStatus with
    | some status =>
      if statusValue status ≠ "supported" then (main, reviewClaim claim status :: review)
      else (mainClaim claim :: main, review)
    | none => (mainClaim claim :: main, review)

/-- mirrors api/routes/reports.py:166-200 -/
def serializeClaims (claims : List FetchedClaim) : List MainClaim × List ReviewClaim :=
  splitClaims (claims.take CLAIMS_LIMIT)

/-- The claims of one item, out of those of all items fetched.
mirrors api/routes/reports.py:405-444 -/
def fetchedClaims (db : Db) (itemIds : List Uuid) (itemId : Uuid) : List FetchedClaim :=
  let claimRows := claimRowsOf db.rows itemIds
  let claimCitations := claimCitationRowsOf db (claimRows.map (·.id))
  (claimRows.filter (·.reportItemId = itemId)).map fun claim => {
    text := claim.text
    citationIds := (claimCitations.filter (·.1 = claim.id)).map (·.2)
    supportStatus := claim.supportStatus
    verification := (verificationsOf db.rows claim.id).getLast?.map (·.recorded) }

/-- The items of the JSON report.
mirrors api/routes/reports.py:362-369 -/
def fetchedItems (db : Db) (row : ReportRow) : List ItemRow :=
  (itemRowsOf db.rows row.id).take REPORT_ITEMS_LIMIT

/-- The claims and review claims of each item. -/
def jsonClaims (db : Db) (row : ReportRow) : List (List MainClaim × List ReviewClaim) :=
  let items := fetchedItems db row
  items.map fun i => serializeClaims (fetchedClaims db (items.map (·.id)) i.id)

/-! ## The law -/

/-- Neither supported nor without a verdict. -/
def refused (status : Option ClaimSupportStatus) : Bool :=
  status == some .unsupported || status == some .uncertain

/-- The claims of an item as they are fetched, with the verdicts filed for them. -/
def judgedClaims (vs : List ClaimVerification) (item : ReportItem) : List FetchedClaim :=
  item.claims.zipIdx.map fun (claim, i) => {
    text := claim.text
    citationIds := claim.citationIds
    supportStatus := suppliedStatus vs item.noticeId i claim
    verification := (verdictFor vs item.noticeId i).map recorded }

/-- What is shown is some of the claims, none of them refused. -/
def MainSupported (shown : List MainClaim) (claims : List FetchedClaim) : Prop :=
  ∃ kept : List FetchedClaim, kept.Sublist claims ∧
    (∀ c ∈ kept, refused c.supportStatus = false) ∧ shown = kept.map mainClaim

def NoneRefused (report : Report) : Prop :=
  ∀ c ∈ report.items.flatMap (·.claims), refused c.supportStatus = false

/-- The second item is the first with some of its claims. -/
def PrunedItem (item kept : ReportItem) : Prop :=
  ∃ claims : List ReportClaim, claims.Sublist item.claims ∧ kept = { item with claims }

/-- The document is that of the report with some of its claims, none of them refused. -/
def DocxSupported (lib : Lib) (report : Report) : Prop :=
  ∃ items, List.Forall₂ PrunedItem report.items items ∧ NoneRefused { report with items } ∧
    renderReport lib report = renderReport lib { report with items }

/-- Of a report that is stored: its JSON, the document exported when it was
persisted, and that of a retry. -/
structure SupportedOnly (lib : Lib) (pg : Pg) (db : Db) (call : Call) : Prop where
  json : ∃ run row, pg.parseUuid call.report.runId = some run ∧
    findByRunId db.rows run = some row ∧
    List.Forall₂ (fun shown item => MainSupported shown (judgedClaims call.verifications item))
      ((jsonClaims db row).map (·.1)) (call.report.items.take REPORT_ITEMS_LIMIT)
  exported : DocxSupported lib call.report
  retried : ∃ p, loadOnlineReport pg db call.report.runId = .ok (some p) ∧
    DocxSupported lib p.report

/-! ## The main list -/

variable {pg : Pg} {env : Env} {run : Uuid} {report : Report} {items : List ReportItem}
  {vs : List ClaimVerification} {t : ReportRows} {db db' : Db} {lib : Lib}

theorem splitClaims_main : ∀ claims : List FetchedClaim,
    (splitClaims claims).1 = (claims.filter fun c => !refused c.supportStatus).map mainClaim
  | [] => rfl
  | claim :: rest => by
    have ih := splitClaims_main rest
    unfold splitClaims
    cases hstatus : claim.supportStatus with
    | none => simp [ih, hstatus, refused]
    | some status => cases status <;> simp [ih, hstatus, refused, statusValue]

/-- The main list of the first claims, without the refused ones. -/
theorem serializeClaims_main (claims : List FetchedClaim) :
    MainSupported (serializeClaims claims).1 claims := by
  refine ⟨(claims.take CLAIMS_LIMIT).filter fun c => !refused c.supportStatus, ?_, ?_,
    splitClaims_main _⟩
  · exact List.filter_sublist.trans (List.take_sublist ..)
  · intro c hc
    simpa using (List.mem_filter.mp hc).2

/-! ## The document -/

theorem claimBlocks_length (claims : List ReportClaim) :
    (claimBlocks claims).length = if claims = [] then 0 else claims.length + 1 := by
  unfold claimBlocks
  split <;> simp

/-- Fewer claims make a shorter document. -/
theorem itemSections_pruned : ∀ {items kept : List ReportItem} (index : Nat),
    List.Forall₂ PrunedItem items kept →
    (itemSections index kept).length ≤ (itemSections index items).length ∧
      ((itemSections index kept).length = (itemSections index items).length → kept = items)
  | [], kept, index, h => by
    cases h
    simp
  | item :: items, kept, index, h => by
    cases h with
    | @cons _ k _ rest hpruned hrest =>
      obtain ⟨claims, hsub, rfl⟩ := hpruned
      obtain ⟨hle, heq⟩ := itemSections_pruned (index + 1) hrest
      have hhead : itemHead index { item with claims } = itemHead index item := rfl
      have hlen := hsub.length_le
      have hblocks : (claimBlocks claims).length ≤ (claimBlocks item.claims).length ∧
          ((claimBlocks claims).length = (claimBlocks item.claims).length →
            claims.length = item.claims.length) := by
        rw [claimBlocks_length, claimBlocks_length]
        rcases claims with _ | ⟨c, cs⟩
        · rcases hitem : item.claims with _ | ⟨d, ds⟩ <;> simp
        · rcases hitem : item.claims with _ | ⟨d, ds⟩
          · simp [hitem] at hlen
          · simp only [hitem] at hlen
            simp at hlen ⊢
            omega
      simp only [itemSections, List.length_append, hhead]
      refine ⟨by omega, fun h => ?_⟩
      have hsame := hsub.eq_of_length (hblocks.2 (by omega))
      rw [heq (by omega), hsame]

/-- A document shows every claim of its report. -/
theorem docxSupported_iff (lib : Lib) (report : Report) :
    DocxSupported lib report ↔ NoneRefused report := by
  constructor
  · intro h
    obtain ⟨items, hpruned, hnone, hsame⟩ := h
    have hlength := congrArg List.length hsame
    have hfront : front lib { report with items } = front lib report := rfl
    have happendix : appendix { report with items } = appendix report := rfl
    simp only [renderReport, List.length_append, hfront, happendix] at hlength
    rw [(itemSections_pruned 1 hpruned).2 (by omega)] at hnone
    exact hnone
  · intro h
    refine ⟨report.items, List.forall₂_same.mpr fun item _ => ?_, h, rfl⟩
    exact ⟨item.claims, List.Sublist.refl _, rfl⟩

/-! ## What is fetched -/

theorem fetchedClaims_grown (hg : Grown db db') {itemIds : List Uuid} {itemId : Uuid}
    (hids : ∀ id ∈ itemIds, id ∈ db.rows.items.map (·.id)) :
    fetchedClaims db' itemIds itemId = fetchedClaims db itemIds itemId := by
  have hknown : ∀ id ∈ (claimRowsOf db.rows itemIds).map (·.id), id ∈ db.rows.claims.map (·.id) := by
    intro id hid
    obtain ⟨c, hc, rfl⟩ := List.mem_map.mp hid
    exact List.mem_map_of_mem (mem_claimRowsOf.mp hc).1
  unfold fetchedClaims
  dsimp only
  rw [claimRowsOf_grown hg hids, claimCitationRowsOf_grown hg hknown]
  refine List.map_congr_left fun c hc => ?_
  rw [verificationsOf_grown hg (mem_claimRowsOf.mp (List.mem_of_mem_filter hc)).1]

theorem jsonClaims_grown (hg : Grown db db') {row : ReportRow} (hrow : row ∈ db.rows.reports) :
    jsonClaims db' row = jsonClaims db row := by
  obtain ⟨more, hmore, hapart⟩ := hg.rows
  have hitems : fetchedItems db' row = fetchedItems db row := by
    unfold fetchedItems
    rw [hmore, itemRowsOf_grown hapart hrow]
  unfold jsonClaims
  dsimp only
  rw [hitems]
  refine List.map_congr_left fun i _ => ?_
  rw [fetchedClaims_grown hg fun id hid => ?_]
  obtain ⟨j, hj, rfl⟩ := List.mem_map.mp hid
  exact List.mem_map_of_mem (mem_itemRowsOf.mp (List.mem_of_mem_take hj)).1

namespace Stored

variable {vs : List ClaimVerification} (hs : Stored pg env db db' run report vs t)

include hs

/-- The claims of one item, with the verdicts filed for them. -/
theorem fetchedClaims {ids : List Uuid} {i : ItemRows} {item : ReportItem × Nat} (hi : i ∈ t.items)
    (hin : i.item.id ∈ ids)
    (hw : ItemWritten pg env t.report.id (indexVerifications vs) item.2 item.1 i) :
    fetchedClaims db' ids i.item.id = judgedClaims vs item.1 := by
  unfold BidScope.L7.fetchedClaims judgedClaims
  dsimp only
  rw [hs.claimRows hi hin hw, List.map_map]
  refine Joins.forall₂_map hw.claims fun c hc claim hcw => ?_
  have hclaim : c ∈ t.claims := List.mem_flatMap_of_mem hi hc
  have htext : c.claim.text = claim.1.text := by rw [hcw.row]
  have hstatus : c.claim.supportStatus = suppliedStatus vs item.1.noticeId claim.2 claim.1 := by
    rw [hcw.row, ← storedStatus_eq]
  have hverdict : (verificationsOf db'.rows c.claim.id).getLast?.map (·.recorded) =
      (verdictFor vs item.1.noticeId claim.2).map recorded := by
    obtain ⟨id, hv⟩ := hcw.verdict
    unfold verificationsOf
    rw [hs.verificationRows hclaim, hv, ← verification_indexed]
    cases indexed (indexVerifications vs) item.1.noticeId claim.2 <;> rfl
  rw [Function.comp_apply, hs.citationIds hclaim (hs.mem_claimIds hi hin hw hc) hcw, hstatus, hverdict, htext]

theorem jsonClaims : jsonClaims db' t.report =
    (report.items.take REPORT_ITEMS_LIMIT).map fun item => serializeClaims (judgedClaims vs item) := by
  unfold BidScope.L7.jsonClaims fetchedItems
  dsimp only
  rw [hs.itemRows, ← List.map_take]
  generalize hids : ((t.items.take REPORT_ITEMS_LIMIT).map (·.item)).map (·.id) = ids
  have hin : ∀ i ∈ t.items.take REPORT_ITEMS_LIMIT, i.item.id ∈ ids := by
    intro i hi
    rw [← hids]
    exact List.mem_map_of_mem (List.mem_map_of_mem hi)
  rw [← List.zipIdx_map_fst 0 report.items, ← List.map_take, List.map_map, List.map_map]
  refine Joins.forall₂_map (List.forall₂_take REPORT_ITEMS_LIMIT hs.written) fun i hi item hw => ?_
  rw [Function.comp_apply, Function.comp_apply,
    hs.fetchedClaims (List.mem_of_mem_take hi) (hin i hi) hw]

end Stored

/-! ## The condition -/

/-- The verdict filed for a claim of a draft. -/
def filedStatus (vs : List ClaimVerification) (e : ReportItem × Nat × ReportClaim) :
    Option ClaimSupportStatus :=
  (verdictFor vs e.1.noticeId e.2.1).map (·.status)

theorem noneRefused_iff (h : (report.items.flatMap (·.claims)).map (·.supportStatus) =
    (indexedClaims items).map (filedStatus vs)) :
    NoneRefused report ↔ ∀ e ∈ indexedClaims items, refused (filedStatus vs e) = false := by
  have hstatuses : NoneRefused report ↔
      ∀ status ∈ (report.items.flatMap (·.claims)).map (·.supportStatus),
        refused status = false := by
    rw [List.forall_mem_map]
    rfl
  rw [hstatuses, h, List.forall_mem_map]

theorem indexedClaims_claims (items : List ReportItem) :
    items.flatMap (·.claims) = (indexedClaims items).map (·.2.2) := by
  unfold indexedClaims
  rw [List.map_flatMap]
  refine List.flatMap_congr fun item _ => ?_
  simp [Function.comp_def]

theorem stamped_statuses (hstamped : report.items = applySupportStatus items vs) :
    (report.items.flatMap (·.claims)).map (·.supportStatus) =
      (indexedClaims items).map (filedStatus vs) := by
  have hclaims := congrArg (List.map fun x => x.2.supportStatus) (indexedClaims_stamped items vs)
  rw [List.map_map, List.map_map] at hclaims
  rw [indexedClaims_claims, List.map_map, hstamped]
  exact hclaims

theorem stored_statuses (pg : Pg) (hstamped : report.items = applySupportStatus items vs) :
    ((storedReport pg vs report).items.flatMap (·.claims)).map (·.supportStatus) =
      (indexedClaims items).map (filedStatus vs) := by
  have hclaims := congrArg (List.map fun x =>
    storedStatus (indexed (indexVerifications vs) x.1.1 x.1.2) x.2) (indexedClaims_stamped items vs)
  rw [List.map_map, List.map_map] at hclaims
  rw [storedReport_claims, List.map_map, hstamped]
  refine hclaims.trans (List.map_congr_left fun e _ => ?_)
  exact stamped_status vs e.1.noticeId e.2.1 e.2.2

/-- The JSON of a stored report always keeps the rule. -/
theorem json_supported (hs : Stored pg env db db' run report vs t) {now : Db} (hg : Grown db' now) :
    List.Forall₂ (fun shown item => MainSupported shown (judgedClaims vs item))
      ((jsonClaims now t.report).map (·.1)) (report.items.take REPORT_ITEMS_LIMIT) := by
  rw [jsonClaims_grown hg (hs.found hg).1, hs.jsonClaims, List.map_map]
  refine List.forall₂_map_left_iff.mpr (List.forall₂_same.mpr fun item _ => ?_)
  exact serializeClaims_main _

/-- **No rendering of a stored report presents a refused claim exactly when no
claim was refused.** -/
theorem supportedOnly_iff (lib : Lib) (pg : Pg) (s : PState) (h : (plts pg).Reachable s) (run : Uuid)
    (i : Nat) (call : Call) (phase : Phase) (hst : s.stored.get run = some i)
    (hcall : s.calls.get i = some (call, phase)) (items : List ReportItem)
    (hstamped : call.report.items = applySupportStatus items call.verifications) :
    SupportedOnly lib pg s.db call ↔
      ∀ e ∈ indexedClaims items, refused (filedStatus call.verifications e) = false := by
  obtain ⟨hI, hW⟩ := (written_inductive pg).reachable s h
  obtain ⟨env, t, before, after, hs, hg⟩ := hW run i call phase hst hcall
  have hparse := parsed_stored hI hst hcall
  obtain ⟨-, hfound⟩ := hs.found hg
  have hload := hs.loaded hg hparse
  constructor
  · intro hlaw
    exact (noneRefused_iff (stamped_statuses hstamped)).mp ((docxSupported_iff ..).mp hlaw.exported)
  · intro hnone
    refine ⟨⟨run, t.report, hparse, hfound, json_supported hs hg⟩, ?_, _, hload, ?_⟩
    · exact (docxSupported_iff ..).mpr ((noneRefused_iff (stamped_statuses hstamped)).mpr hnone)
    · exact (docxSupported_iff ..).mpr ((noneRefused_iff (stored_statuses pg hstamped)).mpr hnone)

/-- A stored report whose claims are all supported. -/
theorem supported_twins :
    SupportedOnly asciiLib hexPg (twinEnd alwaysSupported).db (twinCall alwaysSupported) := by
  obtain ⟨hsome, hst, hcall⟩ := alwaysSupported_run
  obtain ⟨⟨call, phase⟩, hget, hsame⟩ := Option.map_eq_some_iff.mp hcall
  exact (supportedOnly_iff asciiLib hexPg _ (twinEnd_reachable hsome) 10 0
    (twinCall alwaysSupported) phase hst (by rw [hget, ← hsame]) twinItems rfl).mpr
      (by decide +kernel)

/-- A claim the verifier refused is a line of the document like any other. -/
theorem refused_exported :
    (plts hexPg).Reachable (twinEnd paidSupported) ∧
    (twinEnd paidSupported).stored.get 10 = some 0 ∧
    ((twinEnd paidSupported).calls.get 0).map Prod.fst = some (twinCall paidSupported) ∧
    Block.paragraph "  - waived" ∈ renderReport asciiLib (twinCall paidSupported).report ∧
    ¬ SupportedOnly asciiLib hexPg (twinEnd paidSupported).db (twinCall paidSupported) := by
  obtain ⟨hsome, hst, hcall, -⟩ := paidSupported_run
  refine ⟨twinEnd_reachable hsome, hst, hcall, by decide +kernel, fun h => ?_⟩
  have hnone := (docxSupported_iff ..).mp h.exported
  have hbad : ¬ NoneRefused (twinCall paidSupported).report := by
    unfold NoneRefused
    decide +kernel
  exact hbad hnone

end BidScope.L7
