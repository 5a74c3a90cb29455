import BidScope.L7Delivery.Persist

/-!
# A stored report is read back

What `_project` makes of the rows one transaction wrote.

* `rooted_of_written`: the rows name their parents.
* `Stored.project_stored`: the report is read back with its ids in canonical
  spelling, its time in UTC, its objects as the database lists them, and every
  claim with the status it was stored with.
* `sameReport_stored`: that is the same report.
-/
namespace BidScope.L7

open BidScope.L1 BidScope.L2 KeyOrder

/-! ## The report expected -/

/-- A uuid as the database writes it. -/
def canonicalUuid (pg : Pg) (text : String) : String :=
  ((pg.parseUuid text).map pg.uuidStr).getD text

def storedClaim (verification : Option ClaimVerification) (claim : ReportClaim) : ReportClaim :=
  { claim with supportStatus := storedStatus verification claim }

def storedItem (pg : Pg) (verifications : Nat → Option ClaimVerification) (item : ReportItem) :
    ReportItem :=
  { item with
    noticeId := canonicalUuid pg item.noticeId
    knownFields := jsonObject pg (.ofList item.knownFields)
    claims := item.claims.zipIdx.map fun (claim, i) => storedClaim (verifications i) claim }

def storedReport (pg : Pg) (verifications : List ClaimVerification) (report : Report) : Report :=
  { report with
    runId := canonicalUuid pg report.runId
    generatedAt := ⟨report.generatedAt.utc, 0⟩
    queryConditions := jsonObject pg (.ofList report.queryConditions)
    items := report.items.map fun item =>
      storedItem pg (indexed (indexVerifications verifications) item.noticeId) item }

/-! ## Trees in the tables -/

/-- Every row of the tree names its parent. -/
structure Rooted (t : ReportRows) : Prop where
  item : ∀ i ∈ t.items, i.item.reportId = t.report.id
  citation : ∀ i ∈ t.items, ∀ c ∈ i.citations, c.reportItemId = i.item.id
  claim : ∀ i ∈ t.items, ∀ c ∈ i.claims, c.claim.reportItemId = i.item.id
  verification : ∀ c ∈ t.claims, ∀ v ∈ c.verification.toList, v.reportClaimId = c.claim.id
  claimCitation : ∀ c ∈ t.claims, ∀ x ∈ c.citations, x.reportClaimId = c.claim.id

variable {pg : Pg} {env : Env} {evidenceByHash : EvidenceById} {run : Uuid} {report : Report}
  {verifications : List ClaimVerification} {t : ReportRows} {db db' : Db}

theorem writeReport_written (h : writeReport pg env evidenceByHash run report verifications = .ok t) :
    t.report = reportRow t.report.id run report ∧
      List.Forall₂ (fun i (item : ReportItem × Nat) => ItemWritten pg env t.report.id
        (indexVerifications verifications) item.2 item.1 i) t.items report.items.zipIdx ∧
      ∃ k, Drawn env 0 k (t.report.id :: t.items.flatMap ItemRows.ids) := by
  unfold writeReport at h
  dsimp only at h
  split at h
  · cases h
  · rename_i items k hitems
    obtain rfl := Except.ok.inj h
    obtain ⟨hwritten, hdrawn⟩ := persistItems_written hitems
    exact ⟨rfl, hwritten, k, (drawn_one 0).append hdrawn⟩

section Written

variable (h : List.Forall₂ (fun i (item : ReportItem × Nat) => ItemWritten pg env t.report.id
  (indexVerifications verifications) item.2 item.1 i) t.items report.items.zipIdx)

include h

/-- Every item row was written for an item of the report. -/
theorem item_written {i : ItemRows} (hi : i ∈ t.items) : ∃ item ∈ report.items, ∃ rank,
    ItemWritten pg env t.report.id (indexVerifications verifications) rank item i := by
  obtain ⟨⟨item, rank⟩, hmem, hw⟩ := Joins.forall₂_left h hi
  exact ⟨item, List.fst_mem_of_mem_zipIdx hmem, rank, hw⟩

/-- Every claim row was written for a claim of its item. -/
theorem claim_written {i : ItemRows} (hi : i ∈ t.items) {c : ClaimRows} (hc : c ∈ i.claims) :
    ∃ (verification : Option ClaimVerification) (ordinal : Nat) (claim : ReportClaim),
      ClaimWritten env i.item.noticeVersionId t.report.id i.item.id verification ordinal claim c := by
  obtain ⟨item, -, rank, hw⟩ := item_written h hi
  obtain ⟨claim, -, hcw⟩ := Joins.forall₂_left hw.claims hc
  exact ⟨_, _, _, hcw⟩

theorem rooted_of_written : Rooted t := by
  constructor
  · intro i hi
    obtain ⟨item, -, rank, hw⟩ := item_written h hi
    rw [hw.row]
    rfl
  · intro i hi
    obtain ⟨item, -, rank, hw⟩ := item_written h hi
    exact hw.citations.parent
  · intro i hi c hc
    obtain ⟨_, ordinal, claim, hcw⟩ := claim_written h hi hc
    rw [hcw.row]
  · intro c hc v hv
    obtain ⟨i, hi, hci⟩ := List.mem_flatMap.mp hc
    obtain ⟨_, ordinal, claim, hcw⟩ := claim_written h hi hci
    obtain ⟨id, hverdict⟩ := hcw.verdict
    rw [hverdict, Option.mem_toList, Option.map_eq_some_iff] at hv
    obtain ⟨w, -, rfl⟩ := hv
    rfl
  · intro c hc
    obtain ⟨i, hi, hci⟩ := List.mem_flatMap.mp hc
    obtain ⟨_, ordinal, claim, hcw⟩ := claim_written h hi hci
    exact hcw.citations.parent

end Written

theorem commit_ok (h : commit db t = .ok db') :
    db'.base = db.base ∧ db'.rows = db.rows.append t.rows := by
  unfold commit at h
  split at h
  · obtain rfl := Except.ok.inj h
    exact ⟨rfl, rfl⟩
  · cases h

/-- A new key is not among the old ones. -/
theorem not_mem_old {α : Type} {key : α → Uuid} {old new : List α}
    (h : ((old ++ new).map key).Nodup) {a : α} (ha : a ∈ new) : key a ∉ old.map key := by
  intro hmem
  rw [List.map_append] at h
  exact (List.nodup_append.mp h).2.2 _ hmem _ (List.mem_map_of_mem ha) rfl

/-- The rows of a new tree hang below none of the stored rows. -/
theorem apart_of_commit (hr : Rooted t) (h : commit db t = .ok db') : Apart db.rows t.rows := by
  obtain ⟨-, hrows⟩ := commit_ok h
  have hc := db'.constraints
  rw [hrows] at hc
  have hitem : ∀ i ∈ t.items, i.item.id ∉ db.rows.items.map (·.id) := fun i hi =>
    not_mem_old hc.itemId (List.mem_map_of_mem hi)
  have hclaim : ∀ c ∈ t.claims, c.claim.id ∉ db.rows.claims.map (·.id) := fun c hcl =>
    not_mem_old hc.claimId (List.mem_map_of_mem hcl)
  constructor
  · intro i hi
    obtain ⟨j, hj, rfl⟩ := List.mem_map.mp hi
    rw [hr.item j hj]
    exact not_mem_old hc.reportId (List.mem_singleton_self _)
  · intro c hcit
    obtain ⟨i, hi, hci⟩ := List.mem_flatMap.mp hcit
    rw [hr.citation i hi c hci]
    exact hitem i hi
  · intro c hcl
    obtain ⟨ct, hct, rfl⟩ := List.mem_map.mp hcl
    obtain ⟨i, hi, hci⟩ := List.mem_flatMap.mp hct
    rw [hr.claim i hi ct hci]
    exact hitem i hi
  · intro v hv
    obtain ⟨ct, hct, hvt⟩ := List.mem_flatMap.mp hv
    rw [hr.verification ct hct v hvt]
    exact hclaim ct hct
  · intro x hx
    obtain ⟨ct, hct, hxt⟩ := List.mem_flatMap.mp hx
    rw [hr.claimCitation ct hct x hxt]
    exact hclaim ct hct

theorem grown_of_commit (hr : Rooted t) (h : commit db t = .ok db') : Grown db db' := by
  obtain ⟨hbase, hrows⟩ := commit_ok h
  exact ⟨⟨t.rows, hrows, apart_of_commit hr h⟩, ⟨[], by rw [hbase, List.append_nil]⟩⟩

/-! ## Reading the tree back -/

/-- `t` is the tree of this report, written on evidence that was stored, and
committed. -/
structure Stored (pg : Pg) (env : Env) (db db' : Db) (run : Uuid) (report : Report)
    (verifications : List ClaimVerification) (t : ReportRows) : Prop where
  committed : commit db t = .ok db'
  row : t.report = reportRow t.report.id run report
  written : List.Forall₂ (fun i (item : ReportItem × Nat) => ItemWritten pg env t.report.id
    (indexVerifications verifications) item.2 item.1 i) t.items report.items.zipIdx
  seen : ∀ k, ∀ e ∈ env.evidence k, e ∈ db.base.evidence

namespace Stored

variable (hs : Stored pg env db db' run report verifications t)

include hs

theorem rooted : Rooted t := rooted_of_written hs.written

theorem constraints : Constraints db.base (db.rows.append t.rows) := by
  obtain ⟨hbase, hrows⟩ := commit_ok hs.committed
  have hc := db'.constraints
  rwa [hbase, hrows] at hc

theorem spanHash_names {version id : Uuid} {evidenceHash : String}
    (h : Names env version evidenceHash id) : spanHash db'.base id = some evidenceHash := by
  obtain ⟨k, e, he, rfl, -, rfl⟩ := h
  have hfound := Joins.first_unique db.constraints.evidenceId (hs.seen k e he)
  unfold spanHash
  rw [(commit_ok hs.committed).1, hfound]
  rfl

theorem itemRows : itemRowsOf db'.rows t.report.id = t.items.map (·.item) := by
  have hc := hs.constraints
  have hnone : db.rows.items.filter (·.reportId = t.report.id) = [] := by
    rw [List.filter_eq_nil_iff]
    intro i hi hid
    rw [decide_eq_true_eq] at hid
    have hold := db.constraints.itemReport i hi
    rw [hid] at hold
    exact not_mem_old hc.reportId (List.mem_singleton_self t.report) hold
  have hall : (t.items.map (·.item)).filter (·.reportId = t.report.id) = t.items.map (·.item) := by
    rw [List.filter_eq_self]
    intro i hi
    obtain ⟨j, hj, rfl⟩ := List.mem_map.mp hi
    rw [decide_eq_true_eq]
    exact hs.rooted.item j hj
  have hlt : ((t.items.map (·.item)).map (·.rank)).Pairwise (· < ·) := by
    rw [List.map_map]
    have hranks : t.items.map ((·.rank) ∘ (·.item)) = List.range' 0 t.items.length := by
      refine Joins.forall₂_numbered hs.written fun i item hw => ?_
      rw [Function.comp_apply, hw.row]
      rfl
    rw [hranks]
    exact List.pairwise_lt_range'
  have hsorted : (t.items.map (·.item)).Pairwise fun a b : ItemRow =>
      toLex (a.rank, a.id) ≤ toLex (b.rank, b.id) :=
    (List.pairwise_map.mp hlt).imp fun hab => Prod.Lex.le_iff.mpr (Or.inl hab)
  have hnodup : ((t.items.map (·.item)).map fun i : ItemRow => toLex (i.rank, i.id)).Nodup := by
    have hids : ((t.items.map (·.item)).map (·.id)).Nodup :=
      hc.itemId.sublist ((List.sublist_append_right _ _).map _)
    refine List.Nodup.of_map (fun k => (ofLex k).2) ?_
    rw [List.map_map]
    exact hids
  unfold itemRowsOf
  rw [(commit_ok hs.committed).2, Rows.append, List.filter_append, hnone, List.nil_append]
  show orderBy _ ((t.items.map (·.item)).filter _) = _
  rw [hall]
  exact Joins.orderBy_sorted_eq hnodup hsorted

theorem itemId_new {i : ItemRows} (hi : i ∈ t.items) : i.item.id ∉ db.rows.items.map (·.id) :=
  not_mem_old hs.constraints.itemId (List.mem_map_of_mem hi)

theorem claimId_new {c : ClaimRows} (hc : c ∈ t.claims) : c.claim.id ∉ db.rows.claims.map (·.id) :=
  not_mem_old hs.constraints.claimId (List.mem_map_of_mem hc)

theorem itemIds_nodup : (t.items.map (·.item.id)).Nodup := by
  have hids := hs.constraints.itemId.sublist ((List.sublist_append_right _ _).map _)
  rw [show t.rows.items = t.items.map (·.item) from rfl, List.map_map] at hids
  exact hids

theorem claimIds_nodup : (t.claims.map (·.claim.id)).Nodup := by
  have hids := hs.constraints.claimId.sublist ((List.sublist_append_right _ _).map _)
  rw [show t.rows.claims = t.claims.map (·.claim) from rfl, List.map_map] at hids
  exact hids

/-- The citation rows of one item, out of those of all items of the report. -/
theorem citationRows {ids : List Uuid} {i : ItemRows} {item : ReportItem × Nat} (hi : i ∈ t.items)
    (hin : i.item.id ∈ ids) (hw : ItemWritten pg env t.report.id
      (indexVerifications verifications) item.2 item.1 i) :
    (orderBy citationKey (db'.rows.citations.filter fun c => ids.contains c.reportItemId)).filter
      (·.reportItemId = i.item.id) = i.citations := by
  have hc := hs.constraints
  have hold : ∀ c ∈ db.rows.citations, c.reportItemId ≠ i.item.id := by
    intro c hmem heq
    exact hs.itemId_new hi (heq ▸ db.constraints.citationItem c hmem)
  rw [(commit_ok hs.committed).2]
  exact Joins.select_children CitationRow.reportItemId CitationRow.ordinal CitationRow.id
    hc.citationId hold hs.itemIds_nodup hs.rooted.citation hi hin hw.citations.ordinals

/-- The claim rows of one item, out of those of all items of the report. -/
theorem claimRows {ids : List Uuid} {i : ItemRows} {item : ReportItem × Nat} (hi : i ∈ t.items)
    (hin : i.item.id ∈ ids) (hw : ItemWritten pg env t.report.id
      (indexVerifications verifications) item.2 item.1 i) :
    (claimRowsOf db'.rows ids).filter (·.reportItemId = i.item.id) = i.claims.map (·.claim) := by
  have hc := hs.constraints
  have hold : ∀ c ∈ db.rows.claims, c.reportItemId ≠ i.item.id := by
    intro c hmem heq
    exact hs.itemId_new hi (heq ▸ db.constraints.claimItem c hmem)
  have hflat : t.rows.claims = t.items.flatMap fun i => i.claims.map (·.claim) := by
    show (t.items.flatMap (·.claims)).map (·.claim) = _
    rw [List.map_flatMap]
  have hparent : ∀ j ∈ t.items, ∀ c ∈ j.claims.map (·.claim), c.reportItemId = j.item.id := by
    intro j hj c hmem
    obtain ⟨ct, hct, rfl⟩ := List.mem_map.mp hmem
    exact hs.rooted.claim j hj ct hct
  have hclaimId := hc.claimId
  have hordinals : (i.claims.map (·.claim)).map ClaimRow.ordinal =
      List.range' 0 (i.claims.map (·.claim)).length := by
    rw [List.map_map, List.length_map]
    refine Joins.forall₂_numbered hw.claims fun c claim hcw => ?_
    rw [Function.comp_apply, hcw.row]
  rw [Rows.append, hflat] at hclaimId
  unfold claimRowsOf
  rw [(commit_ok hs.committed).2, Rows.append, hflat]
  exact Joins.select_children ClaimRow.reportItemId ClaimRow.ordinal ClaimRow.id
    hclaimId hold hs.itemIds_nodup hparent hi hin hordinals

/-- The citations of one claim, out of those of all claims of the report. -/
theorem claimCitationRows {ids : List Uuid} {c : ClaimRows} {s : Nat} (hcl : c ∈ t.claims)
    (hin : c.claim.id ∈ ids)
    (ho : c.citations.map (·.ordinal) = List.range' s c.citations.length) :
    (orderBy claimCitationKey
      (db'.rows.claimCitations.filter fun x => ids.contains x.reportClaimId)).filter
        (·.reportClaimId = c.claim.id) = c.citations := by
  have hc := hs.constraints
  have hold : ∀ x ∈ db.rows.claimCitations, x.reportClaimId ≠ c.claim.id := by
    intro x hmem heq
    exact hs.claimId_new hcl (heq ▸ db.constraints.claimCitationClaim x hmem)
  rw [(commit_ok hs.committed).2]
  exact Joins.select_children ClaimCitationRow.reportClaimId ClaimCitationRow.ordinal
    ClaimCitationRow.id hc.claimCitationId hold hs.claimIds_nodup hs.rooted.claimCitation hcl hin ho

theorem join_citations {version : Uuid} {rows : List CitationRow} {citations : List ReportCitation}
    (h : List.Forall₂ (fun row citation => row.label = citation.label ∧
      Names env version citation.evidenceId row.evidenceId) rows citations) :
    ((rows.filterMap fun c => (spanHash db'.base c.evidenceId).map (c, ·)).map
      fun c => (⟨c.2, c.1.label⟩ : ReportCitation)) = citations := by
  induction h with
  | nil => rfl
  | cons hc _ ih =>
    rw [List.filterMap_cons, hs.spanHash_names hc.2, Option.map_some, List.map_cons, ih, hc.1]

theorem join_claimCitations {version : Uuid} {rows : List ClaimCitationRow}
    {citationIds : List String} (h : List.Forall₂ (fun row evidenceHash =>
      Names env version evidenceHash row.evidenceId) rows citationIds) :
    ((rows.filterMap fun c => (spanHash db'.base c.evidenceId).map (c.reportClaimId, ·)).map
      (·.2)) = citationIds := by
  induction h with
  | nil => rfl
  | cons hc _ ih =>
    rw [List.filterMap_cons, hs.spanHash_names hc, Option.map_some, List.map_cons, ih]

/-- Every claim gets its own citations back. -/
theorem citationIds {ids : List Uuid} {version reportId itemId : Uuid}
    {verification : Option ClaimVerification} {ordinal : Nat} {claim : ReportClaim} {c : ClaimRows}
    (hcl : c ∈ t.claims) (hin : c.claim.id ∈ ids)
    (hw : ClaimWritten env version reportId itemId verification ordinal claim c) :
    (((claimCitationRowsOf db' ids).filter (·.1 = c.claim.id)).map (·.2)) = claim.citationIds := by
  unfold claimCitationRowsOf
  rw [Joins.filter_join (fun x : ClaimCitationRow => spanHash db'.base x.evidenceId)
    (fun x hash => (x.reportClaimId, hash)) (·.1 = c.claim.id) (·.reportClaimId = c.claim.id)
    fun _ _ => rfl, hs.claimCitationRows hcl hin hw.citations.ordinals]
  exact hs.join_claimCitations hw.citations.bound

omit hs in
theorem domainClaim_written {version reportId itemId : Uuid}
    {verification : Option ClaimVerification} {ordinal : Nat} {claim : ReportClaim} {c : ClaimRows}
    (hw : ClaimWritten env version reportId itemId verification ordinal claim c) :
    domainClaim c.claim claim.citationIds = .ok (some (storedClaim verification claim)) := by
  unfold domainClaim
  rw [dif_neg claim.hasCitations, dif_pos claim.distinctCitations]
  have htext : c.claim.text = claim.text := by rw [hw.row]
  have hstatus : c.claim.supportStatus = storedStatus verification claim := by rw [hw.row]
  simp only [htext, hstatus]
  rfl

omit hs in
theorem domainClaims_written {version reportId itemId : Uuid}
    {byOrdinal : Nat → Option ClaimVerification} {citationIds : Uuid → List String}
    {rows : List ClaimRows} {claims : List (ReportClaim × Nat)}
    (h : List.Forall₂ (fun c (claim : ReportClaim × Nat) => ClaimWritten env version reportId itemId
      (byOrdinal claim.2) claim.2 claim.1 c ∧ citationIds c.claim.id = claim.1.citationIds)
      rows claims) :
    domainClaims citationIds (rows.map (·.claim)) =
      .ok (claims.map fun claim => storedClaim (byOrdinal claim.2) claim.1) := by
  induction h with
  | nil => rfl
  | cons hc _ ih =>
    rw [List.map_cons, domainClaims, hc.2, domainClaim_written hc.1, ih]
    rfl

omit hs in
theorem storedItem_row {reportId : Uuid} {byItem : Dict String (Dict Nat ClaimVerification)}
    {rank : Nat} {item : ReportItem} {i : ItemRows}
    (hw : ItemWritten pg env reportId byItem rank item i) :
    storedItem pg (indexed byItem item.noticeId) item = {
      noticeId := pg.uuidStr i.item.noticeVersionId
      title := i.item.title
      knownFields := jsonObject pg i.item.knownFields
      unknownFields := i.item.unknownFields
      relevanceReason := i.item.relevanceReason
      riskNote := i.item.riskNote
      citations := item.citations
      claims := item.claims.zipIdx.map fun claim =>
        storedClaim (indexed byItem item.noticeId claim.2) claim.1 } := by
  have hid : canonicalUuid pg item.noticeId = pg.uuidStr i.item.noticeVersionId := by
    unfold canonicalUuid
    rw [hw.version]
    rfl
  unfold storedItem
  rw [hid, hw.row]
  rfl

omit hs in
/-- Items whose own rows are selected come back as they were written. -/
theorem domainItems_written {reportId : Uuid} {byItem : Dict String (Dict Nat ClaimVerification)}
    {citationRows : List (CitationRow × String)} {claimRows : List ClaimRow}
    {citationIds : Uuid → List String} {rows : List ItemRows} {items : List (ReportItem × Nat)}
    (h : List.Forall₂ (fun i (item : ReportItem × Nat) =>
      ItemWritten pg env reportId byItem item.2 item.1 i ∧
      ((citationRows.filter (·.1.reportItemId = i.item.id)).map fun c =>
        (⟨c.2, c.1.label⟩ : ReportCitation)) = item.1.citations ∧
      domainClaims citationIds (claimRows.filter (·.reportItemId = i.item.id)) =
        .ok (item.1.claims.zipIdx.map fun claim =>
          storedClaim (indexed byItem item.1.noticeId claim.2) claim.1)) rows items) :
    domainItems pg citationRows claimRows citationIds (rows.map (·.item)) =
      .ok (items.map fun item => storedItem pg (indexed byItem item.1.noticeId) item.1) := by
  induction h with
  | nil => rfl
  | cons hi _ ih =>
    obtain ⟨hw, hcitations, hclaims⟩ := hi
    rw [List.map_cons, domainItems, hclaims, ih, hcitations, List.map_cons, storedItem_row hw]

/-- The claims of an item are among those of all items. -/
theorem mem_claimIds {ids : List Uuid} {i : ItemRows} {item : ReportItem × Nat} (hi : i ∈ t.items)
    (hin : i.item.id ∈ ids) (hw : ItemWritten pg env t.report.id
      (indexVerifications verifications) item.2 item.1 i) {c : ClaimRows} (hc : c ∈ i.claims) :
    c.claim.id ∈ (claimRowsOf db'.rows ids).map (·.id) := by
  have hmem : c.claim ∈ (claimRowsOf db'.rows ids).filter (·.reportItemId = i.item.id) := by
    rw [hs.claimRows hi hin hw]
    exact List.mem_map_of_mem hc
  exact List.mem_map_of_mem (List.mem_of_mem_filter hmem)

/-- Every item gets its own citations back. -/
theorem itemCitations {ids : List Uuid} {i : ItemRows} {item : ReportItem × Nat} (hi : i ∈ t.items)
    (hin : i.item.id ∈ ids) (hw : ItemWritten pg env t.report.id
      (indexVerifications verifications) item.2 item.1 i) :
    (((citationRowsOf db' ids).filter (·.1.reportItemId = i.item.id)).map fun c =>
      (⟨c.2, c.1.label⟩ : ReportCitation)) = item.1.citations := by
  unfold citationRowsOf
  rw [Joins.filter_join (fun c : CitationRow => spanHash db'.base c.evidenceId) Prod.mk
    (·.1.reportItemId = i.item.id) (·.reportItemId = i.item.id) fun _ _ => rfl,
    hs.citationRows hi hin hw]
  exact hs.join_citations hw.citations.bound

/-- Every item gets its own claims back. -/
theorem itemClaims {ids : List Uuid} {i : ItemRows} {item : ReportItem × Nat} (hi : i ∈ t.items)
    (hin : i.item.id ∈ ids) (hw : ItemWritten pg env t.report.id
      (indexVerifications verifications) item.2 item.1 i) :
    domainClaims (fun claimId => ((claimCitationRowsOf db'
        ((claimRowsOf db'.rows ids).map (·.id))).filter (·.1 = claimId)).map (·.2))
      ((claimRowsOf db'.rows ids).filter (·.reportItemId = i.item.id)) =
        .ok (item.1.claims.zipIdx.map fun claim =>
          storedClaim (indexed (indexVerifications verifications) item.1.noticeId claim.2)
            claim.1) := by
  rw [hs.claimRows hi hin hw]
  refine domainClaims_written (Joins.forall₂_of_mem hw.claims fun c hc claim hcw => ⟨hcw, ?_⟩)
  exact hs.citationIds (List.mem_flatMap_of_mem hi hc) (hs.mem_claimIds hi hin hw hc) hcw

theorem projectItems_stored : projectItems pg db' t.report.id = .ok (report.items.map fun item =>
    storedItem pg (indexed (indexVerifications verifications) item.noticeId) item) := by
  unfold projectItems
  dsimp only
  rw [hs.itemRows]
  generalize hids : ((t.items.map (·.item)).map (·.id)) = ids
  have hin : ∀ i ∈ t.items, i.item.id ∈ ids := by
    intro i hi
    rw [← hids]
    exact List.mem_map_of_mem (List.mem_map_of_mem hi)
  have hfst : report.items.zipIdx.map (fun item =>
      storedItem pg (indexed (indexVerifications verifications) item.1.noticeId) item.1) =
      report.items.map fun item =>
        storedItem pg (indexed (indexVerifications verifications) item.noticeId) item := by
    rw [← List.zipIdx_map_fst 0 report.items, List.map_map]
    simp
  rw [← hfst]
  refine domainItems_written (Joins.forall₂_of_mem hs.written fun i hi item hw => ⟨hw, ?_, ?_⟩)
  · exact hs.itemCitations hi (hin i hi) hw
  · exact hs.itemClaims hi (hin i hi) hw

theorem project_stored (hrun : pg.parseUuid report.runId = some run) :
    project pg db' t.report =
      .ok ⟨pg.uuidStr t.report.id, storedReport pg verifications report, none⟩ := by
  have hid : canonicalUuid pg report.runId = pg.uuidStr run := by
    unfold canonicalUuid
    rw [hrun]
    rfl
  unfold project
  rw [hs.projectItems_stored, hs.row]
  unfold storedReport
  rw [hid]
  rfl

/-- The verdict rows of one claim. -/
theorem verificationRows {c : ClaimRows} (hc : c ∈ t.claims) :
    db'.rows.verifications.filter (·.reportClaimId = c.claim.id) = c.verification.toList := by
  have hnone : db.rows.verifications.filter (·.reportClaimId = c.claim.id) = [] := by
    rw [List.filter_eq_nil_iff]
    intro v hv hid
    rw [decide_eq_true_eq] at hid
    exact hs.claimId_new hc (hid ▸ db.constraints.verificationClaim v hv)
  rw [(commit_ok hs.committed).2, Rows.append, List.filter_append, hnone, List.nil_append]
  exact Joins.filter_children hs.claimIds_nodup hs.rooted.verification hc

end Stored

/-! ## The same report -/

/-- Two objects with the same fields. -/
def SameObject (a b : List (String × String)) : Prop :=
  ∀ k, (Dict.ofList a).get k = (Dict.ofList b).get k

/-- The status a claim comes back with: its verdict's, where one was supplied. -/
def suppliedStatus (verifications : List ClaimVerification) (noticeId : String) (ordinal : Nat)
    (claim : ReportClaim) : Option ClaimSupportStatus :=
  match verdictFor verifications noticeId ordinal with
  | some verdict => some verdict.status
  | none => claim.supportStatus

structure SameClaim (verifications : List ClaimVerification) (noticeId : String) (ordinal : Nat)
    (claim loaded : ReportClaim) : Prop where
  text : loaded.text = claim.text
  citationIds : loaded.citationIds = claim.citationIds
  supportStatus : loaded.supportStatus = suppliedStatus verifications noticeId ordinal claim

structure SameItem (pg : Pg) (verifications : List ClaimVerification) (item loaded : ReportItem) :
    Prop where
  noticeId : loaded.noticeId = canonicalUuid pg item.noticeId
  title : loaded.title = item.title
  knownFields : SameObject loaded.knownFields item.knownFields
  unknownFields : loaded.unknownFields = item.unknownFields
  relevanceReason : loaded.relevanceReason = item.relevanceReason
  riskNote : loaded.riskNote = item.riskNote
  citations : loaded.citations = item.citations
  claims : List.Forall₂ (fun l (claim : ReportClaim × Nat) =>
    SameClaim verifications item.noticeId claim.2 claim.1 l) loaded.claims item.claims.zipIdx

structure SameReport (pg : Pg) (verifications : List ClaimVerification) (report loaded : Report) :
    Prop where
  runId : loaded.runId = canonicalUuid pg report.runId
  generatedAt : loaded.generatedAt.utc = report.generatedAt.utc
  queryConditions : SameObject loaded.queryConditions report.queryConditions
  freshnessWindow : loaded.freshnessWindow = report.freshnessWindow
  sourceAvailability : loaded.sourceAvailability = report.sourceAvailability
  completenessWarning : loaded.completenessWarning = report.completenessWarning
  items : List.Forall₂ (fun l item => SameItem pg verifications item l) loaded.items report.items

/-- A JSONB object keeps its fields. -/
theorem sameObject_jsonObject (pg : Pg) (fields : List (String × String)) :
    SameObject (jsonObject pg (.ofList fields)) fields := by
  intro k
  have hperm := pg.jsonPerm (Dict.ofList fields).entries
  have hnodup : ((jsonObject pg (.ofList fields)).map Prod.fst).Nodup :=
    (hperm.map Prod.fst).nodup_iff.mpr (Dict.ofList fields).distinct
  have hlookup : (Dict.ofList (jsonObject pg (.ofList fields))).get k =
      Dict.lookup k (jsonObject pg (.ofList fields)) := by
    rw [Dict.ofList, Dict.get_foldl_set k _ _ hnodup, Dict.get_empty, Option.or_none]
  rw [hlookup]
  refine Option.ext fun v => ?_
  rw [Dict.lookup_eq_some hnodup, ← Dict.mem_iff_get]
  exact hperm.mem_iff

theorem storedStatus_eq (verifications : List ClaimVerification) (noticeId : String) (ordinal : Nat)
    (claim : ReportClaim) :
    storedStatus (indexed (indexVerifications verifications) noticeId ordinal) claim =
      suppliedStatus verifications noticeId ordinal claim := by
  unfold suppliedStatus
  rw [← verification_indexed]
  cases indexed (indexVerifications verifications) noticeId ordinal <;> rfl

theorem sameItem_stored (pg : Pg) (verifications : List ClaimVerification) (item : ReportItem) :
    SameItem pg verifications item
      (storedItem pg (indexed (indexVerifications verifications) item.noticeId) item) where
  noticeId := rfl
  title := rfl
  knownFields := sameObject_jsonObject pg item.knownFields
  unknownFields := rfl
  relevanceReason := rfl
  riskNote := rfl
  citations := rfl
  claims := by
    refine List.forall₂_map_left_iff.mpr (List.forall₂_same.mpr fun claim _ => ?_)
    exact ⟨rfl, rfl, storedStatus_eq verifications item.noticeId claim.2 claim.1⟩

theorem sameReport_stored (pg : Pg) (verifications : List ClaimVerification) (report : Report) :
    SameReport pg verifications report (storedReport pg verifications report) where
  runId := rfl
  generatedAt := rfl
  queryConditions := sameObject_jsonObject pg report.queryConditions
  freshnessWindow := rfl
  sourceAvailability := rfl
  completenessWarning := rfl
  items := List.forall₂_map_left_iff.mpr
    (List.forall₂_same.mpr fun item _ => sameItem_stored pg verifications item)

end BidScope.L7
