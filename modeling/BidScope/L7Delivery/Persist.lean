import BidScope.L7Delivery.Rows

/-!
# Writing a report

`ReportPersistence.persist_online_report` (`delivery/reports.py`): one
transaction writes the report row, its items in order, and below each item its
citations, its claims, their verdicts and their citations.

**Statements.** `k` numbers what the transaction asks of the database. An `Env`
is how it answers: the id it draws for a row and the evidence table a `SELECT`
sees, which grows between two statements. A report tree is what was written; it
is checked against the constraints as a whole (`commit`): whichever statement
violates one, the transaction is rolled back.

* `resolveEvidence_ok`: a citation is bound to a stored row of its version with
  its hash.
* `persistItems_written`: what a transaction that ends has written.
* `verification_indexed`: the verdict filed for a claim is the last one under
  its key.
-/
namespace BidScope.L7

open BidScope.L1 BidScope.L2 KeyOrder

structure Env where
  draw : Nat → Uuid
  evidence : Nat → List EvidenceRow

/-! ## Trees of rows -/

structure ClaimRows where
  claim : ClaimRow
  verification : Option VerificationRow
  citations : List ClaimCitationRow

structure ItemRows where
  item : ItemRow
  citations : List CitationRow
  claims : List ClaimRows

structure ReportRows where
  report : ReportRow
  items : List ItemRows

def ReportRows.claims (t : ReportRows) : List ClaimRows := t.items.flatMap (·.claims)

def ReportRows.rows (t : ReportRows) : Rows where
  reports := [t.report]
  items := t.items.map (·.item)
  citations := t.items.flatMap (·.citations)
  claims := t.claims.map (·.claim)
  verifications := t.claims.flatMap (·.verification.toList)
  claimCitations := t.claims.flatMap (·.citations)

/-! ## The transaction -/

/-- The verdicts by notice id and claim ordinal.
mirrors delivery/reports.py:392-404 -/
def indexVerifications (verifications : List ClaimVerification) :
    Dict String (Dict Nat ClaimVerification) :=
  verifications.foldl (fun byItem entry => byItem.set entry.noticeId
    (((byItem.get entry.noticeId).getD .empty).set entry.claimIndex entry)) .empty

/-- `.get(item.notice_id, {}).get(ordinal)` -/
def indexed (byItem : Dict String (Dict Nat ClaimVerification)) (noticeId : String)
    (ordinal : Nat) : Option ClaimVerification :=
  ((byItem.get noticeId).getD .empty).get ordinal

variable (pg : Pg) (env : Env) (evidenceByHash : EvidenceById)

/-- mirrors delivery/reports.py:269-302 -/
def resolveEvidence (k : Nat) (noticeVersionId evidenceHash : String) :
    Except PersistError EvidenceRow :=
  let candidates := ((evidenceByHash.get evidenceHash).map Binding.candidates).getD []
  match candidates.find? (·.noticeVersionId == noticeVersionId) with
  | none => .error (.delivery "report citation is not bound to this notice version")
  | some _ =>
    match pg.parseUuid noticeVersionId with
    | none => .error .data
    | some version =>
      match (orderBy EvidenceRow.id ((env.evidence k).filter fun e =>
          e.noticeVersionId = version ∧ e.spanHash = evidenceHash)).head? with
      | none => .error (.delivery "report citation evidence is not persisted")
      | some persisted => .ok persisted

/-- The loop from `ordinal` on; `evidenceIds` are the rows bound so far by hash.
mirrors delivery/reports.py:184-205 -/
def persistItemCitations (itemId : Uuid) (item : ReportItem) :
    Nat → List ReportCitation → Dict String Uuid → Nat →
      Except PersistError (List CitationRow × Dict String Uuid × Nat)
  | _, [], evidenceIds, k => .ok ([], evidenceIds, k)
  | ordinal, citation :: rest, evidenceIds, k =>
    match resolveEvidence pg env evidenceByHash k item.noticeId citation.evidenceId with
    | .error e => .error e
    | .ok evidence =>
      match persistItemCitations itemId item (ordinal + 1) rest
          (evidenceIds.set citation.evidenceId evidence.id) (k + 2) with
      | .error e => .error e
      | .ok (rows, evidenceIds, k') => .ok ({
          id := env.draw (k + 1)
          reportItemId := itemId
          ordinal
          evidenceId := evidence.id
          label := citation.label
          spanStart := some evidence.start
          spanEnd := some evidence.stop } :: rows, evidenceIds, k')

/-- mirrors delivery/reports.py:262-267 -/
def citationLabel (item : ReportItem) (evidenceHash : String) : Option String :=
  (item.citations.find? (·.evidenceId == evidenceHash)).bind (·.label)

/-- The row of one citation of a claim: one bound already, or a new one. -/
def claimEvidence (item : ReportItem) (evidenceHash : String) (evidenceIds : Dict String Uuid)
    (k : Nat) : Except PersistError (Uuid × Dict String Uuid) :=
  match evidenceIds.get evidenceHash with
  | some evidenceId => .ok (evidenceId, evidenceIds)
  | none =>
    match resolveEvidence pg env evidenceByHash k item.noticeId evidenceHash with
    | .error e => .error e
    | .ok evidence => .ok (evidence.id, evidenceIds.set evidenceHash evidence.id)

/-- The loop over `citation_ids` from `ordinal` on. -/
def persistClaimCitations (claimId : Uuid) (item : ReportItem) :
    List String → Nat → List String → Dict String Uuid → Nat →
      Except PersistError (List ClaimCitationRow × Dict String Uuid × Nat)
  | _, _, [], evidenceIds, k => .ok ([], evidenceIds, k)
  | seen, ordinal, evidenceHash :: rest, evidenceIds, k =>
    if evidenceHash ∈ seen then persistClaimCitations claimId item seen ordinal rest evidenceIds k
    else
      match claimEvidence pg env evidenceByHash item evidenceHash evidenceIds k with
      | .error e => .error e
      | .ok (evidenceId, evidenceIds) =>
        match persistClaimCitations claimId item (evidenceHash :: seen) (ordinal + 1) rest
            evidenceIds (k + 2) with
        | .error e => .error e
        | .ok (rows, evidenceIds, k') => .ok ({
            id := env.draw (k + 1)
            reportClaimId := claimId
            ordinal
            evidenceId
            label := citationLabel item evidenceHash } :: rows, evidenceIds, k')

/-- The status a claim is stored with. -/
def storedStatus (verification : Option ClaimVerification) (claim : ReportClaim) :
    Option ClaimSupportStatus :=
  match verification with
  | some v => some v.verification.status
  | none => claim.supportStatus

def verificationRow (id reportClaimId reportId : Uuid) (verdict : ClaimSupportVerification) :
    VerificationRow where
  id := id
  reportClaimId := reportClaimId
  reportId := reportId
  status := verdict.status
  rationale := verdict.rationale
  evidenceIdsUsed := verdict.evidenceIdsUsed
  conflictEvidenceIds := verdict.conflictEvidenceIds
  verifierVersion := verdict.verifierVersion

/-- The loop from `ordinal` on.
mirrors delivery/reports.py:207-260 -/
def persistClaims (reportId itemId : Uuid) (item : ReportItem)
    (verifications : Nat → Option ClaimVerification) :
    Nat → List ReportClaim → Dict String Uuid → Nat → Except PersistError (List ClaimRows × Nat)
  | _, [], _, k => .ok ([], k)
  | ordinal, claim :: rest, evidenceIds, k =>
    let claimId := env.draw k
    match persistClaimCitations pg env evidenceByHash claimId item [] 0 claim.citationIds
        evidenceIds (k + 2) with
    | .error e => .error e
    | .ok (citations, evidenceIds, k') =>
      match persistClaims reportId itemId item verifications (ordinal + 1) rest evidenceIds k' with
      | .error e => .error e
      | .ok (rows, k'') => .ok ({
          claim := {
            id := claimId
            reportItemId := itemId
            ordinal
            text := claim.text
            supportStatus := storedStatus (verifications ordinal) claim }
          verification := (verifications ordinal).map fun v =>
            verificationRow (env.draw (k + 1)) claimId reportId v.verification
          citations } :: rows, k'')

def itemRow (id reportId : Uuid) (rank : Nat) (noticeVersionId : Uuid) (item : ReportItem) :
    ItemRow where
  id := id
  reportId := reportId
  rank := rank
  noticeVersionId := noticeVersionId
  title := item.title
  knownFields := .ofList item.knownFields
  unknownFields := item.unknownFields
  relevanceReason := item.relevanceReason
  riskNote := item.riskNote

/-- The loop over the items from `rank` on.
mirrors delivery/reports.py:112-136 -/
def persistItems (reportId : Uuid) (byItem : Dict String (Dict Nat ClaimVerification)) :
    Nat → List ReportItem → Nat → Except PersistError (List ItemRows × Nat)
  | _, [], k => .ok ([], k)
  | rank, item :: rest, k =>
    match pg.parseUuid item.noticeId with
    | none => .error .data
    | some version =>
      let itemId := env.draw k
      match persistItemCitations pg env evidenceByHash itemId item 0 item.citations .empty
          (k + 1) with
      | .error e => .error e
      | .ok (citations, evidenceIds, k') =>
        match persistClaims pg env evidenceByHash reportId itemId item
            (indexed byItem item.noticeId) 0 item.claims evidenceIds k' with
        | .error e => .error e
        | .ok (claims, k'') =>
          match persistItems reportId byItem (rank + 1) rest k'' with
          | .error e => .error e
          | .ok (rows, k''') =>
            .ok (⟨itemRow itemId reportId rank version item, citations, claims⟩ :: rows, k''')

def reportRow (id run : Uuid) (report : Report) : ReportRow where
  id := id
  runId := run
  conditions := .ofList report.queryConditions
  freshnessWindow := report.freshnessWindow
  sourceAvailability := report.sourceAvailability
  completenessWarning := report.completenessWarning
  generatedAt := report.generatedAt.utc

/-- mirrors delivery/reports.py:100-136 -/
def writeReport (run : Uuid) (report : Report) (verifications : List ClaimVerification) :
    Except PersistError ReportRows :=
  let row := reportRow (env.draw 0) run report
  match persistItems pg env evidenceByHash row.id (indexVerifications verifications) 0
      report.items 1 with
  | .error e => .error e
  | .ok (items, _) => .ok ⟨row, items⟩

/-! ## The commit -/

/-- The transaction's rows join those stored, unless they violate a constraint. -/
def commit (db : Db) (t : ReportRows) : Except PersistError Db :=
  if h : Constraints db.base (db.rows.append t.rows) then .ok ⟨db.base, db.rows.append t.rows, h⟩
  else .error .integrity

/-- After an `IntegrityError`: another transaction may have stored the report.
mirrors delivery/reports.py:143-149 -/
def afterIntegrityError (db : Db) (run : Uuid) : Except PersistError PersistedReport :=
  match findByRunId db.rows run with
  | none => .error .integrity
  | some row => project pg db row

/-- A call that runs alone: its result and what is stored after it.
mirrors delivery/reports.py:73-149 -/
def persistOnlineReport (draw : Nat → Uuid) (db : Db) (report : Report)
    (verifications : List ClaimVerification) : Except PersistError PersistedReport × Db :=
  match pg.parseUuid report.runId with
  | none => (.error .data, db)
  | some run =>
    match findByRunId db.rows run with
    | some row => (project pg db row, db)
    | none =>
      match writeReport pg ⟨draw, fun _ => db.base.evidence⟩ evidenceByHash run report
          verifications with
      | .error e => (.error e, db)
      | .ok t =>
        match commit db t with
        | .error _ => (afterIntegrityError pg db run, db)
        | .ok db' => (.ok ⟨pg.uuidStr t.report.id, report, t.report.docxObjectKey⟩, db')

/-- The verdict filed under a claim's key is the last one that has it. -/
theorem verification_indexed (verifications : List ClaimVerification) (noticeId : String)
    (ordinal : Nat) :
    (indexed (indexVerifications verifications) noticeId ordinal).map (·.verification) =
      verdictFor verifications noticeId ordinal := by
  induction verifications using List.reverseRecOn with
  | nil => rfl
  | append_singleton entries entry ih =>
    have hsnoc : indexVerifications (entries ++ [entry]) =
        (indexVerifications entries).set entry.noticeId
          ((((indexVerifications entries).get entry.noticeId).getD .empty).set entry.claimIndex
            entry) := by
      rw [indexVerifications, List.foldl_append]
      rfl
    unfold indexed verdictFor at *
    rw [hsnoc, Dict.get_set, List.reverse_append, List.reverse_singleton, List.singleton_append]
    by_cases hn : entry.noticeId = noticeId
    · by_cases hi : entry.claimIndex = ordinal
      · simp [hn, hi]
      · rw [List.find?_cons_of_neg (by simp [hi])]
        simp only [hn, if_true, Option.getD_some, Dict.get_set, if_neg hi]
        exact ih
    · rw [List.find?_cons_of_neg (by simp [hn]), if_neg hn]
      exact ih

/-! ## What was written -/

/-- The row named is one the transaction saw, of this version and with this hash. -/
def Names (env : Env) (version : Uuid) (evidenceHash : String) (evidenceId : Uuid) : Prop :=
  ∃ k, ∃ e ∈ env.evidence k, e.id = evidenceId ∧ e.noticeVersionId = version ∧
    e.spanHash = evidenceHash

/-- Every row bound so far is named by its hash. -/
def Bound (env : Env) (version : Uuid) (evidenceIds : Dict String Uuid) : Prop :=
  ∀ evidenceHash id, evidenceIds.get evidenceHash = some id → Names env version evidenceHash id

/-- These ids were drawn in order by the statements from `k` to `k'`. -/
def Drawn (env : Env) (k k' : Nat) (ids : List Uuid) : Prop :=
  k ≤ k' ∧ ids.Sublist ((List.range' k (k' - k)).map env.draw)

structure CitationsWritten (env : Env) (version itemId : Uuid) (ordinal : Nat)
    (citations : List ReportCitation) (rows : List CitationRow) : Prop where
  bound : List.Forall₂ (fun row citation => row.label = citation.label ∧
    Names env version citation.evidenceId row.evidenceId) rows citations
  parent : ∀ row ∈ rows, row.reportItemId = itemId
  ordinals : rows.map (·.ordinal) = List.range' ordinal rows.length

structure ClaimCitationsWritten (env : Env) (version claimId : Uuid) (ordinal : Nat)
    (citationIds : List String) (rows : List ClaimCitationRow) : Prop where
  bound : List.Forall₂ (fun row evidenceHash => Names env version evidenceHash row.evidenceId)
    rows citationIds
  parent : ∀ row ∈ rows, row.reportClaimId = claimId
  ordinals : rows.map (·.ordinal) = List.range' ordinal rows.length

structure ClaimWritten (env : Env) (version reportId itemId : Uuid)
    (verification : Option ClaimVerification) (ordinal : Nat) (claim : ReportClaim)
    (t : ClaimRows) : Prop where
  row : t.claim = {
    id := t.claim.id
    reportItemId := itemId
    ordinal
    text := claim.text
    supportStatus := storedStatus verification claim }
  verdict : ∃ id, t.verification = verification.map fun v =>
    verificationRow id t.claim.id reportId v.verification
  citations : ClaimCitationsWritten env version t.claim.id 0 claim.citationIds t.citations

structure ItemWritten (pg : Pg) (env : Env) (reportId : Uuid)
    (byItem : Dict String (Dict Nat ClaimVerification)) (rank : Nat) (item : ReportItem)
    (t : ItemRows) : Prop where
  version : pg.parseUuid item.noticeId = some t.item.noticeVersionId
  row : t.item = itemRow t.item.id reportId rank t.item.noticeVersionId item
  citations : CitationsWritten env t.item.noticeVersionId t.item.id 0 item.citations t.citations
  claims : List.Forall₂ (fun c (claim : ReportClaim × Nat) =>
    ClaimWritten env t.item.noticeVersionId reportId t.item.id
      (indexed byItem item.noticeId claim.2) claim.2 claim.1 c) t.claims item.claims.zipIdx

def ClaimRows.ids (t : ClaimRows) : List Uuid :=
  t.claim.id :: (t.verification.toList.map (·.id) ++ t.citations.map (·.id))

def ItemRows.ids (t : ItemRows) : List Uuid :=
  t.item.id :: (t.citations.map (·.id) ++ t.claims.flatMap ClaimRows.ids)

variable {pg env evidenceByHash}

theorem drawn_nil {k k' : Nat} (h : k ≤ k') : Drawn env k k' [] := ⟨h, List.nil_sublist _⟩

theorem drawn_one (k : Nat) : Drawn env k (k + 1) [env.draw k] := by
  refine ⟨Nat.le_succ k, ?_⟩
  rw [show k + 1 - k = 1 by omega]
  exact List.Sublist.refl _

theorem Drawn.append {k₁ k₂ k₃ : Nat} {xs ys : List Uuid} (h₁ : Drawn env k₁ k₂ xs)
    (h₂ : Drawn env k₂ k₃ ys) : Drawn env k₁ k₃ (xs ++ ys) := by
  have hle₁ := h₁.1
  have hle₂ := h₂.1
  refine ⟨Nat.le_trans hle₁ hle₂, ?_⟩
  have hsplit : List.range' k₁ (k₃ - k₁) =
      List.range' k₁ (k₂ - k₁) ++ List.range' k₂ (k₃ - k₂) := by
    have hrange : List.range' k₁ (k₂ - k₁) ++ List.range' (k₁ + (k₂ - k₁)) (k₃ - k₂) =
        List.range' k₁ (k₂ - k₁ + (k₃ - k₂)) := List.range'_append_1
    rw [show k₁ + (k₂ - k₁) = k₂ by omega] at hrange
    rw [hrange, show k₂ - k₁ + (k₃ - k₂) = k₃ - k₁ by omega]
  rw [hsplit, List.map_append]
  exact h₁.2.append h₂.2

/-- One statement that draws nothing, then one that draws an id. -/
theorem drawn_second (k : Nat) : Drawn env k (k + 2) [env.draw (k + 1)] :=
  (drawn_nil (Nat.le_succ k)).append (drawn_one (k + 1))

theorem resolveEvidence_ok {k : Nat} {noticeVersionId evidenceHash : String} {row : EvidenceRow}
    (h : resolveEvidence pg env evidenceByHash k noticeVersionId evidenceHash = .ok row) :
    row ∈ env.evidence k ∧ pg.parseUuid noticeVersionId = some row.noticeVersionId ∧
      row.spanHash = evidenceHash := by
  unfold resolveEvidence at h
  dsimp only at h
  split at h
  · cases h
  · split at h
    · cases h
    · rename_i version hversion
      split at h
      · cases h
      · rename_i persisted hhead
        obtain rfl := Except.ok.inj h
        have hmem := List.mem_of_mem_head? hhead
        rw [(orderBy_perm _ _).mem_iff, List.mem_filter, decide_eq_true_eq] at hmem
        obtain ⟨hin, hv, hhash⟩ := hmem
        exact ⟨hin, by rw [hversion, hv], hhash⟩

theorem resolveEvidence_names {k : Nat} {noticeVersionId evidenceHash : String} {row : EvidenceRow}
    {version : Uuid} (hversion : pg.parseUuid noticeVersionId = some version)
    (h : resolveEvidence pg env evidenceByHash k noticeVersionId evidenceHash = .ok row) :
    Names env version evidenceHash row.id := by
  obtain ⟨hin, hparse, hhash⟩ := resolveEvidence_ok h
  rw [hversion, Option.some.injEq] at hparse
  exact ⟨k, row, hin, rfl, hparse.symm, hhash⟩

theorem bound_set {version : Uuid} {evidenceIds : Dict String Uuid} {evidenceHash : String}
    {id : Uuid} (h : Bound env version evidenceIds) (hn : Names env version evidenceHash id) :
    Bound env version (evidenceIds.set evidenceHash id) := by
  intro x y hxy
  rw [Dict.get_set] at hxy
  split at hxy
  · rename_i heq
    rw [← heq, ← Option.some.inj hxy]
    exact hn
  · exact h x y hxy

theorem persistItemCitations_written {item : ReportItem} {itemId version : Uuid}
    (hversion : pg.parseUuid item.noticeId = some version) :
    ∀ {citations : List ReportCitation} {ordinal k k' : Nat} {evidenceIds evidenceIds' :
        Dict String Uuid} {rows : List CitationRow},
      persistItemCitations pg env evidenceByHash itemId item ordinal citations evidenceIds k =
        .ok (rows, evidenceIds', k') → Bound env version evidenceIds →
      CitationsWritten env version itemId ordinal citations rows ∧ Bound env version evidenceIds' ∧
        Drawn env k k' (rows.map (·.id))
  | [], ordinal, k, k', evidenceIds, evidenceIds', rows, h, hbound => by
    simp only [persistItemCitations, Except.ok.injEq, Prod.mk.injEq] at h
    obtain ⟨rfl, rfl, rfl⟩ := h
    exact ⟨⟨.nil, by simp, rfl⟩, hbound, drawn_nil (Nat.le_refl _)⟩
  | citation :: rest, ordinal, k, k', evidenceIds, evidenceIds', rows, h, hbound => by
    unfold persistItemCitations at h
    split at h
    · cases h
    · rename_i evidence hevidence
      have hnames := resolveEvidence_names hversion hevidence
      split at h
      · cases h
      · rename_i rows₁ evidenceIds₁ k₁ hrest
        simp only [Except.ok.injEq, Prod.mk.injEq] at h
        obtain ⟨rfl, rfl, rfl⟩ := h
        obtain ⟨hwritten, hbound', hdrawn⟩ :=
          persistItemCitations_written hversion hrest (bound_set hbound hnames)
        refine ⟨⟨.cons ⟨rfl, hnames⟩ hwritten.bound, ?_, ?_⟩, hbound', (drawn_second k).append hdrawn⟩
        · intro row hrow
          rcases List.mem_cons.mp hrow with rfl | hrow
          · rfl
          · exact hwritten.parent row hrow
        · rw [List.map_cons, List.length_cons, List.range'_succ, hwritten.ordinals]

theorem claimEvidence_names {item : ReportItem} {version : Uuid} {evidenceHash : String} {k : Nat}
    {evidenceIds evidenceIds' : Dict String Uuid} {id : Uuid}
    (hversion : pg.parseUuid item.noticeId = some version) (hbound : Bound env version evidenceIds)
    (h : claimEvidence pg env evidenceByHash item evidenceHash evidenceIds k =
      .ok (id, evidenceIds')) :
    Names env version evidenceHash id ∧ Bound env version evidenceIds' := by
  unfold claimEvidence at h
  split at h
  · rename_i known hknown
    obtain ⟨rfl, rfl⟩ := Prod.mk.inj (Except.ok.inj h)
    exact ⟨hbound _ _ hknown, hbound⟩
  · split at h
    · cases h
    · rename_i evidence hevidence
      obtain ⟨rfl, rfl⟩ := Prod.mk.inj (Except.ok.inj h)
      have hnames := resolveEvidence_names hversion hevidence
      exact ⟨hnames, bound_set hbound hnames⟩

/-- A claim's citations are distinct, so none of them is passed over. -/
theorem persistClaimCitations_written {item : ReportItem} {claimId version : Uuid}
    (hversion : pg.parseUuid item.noticeId = some version) :
    ∀ {citationIds seen : List String} {ordinal k k' : Nat} {evidenceIds evidenceIds' :
        Dict String Uuid} {rows : List ClaimCitationRow},
      persistClaimCitations pg env evidenceByHash claimId item seen ordinal citationIds evidenceIds
        k = .ok (rows, evidenceIds', k') → citationIds.Nodup →
      (∀ evidenceHash ∈ citationIds, evidenceHash ∉ seen) → Bound env version evidenceIds →
      ClaimCitationsWritten env version claimId ordinal citationIds rows ∧
        Bound env version evidenceIds' ∧ Drawn env k k' (rows.map (·.id))
  | [], seen, ordinal, k, k', evidenceIds, evidenceIds', rows, h, _, _, hbound => by
    simp only [persistClaimCitations, Except.ok.injEq, Prod.mk.injEq] at h
    obtain ⟨rfl, rfl, rfl⟩ := h
    exact ⟨⟨.nil, by simp, rfl⟩, hbound, drawn_nil (Nat.le_refl _)⟩
  | evidenceHash :: rest, seen, ordinal, k, k', evidenceIds, evidenceIds', rows, h, hd, hseen,
      hbound => by
    rw [List.nodup_cons] at hd
    unfold persistClaimCitations at h
    rw [if_neg (hseen _ (List.mem_cons_self ..))] at h
    split at h
    · cases h
    · rename_i evidenceId evidenceIds₁ hevidence
      obtain ⟨hnames, hbound₁⟩ := claimEvidence_names hversion hbound hevidence
      split at h
      · cases h
      · rename_i rows₁ evidenceIds₂ k₁ hrest
        simp only [Except.ok.injEq, Prod.mk.injEq] at h
        obtain ⟨rfl, rfl, rfl⟩ := h
        have hseen' : ∀ x ∈ rest, x ∉ evidenceHash :: seen := by
          intro x hx hmem
          rcases List.mem_cons.mp hmem with rfl | hmem
          · exact hd.1 hx
          · exact hseen x (List.mem_cons_of_mem _ hx) hmem
        obtain ⟨hwritten, hbound', hdrawn⟩ :=
          persistClaimCitations_written hversion hrest hd.2 hseen' hbound₁
        refine ⟨⟨.cons hnames hwritten.bound, ?_, ?_⟩, hbound', (drawn_second k).append hdrawn⟩
        · intro row hrow
          rcases List.mem_cons.mp hrow with rfl | hrow
          · rfl
          · exact hwritten.parent row hrow
        · rw [List.map_cons, List.length_cons, List.range'_succ, hwritten.ordinals]

theorem persistClaims_written {item : ReportItem} {reportId itemId version : Uuid}
    {verifications : Nat → Option ClaimVerification}
    (hversion : pg.parseUuid item.noticeId = some version) :
    ∀ {claims : List ReportClaim} {ordinal k k' : Nat} {evidenceIds : Dict String Uuid}
        {rows : List ClaimRows},
      persistClaims pg env evidenceByHash reportId itemId item verifications ordinal claims
        evidenceIds k = .ok (rows, k') → Bound env version evidenceIds →
      List.Forall₂ (fun t (claim : ReportClaim × Nat) => ClaimWritten env version reportId itemId
        (verifications claim.2) claim.2 claim.1 t) rows (claims.zipIdx ordinal) ∧
        Drawn env k k' (rows.flatMap ClaimRows.ids)
  | [], ordinal, k, k', evidenceIds, rows, h, _ => by
    simp only [persistClaims, Except.ok.injEq, Prod.mk.injEq] at h
    obtain ⟨rfl, rfl⟩ := h
    exact ⟨.nil, drawn_nil (Nat.le_refl _)⟩
  | claim :: rest, ordinal, k, k', evidenceIds, rows, h, hbound => by
    unfold persistClaims at h
    dsimp only at h
    split at h
    · cases h
    · rename_i citations evidenceIds₁ k₁ hcitations
      obtain ⟨hwritten, hbound₁, hdrawn₁⟩ := persistClaimCitations_written hversion hcitations
        claim.distinctCitations (by simp) hbound
      split at h
      · cases h
      · rename_i rows₁ k₂ hrest
        obtain ⟨rfl, rfl⟩ := Prod.mk.inj (Except.ok.inj h)
        obtain ⟨hrows, hdrawn⟩ := persistClaims_written hversion hrest hbound₁
        refine ⟨.cons ⟨rfl, ⟨_, rfl⟩, hwritten⟩ hrows, ?_⟩
        rw [List.flatMap_cons]
        refine Drawn.append ?_ hdrawn
        -- the claim's own id, then that of its verdict, if there is one
        have hids : Drawn env k (k + 2) (env.draw k :: ((verifications ordinal).map fun v =>
            verificationRow (env.draw (k + 1)) (env.draw k) reportId v.verification).toList.map
              (·.id)) := by
          cases verifications ordinal with
          | none => exact (drawn_one k).append (drawn_nil (Nat.le_succ _))
          | some v => exact (drawn_one k).append (drawn_one (k + 1))
        exact hids.append hdrawn₁

theorem persistItems_written {reportId : Uuid} {byItem : Dict String (Dict Nat ClaimVerification)} :
    ∀ {items : List ReportItem} {rank k k' : Nat} {rows : List ItemRows},
      persistItems pg env evidenceByHash reportId byItem rank items k = .ok (rows, k') →
      List.Forall₂ (fun t (item : ReportItem × Nat) =>
        ItemWritten pg env reportId byItem item.2 item.1 t) rows (items.zipIdx rank) ∧
        Drawn env k k' (rows.flatMap ItemRows.ids)
  | [], rank, k, k', rows, h => by
    simp only [persistItems, Except.ok.injEq, Prod.mk.injEq] at h
    obtain ⟨rfl, rfl⟩ := h
    exact ⟨.nil, drawn_nil (Nat.le_refl _)⟩
  | item :: rest, rank, k, k', rows, h => by
    unfold persistItems at h
    dsimp only at h
    split at h
    · cases h
    · rename_i version hversion
      split at h
      · cases h
      · rename_i citations evidenceIds k₁ hcitations
        have hempty : Bound env version .empty := fun _ _ hget => by cases hget
        obtain ⟨hcwritten, hbound, hcdrawn⟩ :=
          persistItemCitations_written hversion hcitations hempty
        split at h
        · cases h
        · rename_i claims k₂ hclaims
          obtain ⟨hclwritten, hcldrawn⟩ := persistClaims_written hversion hclaims hbound
          split at h
          · cases h
          · rename_i rows₁ k₃ hrest
            obtain ⟨rfl, rfl⟩ := Prod.mk.inj (Except.ok.inj h)
            obtain ⟨hrows, hdrawn⟩ := persistItems_written hrest
            refine ⟨.cons ⟨hversion, rfl, hcwritten, hclwritten⟩ hrows, ?_⟩
            rw [List.flatMap_cons]
            exact (((drawn_one k).append (hcdrawn.append hcldrawn))).append hdrawn

end BidScope.L7
