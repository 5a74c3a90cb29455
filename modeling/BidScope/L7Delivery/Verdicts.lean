import BidScope.L2Graph.Verdicts
import BidScope.L7Delivery.Racing

/-!
# Verdicts land on their claims

A verdict reaches its claim through two lookups by notice id and ordinal: one
stamps the report (`_apply_support_status`), one finds the verdict row to
store (`_index_verifications`).

**Law (`VerdictsLand`).** A stored report loads with every claim's own verdict
as its status, and with its own verdict, or none, in the row stored for it.

* `storedReport_claims`, `Stored.recordedClaims`: what the two lookups give.
* `recordedClaims_grown`: it stays so whatever is stored later.
* `verdictsLand_iff`: the law holds of a stored report exactly when claims of
  the draft with one key got the same answer.
-/
namespace BidScope.L7

open BidScope.L1 BidScope.L2 KeyOrder

/-! ## Verdict rows -/

/-- What a verdict row says. -/
structure Recorded where
  status : ClaimSupportStatus
  rationale : String
  evidenceIdsUsed : List String
  conflictEvidenceIds : List String
  verifierVersion : String
  deriving DecidableEq, Repr

def VerificationRow.recorded (v : VerificationRow) : Recorded :=
  ⟨v.status, v.rationale, v.evidenceIdsUsed, v.conflictEvidenceIds, v.verifierVersion⟩

/-- The verdict as a row says it. -/
def recorded (v : ClaimSupportVerification) : Recorded :=
  ⟨v.status, v.rationale, v.evidenceIdsUsed, v.conflictEvidenceIds, v.verifierVersion⟩

def verificationsOf (rows : Rows) (claimId : Uuid) : List VerificationRow :=
  rows.verifications.filter (·.reportClaimId = claimId)

/-- The claim rows of a report, in its order. -/
def reportClaimRows (rows : Rows) (reportId : Uuid) : List ClaimRow :=
  let itemRows := itemRowsOf rows reportId
  itemRows.flatMap fun i => (claimRowsOf rows (itemRows.map (·.id))).filter (·.reportItemId = i.id)

/-- The claims of a report as stored, each with its verdict rows. -/
def recordedClaims (rows : Rows) (reportId : Uuid) : List (String × List Recorded) :=
  (reportClaimRows rows reportId).map fun c =>
    (c.text, (verificationsOf rows c.id).map (·.recorded))

/-- The stored report of the run carries these answers, claim by claim. -/
structure VerdictsLand (pg : Pg) (db : Db) (runId : String) (as : List Answer) : Prop where
  status : ∃ p, loadOnlineReport pg db runId = .ok (some p) ∧
    ((p.report.items.flatMap (·.claims)).map fun c => (c.text, c.citationIds, c.supportStatus)) =
      as.map fun a => (a.claim.text, a.claim.citationIds, a.verdict.map (·.status))
  row : ∃ run row, pg.parseUuid runId = some run ∧ findByRunId db.rows run = some row ∧
    recordedClaims db.rows row.id =
      as.map fun a => (a.claim.text, (a.verdict.map recorded).toList)

/-- The call hands on a draft's items, stamped with their own verdicts. -/
structure Carries (verify : Verifier) (items : List ReportItem) (call : Call) : Prop where
  filed : call.verifications = verdicts verify call.evidenceByHash items
  stamped : call.report.items = applySupportStatus items call.verifications

/-- So does every call of the graph, with a draft `validate_report` accepted. -/
theorem persisted_carries (lib : Lib) {p : Ports} (s : GState) (hr : (lts lib).Reachable s)
    (hn : s.cfg.next = some .persistAndDeliver) {call : Call}
    (he : Effect.persist call.report call.evidenceByHash call.verifications ∈
      (nodeFn lib p s.cfg.values .persistAndDeliver).effects) :
    ∃ (draft : ReportDraft) (verify : Verifier),
      (validateReport lib draft.items call.evidenceByHash).valid = true ∧
        Carries verify draft.items call := by
  obtain ⟨draft, verify, hvalid, hfiled, hstamped⟩ := persisted_verdicts lib s hr hn he
  exact ⟨draft, verify, hvalid, hfiled, hstamped⟩

variable {pg : Pg} {env : Env} {run : Uuid} {report : Report} {items : List ReportItem}
  {vs : List ClaimVerification} {t : ReportRows} {db db' : Db}

theorem recorded_inj {v w : ClaimSupportVerification} (h : recorded v = recorded w) : v = w := by
  cases v
  cases w
  simp only [recorded, Recorded.mk.injEq] at h
  obtain ⟨rfl, rfl, rfl, rfl, rfl⟩ := h
  rfl

theorem map_recorded_inj {a b : Option ClaimSupportVerification}
    (h : (a.map recorded).toList = (b.map recorded).toList) : a = b := by
  cases a with
  | none =>
    cases b with
    | none => rfl
    | some w => simp at h
  | some v =>
    cases b with
    | none => simp at h
    | some w =>
      have hvw : recorded v = recorded w := by simpa using h
      rw [recorded_inj hvw]

/-! ## What the lookups give -/

/-- The verdict stamped on a claim, and its place in the draft. -/
theorem indexedClaims_stamped (items : List ReportItem) (vs : List ClaimVerification) :
    ((indexedClaims (applySupportStatus items vs)).map fun e => ((e.1.noticeId, e.2.1), e.2.2)) =
      (indexedClaims items).map fun e => ((e.1.noticeId, e.2.1),
        { e.2.2 with supportStatus := (verdictFor vs e.1.noticeId e.2.1).map (·.status) }) := by
  unfold indexedClaims applySupportStatus
  rw [List.flatMap_map, List.map_flatMap, List.map_flatMap]
  refine List.flatMap_congr fun item _ => ?_
  apply List.ext_getElem <;> simp

theorem storedReport_claims (pg : Pg) (vs : List ClaimVerification) (report : Report) :
    (storedReport pg vs report).items.flatMap (·.claims) = (indexedClaims report.items).map fun e =>
      storedClaim (indexed (indexVerifications vs) e.1.noticeId e.2.1) e.2.2 := by
  unfold storedReport indexedClaims
  dsimp only
  rw [List.flatMap_map, List.map_flatMap]
  refine List.flatMap_congr fun item _ => ?_
  unfold storedItem
  simp

/-- What the rows say of each claim: the verdict under its key. -/
def writtenClaims (vs : List ClaimVerification) (items : List ReportItem) :
    List (String × List Recorded) :=
  (indexedClaims items).map fun e =>
    (e.2.2.text, ((verdictFor vs e.1.noticeId e.2.1).map recorded).toList)

/-- One claim's rows. -/
theorem recorded_written {version reportId itemId : Uuid} {noticeId : String} {ordinal : Nat}
    {claim : ReportClaim} {c : ClaimRows} (h : ClaimWritten env version reportId itemId
      (indexed (indexVerifications vs) noticeId ordinal) ordinal claim c) :
    (c.claim.text, c.verification.toList.map (·.recorded)) =
      (claim.text, ((verdictFor vs noticeId ordinal).map recorded).toList) := by
  obtain ⟨id, hverdict⟩ := h.verdict
  rw [hverdict, h.row, ← verification_indexed]
  cases indexed (indexVerifications vs) noticeId ordinal <;> rfl

theorem recorded_items {reportId : Uuid} {rows : List ItemRows}
    (h : List.Forall₂ (fun i (item : ReportItem × Nat) =>
      ItemWritten pg env reportId (indexVerifications vs) item.2 item.1 i) rows items.zipIdx) :
    ((rows.flatMap (·.claims)).map fun c =>
      (c.claim.text, c.verification.toList.map (·.recorded))) = writtenClaims vs items := by
  have hclaims : ∀ i ∈ rows, ∀ item : ReportItem × Nat,
      ItemWritten pg env reportId (indexVerifications vs) item.2 item.1 i →
      (i.claims.map fun c => (c.claim.text, c.verification.toList.map (·.recorded))) =
        item.1.claims.zipIdx.map fun claim =>
          (claim.1.text, ((verdictFor vs item.1.noticeId claim.2).map recorded).toList) :=
    fun i _ item hw => Joins.forall₂_map hw.claims fun c _ claim hcw => recorded_written hcw
  unfold writtenClaims indexedClaims
  rw [List.map_flatMap, Joins.forall₂_flatMap h hclaims, List.map_flatMap,
    ← List.zipIdx_map_fst 0 items, List.flatMap_map, List.zipIdx_map_fst]
  refine List.flatMap_congr fun item _ => ?_
  rw [List.map_map]
  rfl

namespace Stored

variable {vs : List ClaimVerification} (hs : Stored pg env db db' run report vs t)

include hs

theorem reportClaimRows : reportClaimRows db'.rows t.report.id = t.claims.map (·.claim) := by
  unfold BidScope.L7.reportClaimRows ReportRows.claims
  dsimp only
  rw [hs.itemRows, List.flatMap_map, List.map_flatMap]
  refine List.flatMap_congr fun i hi => ?_
  obtain ⟨item, -, hw⟩ := Joins.forall₂_left hs.written hi
  exact hs.claimRows hi (List.mem_map_of_mem (List.mem_map_of_mem hi)) hw

/-- The rows of a report carry the verdicts filed under its claims' keys. -/
theorem recordedClaims : recordedClaims db'.rows t.report.id = writtenClaims vs report.items := by
  unfold BidScope.L7.recordedClaims
  rw [hs.reportClaimRows, List.map_map, ← recorded_items hs.written]
  refine List.map_congr_left fun c hc => ?_
  rw [Function.comp_apply, verificationsOf, hs.verificationRows hc]

end Stored

/-! ## What is stored later -/

theorem verificationsOf_grown (hg : Grown db db') {c : ClaimRow} (hc : c ∈ db.rows.claims) :
    verificationsOf db'.rows c.id = verificationsOf db.rows c.id := by
  obtain ⟨more, hmore, hapart⟩ := hg.rows
  have hnone : more.verifications.filter (·.reportClaimId = c.id) = [] := by
    rw [List.filter_eq_nil_iff]
    intro v hv hid
    rw [decide_eq_true_eq] at hid
    exact hapart.verifications v hv (hid ▸ List.mem_map_of_mem hc)
  unfold verificationsOf
  rw [hmore, Rows.append, List.filter_append, hnone, List.append_nil]

theorem recordedClaims_grown (hg : Grown db db') {row : ReportRow} (hrow : row ∈ db.rows.reports) :
    recordedClaims db'.rows row.id = recordedClaims db.rows row.id := by
  obtain ⟨more, hmore, hapart⟩ := hg.rows
  have hitems : itemRowsOf db'.rows row.id = itemRowsOf db.rows row.id := by
    rw [hmore, itemRowsOf_grown hapart hrow]
  have hrows : reportClaimRows db'.rows row.id = reportClaimRows db.rows row.id := by
    unfold reportClaimRows
    dsimp only
    rw [hitems, claimRowsOf_grown hg fun _ => mem_itemIds]
  have hclaim : ∀ c ∈ reportClaimRows db.rows row.id, c ∈ db.rows.claims := by
    intro c hc
    obtain ⟨i, -, hc⟩ := List.mem_flatMap.mp hc
    exact (mem_claimRowsOf.mp (List.mem_of_mem_filter hc)).1
  unfold recordedClaims
  rw [hrows]
  exact List.map_congr_left fun c hc => by rw [verificationsOf_grown hg (hclaim c hc)]

/-! ## The law -/

variable {verify : Verifier} {call : Call}

/-- The claims of the call's report are those the verifier was asked about,
stamped with the verdicts under their keys. -/
theorem carried_claims (hc : Carries verify items call) {β : Type} (g : String × Nat → ReportClaim → β) :
    ((indexedClaims call.report.items).map fun e => g (e.1.noticeId, e.2.1) e.2.2) =
      (answers verify call.evidenceByHash items).map fun a => g a.key { a.claim with
        supportStatus := (verdictFor call.verifications a.noticeId a.ordinal).map (·.status) } := by
  have hstamped := indexedClaims_stamped items call.verifications
  have hasked := answersFrom_claims verify call.evidenceByHash 0 (indexedClaims items)
  have hleft := congrArg (List.map fun x => g x.1 x.2) hstamped
  have hright := congrArg (List.map fun x => g x.1 { x.2 with
    supportStatus := (verdictFor call.verifications x.1.1 x.1.2).map (·.status) }) hasked
  rw [List.map_map, List.map_map] at hleft hright
  rw [hc.stamped]
  exact hleft.trans hright.symm

/-- A stamped claim comes back with the verdict under its key. -/
theorem stamped_status (vs : List ClaimVerification) (noticeId : String) (ordinal : Nat)
    (claim : ReportClaim) :
    storedStatus (indexed (indexVerifications vs) noticeId ordinal) { claim with
      supportStatus := (verdictFor vs noticeId ordinal).map (·.status) } =
        (verdictFor vs noticeId ordinal).map (·.status) := by
  rw [storedStatus_eq]
  unfold suppliedStatus
  cases verdictFor vs noticeId ordinal <;> rfl

/-- **Verdicts land on their own claims exactly when claims of the draft with
one notice id and ordinal got the same answer**, whatever calls race. -/
theorem verdictsLand_iff (pg : Pg) (verify : Verifier) (items : List ReportItem) (s : PState)
    (h : (plts pg).Reachable s) (run : Uuid) (i : Nat) (call : Call) (phase : Phase)
    (hst : s.stored.get run = some i) (hcall : s.calls.get i = some (call, phase))
    (hc : Carries verify items call) :
    VerdictsLand pg s.db call.report.runId (answers verify call.evidenceByHash items) ↔
      Unambiguous (answers verify call.evidenceByHash items) := by
  obtain ⟨hI, hW⟩ := (written_inductive pg).reachable s h
  obtain ⟨env, t, before, after, hs, hg⟩ := hW run i call phase hst hcall
  have hparse := parsed_stored hI hst hcall
  obtain ⟨hmem, hfound⟩ := hs.found hg
  have hload := hs.loaded hg hparse
  have hclaims : ((storedReport pg call.verifications call.report).items.flatMap (·.claims)).map
      (fun c => (c.text, c.citationIds, c.supportStatus)) =
      (answers verify call.evidenceByHash items).map fun a => (a.claim.text, a.claim.citationIds,
        (verdictFor call.verifications a.noticeId a.ordinal).map (·.status)) := by
    rw [storedReport_claims, List.map_map]
    refine (carried_claims hc fun key c => (c.text, c.citationIds,
      storedStatus (indexed (indexVerifications call.verifications) key.1 key.2) c)).trans ?_
    refine List.map_congr_left fun a _ => ?_
    have hstatus := stamped_status call.verifications a.noticeId a.ordinal a.claim
    exact congrArg (fun status => (a.claim.text, a.claim.citationIds, status)) hstatus
  have hrows : recordedClaims s.db.rows t.report.id =
      (answers verify call.evidenceByHash items).map fun a => (a.claim.text,
        ((verdictFor call.verifications a.noticeId a.ordinal).map recorded).toList) := by
    rw [recordedClaims_grown hg hmem, hs.recordedClaims]
    exact carried_claims hc fun key c =>
      (c.text, ((verdictFor call.verifications key.1 key.2).map recorded).toList)
  rw [← filed_iff, ← hc.filed]
  constructor
  · intro hlaw a ha
    obtain ⟨run', row', hparse', hfound', hrecorded⟩ := hlaw.row
    rw [hparse, Option.some.injEq] at hparse'
    rw [← hparse', hfound, Option.some.injEq] at hfound'
    rw [← hfound', hrows] at hrecorded
    exact map_recorded_inj (Prod.mk.inj (List.map_inj_left.mp hrecorded a ha)).2
  · intro hown
    refine ⟨⟨_, hload, ?_⟩, run, t.report, hparse, hfound, ?_⟩
    · rw [hclaims]
      exact List.map_congr_left fun a ha => by rw [hown a ha]
    · rw [hrows]
      exact List.map_congr_left fun a ha => by rw [hown a ha]

/-! ## Two items of one notice -/

/-- Run 10, notice version 11 and the one span quoted from it. -/
def quotedDb : Db where
  base := ⟨[10], [11], [⟨7, 11, "fee", 0, 3, "sha256:fee"⟩]⟩
  rows := {}
  constraints := by decide +kernel

theorem quoted_start : (0 : Int) ≤ 0 := Int.le_refl 0

theorem quoted_stop : (0 : Int) ≤ 3 := by decide

def quotedSpan : NoticeEvidence where
  noticeVersionId := "00000000-0000-0000-0000-00000000000b"
  text := "fee"
  start := 0
  stop := 3
  spanHash := "sha256:fee"
  startNonneg := quoted_start
  stopNonneg := quoted_stop

def quotedEvidence : EvidenceById := Dict.empty.set "sha256:fee" (.one quotedSpan)

def quotedItem (text : String) : ReportItem where
  noticeId := "00000000-0000-0000-0000-00000000000b"
  title := "road works"
  claims := [⟨text, ["sha256:fee"], none, by simp, by simp⟩]

def twinItems : List ReportItem := [quotedItem "paid", quotedItem "waived"]

def plainVerdict (status : ClaimSupportStatus) : ClaimSupportVerification where
  status := status
  rationale := "quoted"
  evidenceIdsUsed := []
  conflictEvidenceIds := []
  verifierVersion := "1"
  rationaleNonblank := by decide +kernel
  versionNonblank := by decide +kernel
  conflictsUnsupported _ := rfl
  conflictsUsed := by simp

def alwaysSupported : Verifier := fun _ _ _ _ => .ok (plainVerdict .supported)

/-- Supports the claim "paid" only. -/
def paidSupported : Verifier := fun _ claim _ _ =>
  .ok (plainVerdict (if claim.text = "paid" then .supported else .unsupported))

def twinCall (verify : Verifier) : Call where
  evidenceByHash := quotedEvidence
  verifications := verdicts verify quotedEvidence twinItems
  report := {
    runId := "00000000-0000-0000-0000-00000000000a"
    generatedAt := ⟨0, 0⟩
    queryConditions := []
    items := applySupportStatus twinItems (verdicts verify quotedEvidence twinItems) }

theorem twinCall_carries (verify : Verifier) : Carries verify twinItems (twinCall verify) :=
  ⟨rfl, rfl⟩

def twinRun (verify : Verifier) : List PEv :=
  [.begin 0 (twinCall verify), .find 0, .insert 0, .write 0 (100 + ·) (fun _ => 1)]

def twinStart : PState := { db := quotedDb }

def twinEnd (verify : Verifier) : PState :=
  (LTS.exec (pstep hexPg) twinStart (twinRun verify)).getD twinStart

theorem twinEnd_reachable {verify : Verifier}
    (h : (LTS.exec (pstep hexPg) twinStart (twinRun verify)).isSome = true) :
    (plts hexPg).Reachable (twinEnd verify) := by
  obtain ⟨s, hs⟩ := Option.isSome_iff_exists.mp h
  unfold twinEnd
  rw [hs]
  exact ⟨twinStart, twinRun verify, ⟨rfl, rfl, rfl⟩, LTS.run_of_exec _ hs⟩

theorem alwaysSupported_run :
    (LTS.exec (pstep hexPg) twinStart (twinRun alwaysSupported)).isSome = true ∧
    (twinEnd alwaysSupported).stored.get 10 = some 0 ∧
    ((twinEnd alwaysSupported).calls.get 0).map Prod.fst = some (twinCall alwaysSupported) := by
  decide +kernel

theorem paidSupported_run :
    (LTS.exec (pstep hexPg) twinStart (twinRun paidSupported)).isSome = true ∧
    (twinEnd paidSupported).stored.get 10 = some 0 ∧
    ((twinEnd paidSupported).calls.get 0).map Prod.fst = some (twinCall paidSupported) ∧
    ((loadOnlineReport hexPg (twinEnd paidSupported).db
      (twinCall paidSupported).report.runId).toOption.map fun p => p.map fun p =>
        (p.report.items.flatMap (·.claims)).map (·.supportStatus)) =
      some (some [some .unsupported, some .unsupported]) := by
  decide +kernel

/-- The law of a report with two items of one notice, whose claims got the same
verdict. -/
theorem twins_agree : VerdictsLand hexPg (twinEnd alwaysSupported).db
    (twinCall alwaysSupported).report.runId
    (answers alwaysSupported quotedEvidence twinItems) := by
  obtain ⟨hsome, hst, hcall⟩ := alwaysSupported_run
  obtain ⟨⟨call, phase⟩, hget, hsame⟩ := Option.map_eq_some_iff.mp hcall
  exact (verdictsLand_iff hexPg alwaysSupported twinItems _ (twinEnd_reachable hsome) 10 0
    (twinCall alwaysSupported) phase hst (by rw [hget, ← hsame]) (twinCall_carries _)).mpr
      (by decide +kernel)

/-- The draft is accepted; the claim the verifier supported is stored with the
verdict of the other item's claim. -/
theorem twins_misplaced : (validateReport asciiLib twinItems quotedEvidence).valid = true ∧
    (plts hexPg).Reachable (twinEnd paidSupported) ∧
    (twinEnd paidSupported).stored.get 10 = some 0 ∧
    ((twinEnd paidSupported).calls.get 0).map Prod.fst = some (twinCall paidSupported) ∧
    Carries paidSupported twinItems (twinCall paidSupported) ∧
    ¬ VerdictsLand hexPg (twinEnd paidSupported).db (twinCall paidSupported).report.runId
      (answers paidSupported quotedEvidence twinItems) := by
  obtain ⟨hsome, hst, hcall, hloaded⟩ := paidSupported_run
  refine ⟨by decide +kernel, twinEnd_reachable hsome, hst, hcall, twinCall_carries _, fun h => ?_⟩
  obtain ⟨p, hload, hclaims⟩ := h.status
  rw [hload] at hloaded
  have hstored : (p.report.items.flatMap (·.claims)).map (·.supportStatus) =
      [some .unsupported, some .unsupported] := Option.some.inj (Option.some.inj hloaded)
  have hanswered : (answers paidSupported quotedEvidence twinItems).map
      (fun a => a.verdict.map (·.status)) = [some .supported, some .unsupported] := by
    decide +kernel
  have hstatuses := congrArg (List.map fun x => x.2.2) hclaims
  rw [List.map_map, List.map_map] at hstatuses
  have hsame := hstored.symm.trans (hstatuses.trans hanswered)
  exact absurd hsame (by simp)

end BidScope.L7
