import BidScope.L7Delivery.RoundTrip

/-!
# Fresh ids commit

A transaction that ends has written a tree whose rows hang below each other and
name stored evidence. With ids nobody uses, for a run and for notice versions
that are stored, it violates no constraint.

* `drawn_fresh`: the ids of a tree are distinct, and no stored row has one.
* `commit_fresh`: the commit succeeds.
-/
namespace BidScope.L7

open BidScope.L1 BidScope.L2 KeyOrder

/-- No id is drawn twice, and none is a stored row's. -/
structure Fresh (rows : Rows) (draw : Nat → Uuid) : Prop where
  injective : Function.Injective draw
  report : ∀ k, draw k ∉ rows.reports.map (·.id)
  item : ∀ k, draw k ∉ rows.items.map (·.id)
  citation : ∀ k, draw k ∉ rows.citations.map (·.id)
  claim : ∀ k, draw k ∉ rows.claims.map (·.id)
  verification : ∀ k, draw k ∉ rows.verifications.map (·.id)
  claimCitation : ∀ k, draw k ∉ rows.claimCitations.map (·.id)

def ReportRows.ids (t : ReportRows) : List Uuid := t.report.id :: t.items.flatMap ItemRows.ids

variable {pg : Pg} {env : Env} {evidenceByHash : EvidenceById} {run : Uuid} {report : Report}
  {verifications : List ClaimVerification} {t : ReportRows} {db : Db}

/-! ## Sublists of the ids of a tree -/

theorem items_sublist {f : ItemRows → List Uuid} (h : ∀ i ∈ t.items, (f i).Sublist i.ids) :
    (t.items.flatMap f).Sublist t.ids :=
  (Joins.flatMap_sublist h).trans (List.sublist_cons_self ..)

theorem claims_sublist {f : ClaimRows → List Uuid} (h : ∀ c ∈ t.claims, (f c).Sublist c.ids) :
    (t.claims.flatMap f).Sublist t.ids := by
  unfold ReportRows.claims
  rw [List.flatMap_assoc]
  refine items_sublist fun i hi => ?_
  refine (Joins.flatMap_sublist fun c hc => h c (List.mem_flatMap_of_mem hi hc)).trans ?_
  exact (List.sublist_append_right _ _).trans (List.sublist_cons_self ..)

theorem itemIds_sublist : (t.rows.items.map (·.id)).Sublist t.ids := by
  show ((t.items.map (·.item)).map (·.id)).Sublist t.ids
  rw [List.map_map, List.map_eq_flatMap]
  exact items_sublist fun i _ => List.Sublist.cons_cons _ (List.nil_sublist _)

theorem citationIds_sublist : (t.rows.citations.map (·.id)).Sublist t.ids := by
  show ((t.items.flatMap (·.citations)).map (·.id)).Sublist t.ids
  rw [List.map_flatMap]
  exact items_sublist fun i _ => (List.sublist_append_left _ _).trans (List.sublist_cons_self ..)

theorem claimIds_sublist : (t.rows.claims.map (·.id)).Sublist t.ids := by
  show ((t.claims.map (·.claim)).map (·.id)).Sublist t.ids
  rw [List.map_map, List.map_eq_flatMap]
  exact claims_sublist fun c _ => List.Sublist.cons_cons _ (List.nil_sublist _)

theorem verificationIds_sublist : (t.rows.verifications.map (·.id)).Sublist t.ids := by
  show ((t.claims.flatMap (·.verification.toList)).map (·.id)).Sublist t.ids
  rw [List.map_flatMap]
  exact claims_sublist fun c _ => (List.sublist_append_left _ _).trans (List.sublist_cons_self ..)

theorem claimCitationIds_sublist : (t.rows.claimCitations.map (·.id)).Sublist t.ids := by
  show ((t.claims.flatMap (·.citations)).map (·.id)).Sublist t.ids
  rw [List.map_flatMap]
  exact claims_sublist fun c _ => (List.sublist_append_right _ _).trans (List.sublist_cons_self ..)

/-! ## The constraints of both tables -/

/-- The ids of a tree are distinct, and each was drawn. -/
theorem drawn_fresh (hf : Function.Injective env.draw) {k : Nat} (hd : Drawn env 0 k t.ids) :
    t.ids.Nodup ∧ ∀ id ∈ t.ids, ∃ j, env.draw j = id := by
  refine ⟨(List.Nodup.map hf List.nodup_range').sublist hd.2, fun id hid => ?_⟩
  obtain ⟨j, -, hj⟩ := List.mem_map.mp (hd.2.subset hid)
  exact ⟨j, hj⟩

theorem names_stored (hseen : ∀ k, ∀ e ∈ env.evidence k, e ∈ db.base.evidence) {version id : Uuid}
    {evidenceHash : String} (h : Names env version evidenceHash id) :
    id ∈ db.base.evidence.map (·.id) := by
  obtain ⟨k, e, he, rfl, -, -⟩ := h
  exact List.mem_map_of_mem (hseen k e he)

/-- The citations of a claim have distinct hashes, so they name distinct rows. -/
theorem evidenceIds_nodup (hseen : ∀ k, ∀ e ∈ env.evidence k, e ∈ db.base.evidence)
    {version : Uuid} {rows : List ClaimCitationRow} {citationIds : List String}
    (h : List.Forall₂ (fun row evidenceHash => Names env version evidenceHash row.evidenceId)
      rows citationIds) (hd : citationIds.Nodup) : (rows.map (·.evidenceId)).Nodup := by
  have hhashes : (rows.map (·.evidenceId)).map (spanHash db.base) = citationIds.map some := by
    clear hd
    induction h with
    | nil => rfl
    | cons hrow _ ih =>
      obtain ⟨k, e, he, hid, -, hhash⟩ := hrow
      have hfound := Joins.first_unique db.constraints.evidenceId (hseen k e he)
      have hspan : spanHash db.base e.id = some e.spanHash := by
        unfold spanHash
        rw [hfound]
        rfl
      simp only [List.map_cons, ih, ← hid, hspan, hhash]
  refine List.Nodup.of_map (spanHash db.base) ?_
  rw [hhashes]
  exact hd.map (Option.some_injective _)

theorem claimPairs_nodup (hr : Rooted t) (hids : (t.claims.map (·.claim.id)).Nodup)
    (hclaims : ∀ c ∈ t.claims, (c.citations.map (·.evidenceId)).Nodup) :
    (t.rows.claimCitations.map fun x => (x.reportClaimId, x.evidenceId)).Nodup := by
  show ((t.claims.flatMap (·.citations)).map fun x => (x.reportClaimId, x.evidenceId)).Nodup
  rw [List.map_flatMap, List.nodup_flatMap]
  constructor
  · intro c hc
    exact List.Nodup.of_map Prod.snd (by simpa [Function.comp_def] using hclaims c hc)
  · refine (List.pairwise_map.mp hids).imp_of_mem fun {c c'} hc hc' hne k hk hk' => ?_
    obtain ⟨x, hx, rfl⟩ := List.mem_map.mp hk
    obtain ⟨y, hy, hxy⟩ := List.mem_map.mp hk'
    have hsame := (Prod.mk.inj hxy).1
    rw [hr.claimCitation c hc x hx, hr.claimCitation c' hc' y hy] at hsame
    exact hne hsame.symm

/-- Old claims cite what they cited, new ones distinct rows. -/
theorem claimEvidence_fresh (hold : Constraints db.base db.rows) (hr : Rooted t)
    (hids : (t.claims.map (·.claim.id)).Nodup)
    (hunused : ∀ c ∈ t.claims, c.claim.id ∉ db.rows.claims.map (·.id))
    (hclaims : ∀ c ∈ t.claims, (c.citations.map (·.evidenceId)).Nodup) :
    ((db.rows.append t.rows).claimCitations.map fun x => (x.reportClaimId, x.evidenceId)).Nodup := by
  show ((db.rows.claimCitations ++ t.rows.claimCitations).map _).Nodup
  rw [List.map_append, List.nodup_append]
  refine ⟨hold.claimEvidence, claimPairs_nodup hr hids hclaims, ?_⟩
  intro a ha b hb hab
  obtain ⟨x, hx, rfl⟩ := List.mem_map.mp ha
  obtain ⟨y, hy, rfl⟩ := List.mem_map.mp hb
  obtain ⟨c, hc, hyc⟩ := List.mem_flatMap.mp hy
  have hknown := hold.claimCitationClaim x hx
  rw [(Prod.mk.inj hab).1, hr.claimCitation c hc y hyc] at hknown
  exact hunused c hc hknown

/-- **A transaction with fresh ids commits.** -/
theorem commit_fresh (hf : Fresh db.rows env.draw)
    (hseen : ∀ k, ∀ e ∈ env.evidence k, e ∈ db.base.evidence) (hrun : run ∈ db.base.runs)
    (hnew : findByRunId db.rows run = none)
    (hversions : ∀ item ∈ report.items, ∃ v ∈ db.base.versions, pg.parseUuid item.noticeId = some v)
    (ht : writeReport pg env evidenceByHash run report verifications = .ok t) :
    ∃ db', commit db t = .ok db' := by
  obtain ⟨hrow, hwritten, k, hdrawn⟩ := writeReport_written ht
  obtain ⟨hids, hdraw⟩ := drawn_fresh hf.injective hdrawn
  have hr := rooted_of_written hwritten
  have hold := db.constraints
  have hunused : ∀ {α : Type} {rows : List α} {key : α → Uuid},
      (∀ k, env.draw k ∉ rows.map key) → ∀ id ∈ t.ids, id ∉ rows.map key := by
    intro α rows key h id hid
    obtain ⟨j, rfl⟩ := hdraw id hid
    exact h j
  have hclaimIds : (t.claims.map (·.claim)).map (·.id) = t.claims.map (·.claim.id) := by
    rw [List.map_map]
    rfl
  have hchecked : Constraints db.base (db.rows.append t.rows) := {
    evidenceId := hold.evidenceId
    reportId := Joins.append_nodup hold.reportId hids
      (List.Sublist.cons_cons _ (List.nil_sublist _)) (hunused hf.report)
    reportRunId := by
      refine Joins.append_nodup hold.reportRunId (List.nodup_singleton run) ?_ ?_
      · show [t.report.runId].Sublist [run]
        rw [hrow]
        exact List.Sublist.refl _
      · intro r hmem hr'
        obtain rfl := List.mem_singleton.mp hmem
        obtain ⟨row, hrow', hid⟩ := List.mem_map.mp hr'
        have hfind := List.find?_eq_none.mp hnew row hrow'
        simp [hid] at hfind
    reportRun := by
      refine List.forall_mem_append.mpr ⟨hold.reportRun, fun r hmem => ?_⟩
      rw [List.mem_singleton.mp hmem, hrow]
      exact hrun
    itemId := Joins.append_nodup hold.itemId hids itemIds_sublist (hunused hf.item)
    itemReport := Joins.append_refs hold.itemReport fun i hi => by
      obtain ⟨j, hj, rfl⟩ := List.mem_map.mp hi
      rw [hr.item j hj]
      exact List.mem_singleton_self _
    itemVersion := by
      refine List.forall_mem_append.mpr ⟨hold.itemVersion, fun i hi => ?_⟩
      obtain ⟨j, hj, rfl⟩ := List.mem_map.mp hi
      obtain ⟨item, hmem, rank, hw⟩ := item_written hwritten hj
      obtain ⟨v, hv, hparse⟩ := hversions item hmem
      rw [hw.version, Option.some.injEq] at hparse
      rw [hparse]
      exact hv
    citationId := Joins.append_nodup hold.citationId hids citationIds_sublist (hunused hf.citation)
    citationItem := Joins.append_refs hold.citationItem fun c hc => by
      obtain ⟨i, hi, hci⟩ := List.mem_flatMap.mp hc
      rw [hr.citation i hi c hci]
      exact List.mem_map_of_mem (List.mem_map_of_mem hi)
    citationEvidence := by
      refine List.forall_mem_append.mpr ⟨hold.citationEvidence, fun c hc => ?_⟩
      obtain ⟨i, hi, hci⟩ := List.mem_flatMap.mp hc
      obtain ⟨item, -, rank, hw⟩ := item_written hwritten hi
      obtain ⟨citation, -, -, hnames⟩ := Joins.forall₂_left hw.citations.bound hci
      exact names_stored hseen hnames
    claimId := Joins.append_nodup hold.claimId hids claimIds_sublist (hunused hf.claim)
    claimItem := Joins.append_refs hold.claimItem fun c hc => by
      obtain ⟨ct, hct, rfl⟩ := List.mem_map.mp hc
      obtain ⟨i, hi, hci⟩ := List.mem_flatMap.mp hct
      rw [hr.claim i hi ct hci]
      exact List.mem_map_of_mem (List.mem_map_of_mem hi)
    verificationId := Joins.append_nodup hold.verificationId hids verificationIds_sublist
      (hunused hf.verification)
    verificationClaim := Joins.append_refs hold.verificationClaim fun v hv => by
      obtain ⟨ct, hct, hvt⟩ := List.mem_flatMap.mp hv
      rw [hr.verification ct hct v hvt]
      exact List.mem_map_of_mem (List.mem_map_of_mem hct)
    verificationReport := Joins.append_refs hold.verificationReport fun v hv => by
      obtain ⟨ct, hct, hvt⟩ := List.mem_flatMap.mp hv
      obtain ⟨i, hi, hci⟩ := List.mem_flatMap.mp hct
      obtain ⟨verdict, ordinal, claim, hcw⟩ := claim_written hwritten hi hci
      obtain ⟨id, hverdict⟩ := hcw.verdict
      rw [hverdict, Option.mem_toList, Option.map_eq_some_iff] at hvt
      obtain ⟨w, -, rfl⟩ := hvt
      exact List.mem_singleton_self _
    claimCitationId := Joins.append_nodup hold.claimCitationId hids claimCitationIds_sublist
      (hunused hf.claimCitation)
    claimCitationClaim := Joins.append_refs hold.claimCitationClaim fun x hx => by
      obtain ⟨ct, hct, hxt⟩ := List.mem_flatMap.mp hx
      rw [hr.claimCitation ct hct x hxt]
      exact List.mem_map_of_mem (List.mem_map_of_mem hct)
    claimCitationEvidence := by
      refine List.forall_mem_append.mpr ⟨hold.claimCitationEvidence, fun x hx => ?_⟩
      obtain ⟨ct, hct, hxt⟩ := List.mem_flatMap.mp hx
      obtain ⟨i, hi, hci⟩ := List.mem_flatMap.mp hct
      obtain ⟨verdict, ordinal, claim, hcw⟩ := claim_written hwritten hi hci
      obtain ⟨evidenceHash, -, hnames⟩ := Joins.forall₂_left hcw.citations.bound hxt
      exact names_stored hseen hnames
    claimEvidence := by
      refine claimEvidence_fresh hold hr (hclaimIds ▸ hids.sublist claimIds_sublist) ?_ ?_
      · intro c hc
        exact hunused hf.claim _ (claimIds_sublist.subset
          (List.mem_map_of_mem (List.mem_map_of_mem hc)))
      · intro c hc
        obtain ⟨i, hi, hci⟩ := List.mem_flatMap.mp hc
        obtain ⟨verdict, ordinal, claim, hcw⟩ := claim_written hwritten hi hci
        exact evidenceIds_nodup hseen hcw.citations.bound claim.distinctCitations }
  exact ⟨⟨db.base, db.rows.append t.rows, hchecked⟩, dif_pos hchecked⟩

end BidScope.L7
