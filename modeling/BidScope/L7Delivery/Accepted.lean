import BidScope.L2Graph.Verified
import BidScope.L7Delivery.Fresh
import BidScope.L7Delivery.Verdicts

/-!
# What is accepted and what can be persisted

`validate_report` resolves the citations of an item's claims;
`persist_online_report` resolves those of the item as well, and binds each to
the stored row of its span.

**Law (`Persists`).** An accepted report, its versions stored:
* no `DeliveryError` is raised, whatever ids are drawn;
* with fresh ids, for a stored run, the report is stored with every citation
  bound to a row of its item's version with its hash.

* `accepted_resolves`: the citations of accepted claims resolve.
* `persistItems_outcome`: the transaction ends exactly when every id that is
  cited can be bound, and raises `DeliveryError` otherwise.
* `persists_iff`: so the law holds exactly when the items' own citations
  resolve too and every id that is cited is the hash of a stored row.
* `citationsStored_iff`: which is so for evidence keyed by the hashes of its
  spans, all stored, once the items' own citations resolve.

Text with U+0000, which PostgreSQL refuses, is left out.
-/
namespace BidScope.L7

open BidScope.L1 BidScope.L2 KeyOrder

/-- The evidence has a span of this notice under the hash. -/
def Resolves (evidenceById : EvidenceById) (noticeId evidenceHash : String) : Prop :=
  ∃ binding, evidenceById.get evidenceHash = some binding ∧
    ∃ span ∈ binding.candidates, span.noticeVersionId = noticeId

def ItemCitationsResolve (evidenceById : EvidenceById) (items : List ReportItem) : Prop :=
  ∀ item ∈ items, ∀ c ∈ item.citations, Resolves evidenceById item.noticeId c.evidenceId

/-- Every span is stored as a row of its version. -/
def EvidenceStored (pg : Pg) (base : Base) (evidenceById : EvidenceById) : Prop :=
  ∀ k binding, evidenceById.get k = some binding → ∀ span ∈ binding.candidates,
    ∃ row ∈ base.evidence, pg.parseUuid span.noticeVersionId = some row.noticeVersionId ∧
      row.spanHash = span.spanHash

/-- A row of the notice's version is stored with the hash. -/
def HashStored (pg : Pg) (base : Base) (noticeId evidenceHash : String) : Prop :=
  ∃ row ∈ base.evidence, pg.parseUuid noticeId = some row.noticeVersionId ∧ row.spanHash = evidenceHash

/-- The ids the item and its claims cite. -/
def citedIds (item : ReportItem) : List String :=
  item.citations.map (·.evidenceId) ++ item.claims.flatMap (·.citationIds)

structure CitationsStored (pg : Pg) (base : Base) (evidenceById : EvidenceById) (items : List ReportItem) :
    Prop where
  resolve : ItemCitationsResolve evidenceById items
  hashes : ∀ item ∈ items, ∀ evidenceHash ∈ citedIds item, HashStored pg base item.noticeId evidenceHash

/-- A citation of the notice with this hash gets a row. -/
def Bindable (pg : Pg) (base : Base) (evidenceById : EvidenceById) (noticeId evidenceHash : String) : Prop :=
  Resolves evidenceById noticeId evidenceHash ∧ HashStored pg base noticeId evidenceHash

def ItemsBindable (pg : Pg) (base : Base) (evidenceById : EvidenceById) (items : List ReportItem) : Prop :=
  ∀ item ∈ items, ∀ evidenceHash ∈ citedIds item, Bindable pg base evidenceById item.noticeId evidenceHash

/-! ## Accepted claims -/

variable {lib : Lib} {ev : EvidenceById} {items : List ReportItem}

theorem resolves_of_find {noticeId evidenceHash : String} {binding : Binding} {span : NoticeEvidence}
    (hget : ev.get evidenceHash = some binding)
    (hfind : binding.candidates.find? (·.noticeVersionId == noticeId) = some span) :
    Resolves ev noticeId evidenceHash :=
  ⟨binding, hget, span, List.mem_of_find?_eq_some hfind, by simpa using List.find?_some hfind⟩

theorem citationErrors_nil {noticeId evidenceHash : String}
    (h : citationErrors lib noticeId ev evidenceHash = []) : Resolves ev noticeId evidenceHash := by
  unfold citationErrors at h
  split at h
  · cases h
  · rename_i binding hget
    split at h
    · cases h
    · rename_i span hfind
      exact resolves_of_find hget hfind

/-- The citations of accepted claims resolve. -/
theorem accepted_resolves (h : (validateReport lib items ev).valid = true) :
    ∀ item ∈ items, ∀ claim ∈ item.claims, ∀ evidenceHash ∈ claim.citationIds,
      Resolves ev item.noticeId evidenceHash := by
  have hnone : items.flatMap (itemErrors lib ev) = [] := by
    rw [List.eq_nil_iff_forall_not_mem]
    intro e he
    have hin := List.mem_eraseDups.mpr he
    rw [List.isEmpty_iff.mp h] at hin
    cases hin
  intro item hitem claim hclaim evidenceHash hhash
  have hvalid : (validateClaim lib claim item.noticeId ev).valid = true := by
    have hclaims := List.flatMap_eq_nil_iff.mp (List.flatMap_eq_nil_iff.mp hnone item hitem) claim
      hclaim
    by_contra hv
    rw [if_neg hv] at hclaims
    unfold validateClaim at hv hclaims
    split at hclaims
    · cases hclaims
    · rename_i hne
      rw [if_neg hne] at hv
      simp only at hv hclaims
      simp [hclaims] at hv
  unfold validateClaim at hvalid
  rw [if_neg claim.hasCitations] at hvalid
  exact citationErrors_nil (List.flatMap_eq_nil_iff.mp (List.isEmpty_iff.mp hvalid) evidenceHash
    hhash)

/-- Stamping touches neither notice ids nor citations. -/
theorem mem_stamped {vs : List ClaimVerification} {stamped : ReportItem}
    (h : stamped ∈ applySupportStatus items vs) :
    ∃ item ∈ items, stamped.noticeId = item.noticeId ∧ stamped.citations = item.citations ∧
      ∀ c ∈ stamped.claims, ∃ claim ∈ item.claims, c.citationIds = claim.citationIds := by
  obtain ⟨item, hitem, rfl⟩ := List.mem_map.mp h
  refine ⟨item, hitem, rfl, rfl, fun c hc => ?_⟩
  obtain ⟨i, hi, rfl⟩ := List.mem_mapIdx.mp hc
  exact ⟨_, List.getElem_mem hi, rfl⟩

theorem citedIds_stamped {p : String → String → Prop} (vs : List ClaimVerification) :
    (∀ item ∈ applySupportStatus items vs, ∀ evidenceHash ∈ citedIds item, p item.noticeId evidenceHash) ↔
      ∀ item ∈ items, ∀ evidenceHash ∈ citedIds item, p item.noticeId evidenceHash := by
  unfold applySupportStatus
  rw [List.forall_mem_map]
  refine forall_congr' fun item => forall_congr' fun _ => forall_congr' fun evidenceHash => ?_
  refine imp_congr_left ?_
  simp only [citedIds, List.mem_append, List.mem_flatMap, List.mem_mapIdx]
  refine or_congr_right ⟨?_, ?_⟩
  · rintro ⟨claim, ⟨i, hi, rfl⟩, hmem⟩
    exact ⟨_, List.getElem_mem hi, hmem⟩
  · rintro ⟨claim, hclaim, hmem⟩
    obtain ⟨i, hi, rfl⟩ := List.getElem_of_mem hclaim
    exact ⟨_, ⟨i, hi, rfl⟩, hmem⟩

theorem stamped_versions {pg : Pg} {base : Base} {vs : List ClaimVerification}
    (h : ∀ item ∈ items, ∃ v ∈ base.versions, pg.parseUuid item.noticeId = some v) :
    ∀ item ∈ applySupportStatus items vs, ∃ v ∈ base.versions,
      pg.parseUuid item.noticeId = some v := by
  intro stamped hmem
  obtain ⟨item, hitem, hid, -⟩ := mem_stamped hmem
  rw [hid]
  exact h item hitem

/-- What is accepted can be bound as far as hashes are stored. -/
theorem itemsBindable_iff {pg : Pg} {base : Base} (h : (validateReport lib items ev).valid = true) :
    ItemsBindable pg base ev items ↔ CitationsStored pg base ev items := by
  constructor
  · intro hall
    refine ⟨fun item hitem c hc => ?_, fun item hitem evidenceHash hcited => (hall item hitem _ hcited).2⟩
    exact (hall item hitem _ (List.mem_append_left _ (List.mem_map_of_mem hc))).1
  · intro hstored item hitem evidenceHash hcited
    refine ⟨?_, hstored.hashes item hitem evidenceHash hcited⟩
    rcases List.mem_append.mp hcited with hmem | hmem
    · obtain ⟨c, hc, rfl⟩ := List.mem_map.mp hmem
      exact hstored.resolve item hitem c hc
    · obtain ⟨claim, hclaim, hmem⟩ := List.mem_flatMap.mp hmem
      exact accepted_resolves h item hitem claim hclaim evidenceHash hmem

/-- Evidence that is keyed by the hashes of its spans has them stored. -/
theorem citationsStored_iff {pg : Pg} {base : Base} (h : (validateReport lib items ev).valid = true)
    (hkeyed : KeyedByHash ev) (hstored : EvidenceStored pg base ev) :
    CitationsStored pg base ev items ↔ ItemCitationsResolve ev items := by
  refine ⟨fun hall => hall.resolve, fun hall => ⟨hall, fun item hitem evidenceHash hcited => ?_⟩⟩
  have hresolves : Resolves ev item.noticeId evidenceHash := by
    rcases List.mem_append.mp hcited with hmem | hmem
    · obtain ⟨c, hc, rfl⟩ := List.mem_map.mp hmem
      exact hall item hitem c hc
    · obtain ⟨claim, hclaim, hmem⟩ := List.mem_flatMap.mp hmem
      exact accepted_resolves h item hitem claim hclaim evidenceHash hmem
  obtain ⟨binding, hget, span, hspan, hid⟩ := hresolves
  obtain ⟨row, hrow, hversion, hhash⟩ := hstored evidenceHash binding hget span hspan
  exact ⟨row, hrow, hid ▸ hversion, hhash.trans (hkeyed evidenceHash binding hget span hspan)⟩

/-! ## What the transaction ends in -/

variable {pg : Pg} {env : Env} {base : Base}

/-- A result of this kind when `p` holds, and a `DeliveryError` when it does not. -/
def Ends {α : Type} (p : Prop) (kind : α → Prop) (r : Except PersistError α) : Prop :=
  (p ∧ ∃ a, r = .ok a ∧ kind a) ∨ (¬ p ∧ ∃ m, r = .error (.delivery m))

theorem resolveEvidence_ends (hsees : ∀ k, env.evidence k = base.evidence) (k : Nat) {noticeId : String}
    {version : Uuid} (hversion : pg.parseUuid noticeId = some version) (evidenceHash : String) :
    Ends (Bindable pg base ev noticeId evidenceHash) (fun _ => True)
      (resolveEvidence pg env ev k noticeId evidenceHash) := by
  by_cases hr : Resolves ev noticeId evidenceHash
  · obtain ⟨binding, hget, span, hspan, hid⟩ := hr
    obtain ⟨found, hfound⟩ : ∃ found,
        binding.candidates.find? (·.noticeVersionId == noticeId) = some found :=
      Option.isSome_iff_exists.mp (List.find?_isSome.mpr ⟨span, hspan, by simpa using hid⟩)
    have hmem : ∀ row, row ∈ orderBy EvidenceRow.id ((env.evidence k).filter fun e =>
        e.noticeVersionId = version ∧ e.spanHash = evidenceHash) ↔
          row ∈ base.evidence ∧ row.noticeVersionId = version ∧ row.spanHash = evidenceHash := fun row => by
      rw [(orderBy_perm _ _).mem_iff, List.mem_filter, decide_eq_true_eq, hsees k]
    unfold resolveEvidence
    simp only [hget, Option.map_some, Option.getD_some, hfound, hversion]
    generalize orderBy EvidenceRow.id _ = rows at hmem
    cases rows with
    | nil =>
      refine .inr ⟨fun hb => ?_, _, rfl⟩
      obtain ⟨row, hrow, hparse, hhash⟩ := hb.2
      rw [hversion, Option.some.injEq] at hparse
      exact List.not_mem_nil ((hmem row).mpr ⟨hrow, hparse.symm, hhash⟩)
    | cons row rows =>
      obtain ⟨hrow, hparse, hhash⟩ := (hmem row).mp (List.mem_cons_self ..)
      exact .inl ⟨⟨⟨binding, hget, span, hspan, hid⟩, row, hrow, by rw [hversion, hparse], hhash⟩,
        row, rfl, trivial⟩
  · have hnone : (((ev.get evidenceHash).map Binding.candidates).getD []).find?
        (·.noticeVersionId == noticeId) = none := by
      rw [List.find?_eq_none]
      intro span hspan hid
      cases hget : ev.get evidenceHash with
      | none => simp [hget] at hspan
      | some binding =>
        rw [hget] at hspan
        exact hr ⟨binding, hget, span, hspan, by simpa using hid⟩
    refine .inr ⟨fun hb => hr hb.1, "report citation is not bound to this notice version", ?_⟩
    unfold resolveEvidence
    simp only [hnone]

/-- The rows bound so far are of hashes that can be bound. -/
def BoundSoFar (pg : Pg) (base : Base) (ev : EvidenceById) (noticeId : String) (evidenceIds : Dict String Uuid) :
    Prop :=
  ∀ evidenceHash, (evidenceIds.get evidenceHash).isSome = true → Bindable pg base ev noticeId evidenceHash

theorem boundSoFar_set {noticeId evidenceHash : String} {evidenceIds : Dict String Uuid} {id : Uuid}
    (h : BoundSoFar pg base ev noticeId evidenceIds) (hb : Bindable pg base ev noticeId evidenceHash) :
    BoundSoFar pg base ev noticeId (evidenceIds.set evidenceHash id) := by
  intro x hx
  rw [Dict.get_set] at hx
  split at hx
  · next heq => exact heq ▸ hb
  · exact h x hx

theorem persistItemCitations_ends (hsees : ∀ k, env.evidence k = base.evidence) {item : ReportItem}
    (itemId : Uuid) {version : Uuid} (hversion : pg.parseUuid item.noticeId = some version) :
    ∀ (citations : List ReportCitation) (ordinal : Nat) (evidenceIds : Dict String Uuid) (k : Nat),
      BoundSoFar pg base ev item.noticeId evidenceIds →
      Ends (∀ c ∈ citations, Bindable pg base ev item.noticeId c.evidenceId)
        (fun r => BoundSoFar pg base ev item.noticeId r.2.1)
        (persistItemCitations pg env ev itemId item ordinal citations evidenceIds k)
  | [], _, evidenceIds, _, hids => .inl ⟨by simp, _, rfl, hids⟩
  | citation :: rest, ordinal, evidenceIds, k, hids => by
    unfold persistItemCitations
    rcases resolveEvidence_ends hsees k hversion citation.evidenceId with ⟨hb, row, hrow, -⟩ | ⟨hb, m, hm⟩
    · rw [hrow]
      dsimp only
      rcases persistItemCitations_ends hsees itemId hversion rest (ordinal + 1)
          (evidenceIds.set citation.evidenceId row.id) (k + 2) (boundSoFar_set hids hb) with
        ⟨hall, r, hrest, hbound⟩ | ⟨hall, m, hm⟩
      · rw [hrest]
        exact .inl ⟨List.forall_mem_cons.mpr ⟨hb, hall⟩, _, rfl, hbound⟩
      · rw [hm]
        exact .inr ⟨fun h => hall (List.forall_mem_cons.mp h).2, m, rfl⟩
    · rw [hm]
      exact .inr ⟨fun h => hb (List.forall_mem_cons.mp h).1, m, rfl⟩

theorem claimEvidence_ends (hsees : ∀ k, env.evidence k = base.evidence) {item : ReportItem} {version : Uuid}
    (hversion : pg.parseUuid item.noticeId = some version) (evidenceHash : String)
    {evidenceIds : Dict String Uuid} (hids : BoundSoFar pg base ev item.noticeId evidenceIds) (k : Nat) :
    Ends (Bindable pg base ev item.noticeId evidenceHash)
      (fun r => BoundSoFar pg base ev item.noticeId r.2)
      (claimEvidence pg env ev item evidenceHash evidenceIds k) := by
  unfold claimEvidence
  cases hget : evidenceIds.get evidenceHash with
  | some id => exact .inl ⟨hids evidenceHash (by rw [hget]; rfl), _, rfl, hids⟩
  | none =>
    rcases resolveEvidence_ends hsees k hversion evidenceHash with ⟨hb, row, hrow, -⟩ | ⟨hb, m, hm⟩
    · rw [hrow]
      exact .inl ⟨hb, _, rfl, boundSoFar_set hids hb⟩
    · rw [hm]
      exact .inr ⟨hb, m, rfl⟩

theorem persistClaimCitations_ends (hsees : ∀ k, env.evidence k = base.evidence) {item : ReportItem}
    (claimId : Uuid) {version : Uuid} (hversion : pg.parseUuid item.noticeId = some version) :
    ∀ (citationIds seen : List String) (ordinal : Nat) (evidenceIds : Dict String Uuid) (k : Nat),
      (∀ evidenceHash ∈ seen, Bindable pg base ev item.noticeId evidenceHash) →
      BoundSoFar pg base ev item.noticeId evidenceIds →
      Ends (∀ evidenceHash ∈ citationIds, Bindable pg base ev item.noticeId evidenceHash)
        (fun r => BoundSoFar pg base ev item.noticeId r.2.1)
        (persistClaimCitations pg env ev claimId item seen ordinal citationIds evidenceIds k)
  | [], _, _, _, _, _, hids => .inl ⟨by simp, _, rfl, hids⟩
  | evidenceHash :: rest, seen, ordinal, evidenceIds, k, hseen, hids => by
    unfold persistClaimCitations
    split
    · next hmem =>
      rcases persistClaimCitations_ends hsees claimId hversion rest seen ordinal evidenceIds k hseen hids with
        ⟨hall, hends⟩ | ⟨hall, hends⟩
      · exact .inl ⟨List.forall_mem_cons.mpr ⟨hseen _ hmem, hall⟩, hends⟩
      · exact .inr ⟨fun h => hall (List.forall_mem_cons.mp h).2, hends⟩
    · rcases claimEvidence_ends hsees hversion evidenceHash hids k with
        ⟨hb, ⟨id, evidenceIds'⟩, hid, hids'⟩ | ⟨hb, m, hm⟩
      · rw [hid]
        dsimp only
        rcases persistClaimCitations_ends hsees claimId hversion rest (evidenceHash :: seen) (ordinal + 1) evidenceIds'
            (k + 2) (List.forall_mem_cons.mpr ⟨hb, hseen⟩) hids' with ⟨hall, r, hrest, hbound⟩ | ⟨hall, m, hm⟩
        · rw [hrest]
          exact .inl ⟨List.forall_mem_cons.mpr ⟨hb, hall⟩, _, rfl, hbound⟩
        · rw [hm]
          exact .inr ⟨fun h => hall (List.forall_mem_cons.mp h).2, m, rfl⟩
      · rw [hm]
        exact .inr ⟨fun h => hb (List.forall_mem_cons.mp h).1, m, rfl⟩

theorem persistClaims_ends (hsees : ∀ k, env.evidence k = base.evidence) (reportId itemId : Uuid) {item : ReportItem}
    {version : Uuid} (hversion : pg.parseUuid item.noticeId = some version)
    (byOrdinal : Nat → Option ClaimVerification) :
    ∀ (claims : List ReportClaim) (ordinal : Nat) (evidenceIds : Dict String Uuid) (k : Nat),
      BoundSoFar pg base ev item.noticeId evidenceIds →
      Ends (∀ claim ∈ claims, ∀ evidenceHash ∈ claim.citationIds, Bindable pg base ev item.noticeId evidenceHash)
        (fun _ => True) (persistClaims pg env ev reportId itemId item byOrdinal ordinal claims evidenceIds k)
  | [], _, _, _, _ => .inl ⟨by simp, _, rfl, trivial⟩
  | claim :: rest, ordinal, evidenceIds, k, hids => by
    unfold persistClaims
    dsimp only
    rcases persistClaimCitations_ends hsees (env.draw k) hversion claim.citationIds [] 0 evidenceIds
        (k + 2) (by simp) hids with ⟨hc, ⟨rows, evidenceIds', k'⟩, hcitations, hids'⟩ | ⟨hc, m, hm⟩
    · rw [hcitations]
      dsimp only
      rcases persistClaims_ends hsees reportId itemId hversion byOrdinal rest (ordinal + 1) evidenceIds' k' hids' with
        ⟨hall, r, hrest, -⟩ | ⟨hall, m, hm⟩
      · rw [hrest]
        exact .inl ⟨List.forall_mem_cons.mpr ⟨hc, hall⟩, _, rfl, trivial⟩
      · rw [hm]
        exact .inr ⟨fun h => hall (List.forall_mem_cons.mp h).2, m, rfl⟩
    · rw [hm]
      exact .inr ⟨fun h => hc (List.forall_mem_cons.mp h).1, m, rfl⟩

theorem forall_citedIds {p : String → Prop} {item : ReportItem} : (∀ evidenceHash ∈ citedIds item, p evidenceHash) ↔
    (∀ c ∈ item.citations, p c.evidenceId) ∧
      ∀ claim ∈ item.claims, ∀ evidenceHash ∈ claim.citationIds, p evidenceHash := by
  simp only [citedIds, List.forall_mem_append, List.forall_mem_map, List.forall_mem_flatMap]

/-- The items' transaction ends exactly when all that they cite can be bound. -/
theorem persistItems_outcome (hsees : ∀ k, env.evidence k = base.evidence) (reportId : Uuid)
    (byItem : Dict String (Dict Nat ClaimVerification)) :
    ∀ (items : List ReportItem) (rank k : Nat),
      (∀ item ∈ items, ∃ version, pg.parseUuid item.noticeId = some version) →
      Ends (ItemsBindable pg base ev items) (fun _ => True)
        (persistItems pg env ev reportId byItem rank items k)
  | [], _, _, _ => .inl ⟨by simp [ItemsBindable], _, rfl, trivial⟩
  | item :: rest, rank, k, hversions => by
    obtain ⟨⟨version, hversion⟩, hversions'⟩ := List.forall_mem_cons.mp hversions
    have hnone : BoundSoFar pg base ev item.noticeId .empty := fun x hx => nomatch hx
    unfold ItemsBindable persistItems
    rw [List.forall_mem_cons, forall_citedIds, hversion]
    dsimp only
    rcases persistItemCitations_ends hsees (env.draw k) hversion item.citations 0 .empty (k + 1) hnone with
      ⟨hall, ⟨citations, evidenceIds, k'⟩, hcitations, hids⟩ | ⟨hall, m, hm⟩
    · rw [hcitations]
      dsimp only
      rcases persistClaims_ends hsees reportId (env.draw k) hversion
          (indexed byItem item.noticeId) item.claims 0 evidenceIds k' hids with
        ⟨hc, ⟨claims, k''⟩, hends, -⟩ | ⟨hc, m, hm⟩
      · rw [hends]
        dsimp only
        rcases persistItems_outcome hsees reportId byItem rest (rank + 1) k'' hversions' with
          ⟨hr, ⟨rows, k₃⟩, hrest, -⟩ | ⟨hr, m, hm⟩
        · rw [hrest]
          exact .inl ⟨⟨⟨hall, hc⟩, hr⟩, _, rfl, trivial⟩
        · rw [hm]
          exact .inr ⟨fun h => hr h.2, m, rfl⟩
      · rw [hm]
        exact .inr ⟨fun h => hc h.1.2, m, rfl⟩
    · rw [hm]
      exact .inr ⟨fun h => hall h.1.1, m, rfl⟩

/-! ## The law -/

/-- The id is that of a stored row of the version with the hash. -/
def IsBound (base : Base) (version : Uuid) (evidenceHash : String) (evidenceId : Uuid) : Prop :=
  ∃ e ∈ base.evidence, e.id = evidenceId ∧ e.noticeVersionId = version ∧ e.spanHash = evidenceHash

/-- The citations of the item, and of each of its claims, are bound. -/
def ItemBound (pg : Pg) (base : Base) (i : ItemRows) (item : ReportItem) : Prop :=
  ∃ version, pg.parseUuid item.noticeId = some version ∧
    List.Forall₂ (fun row (c : ReportCitation) => IsBound base version c.evidenceId row.evidenceId)
      i.citations item.citations ∧
    List.Forall₂ (fun c (claim : ReportClaim) => List.Forall₂ (fun row evidenceHash =>
      IsBound base version evidenceHash row.evidenceId) c.citations claim.citationIds)
      i.claims item.claims

structure Persists (pg : Pg) (evidenceByHash : EvidenceById) (draw : Nat → Uuid) (db : Db)
    (report : Report) (verifications : List ClaimVerification) : Prop where
  raises : ∀ m, (persistOnlineReport pg evidenceByHash draw db report verifications).1 ≠
    .error (.delivery m)
  binds : Fresh db.rows draw → (∃ run ∈ db.base.runs, pg.parseUuid report.runId = some run) →
    ∃ (p : PersistedReport) (db' : Db) (t : ReportRows),
      persistOnlineReport pg evidenceByHash draw db report verifications = (.ok p, db') ∧
      db'.base = db.base ∧ db'.rows = db.rows.append t.rows ∧
      List.Forall₂ (ItemBound pg db.base) t.items report.items

variable {draw : Nat → Uuid} {db : Db} {report : Report} {vs : List ClaimVerification} {run : Uuid}
  {t : ReportRows}

theorem new_run {runId : String} (h : loadOnlineReport pg db runId = .ok none) :
    ∃ run, pg.parseUuid runId = some run ∧ findByRunId db.rows run = none := by
  unfold loadOnlineReport at h
  split at h
  · cases h
  · rename_i run hrun
    refine ⟨run, hrun, ?_⟩
    split at h
    · assumption
    · split at h <;> cases h

theorem isBound_names {version id : Uuid} {evidenceHash : String}
    (h : Names ⟨draw, fun _ => base.evidence⟩ version evidenceHash id) :
    IsBound base version evidenceHash id := by
  obtain ⟨_, e, he, hid, hversion, hhash⟩ := h
  exact ⟨e, he, hid, hversion, hhash⟩

theorem itemBound_written {reportId : Uuid} {byItem : Dict String (Dict Nat ClaimVerification)}
    {rank : Nat} {item : ReportItem} {i : ItemRows}
    (h : ItemWritten pg ⟨draw, fun _ => base.evidence⟩ reportId byItem rank item i) :
    ItemBound pg base i item := by
  refine ⟨i.item.noticeVersionId, h.version, ?_, ?_⟩
  · exact h.citations.bound.imp fun _ _ hc => isBound_names hc.2
  · exact Joins.forall₂_zipIdx (h.claims.imp fun c claim hc =>
      hc.citations.bound.imp fun _ _ hn => isBound_names hn)

variable (env vs) in
theorem writeReport_outcome (hsees : ∀ k, env.evidence k = base.evidence) (run : Uuid)
    (hversions : ∀ item ∈ report.items, ∃ version, pg.parseUuid item.noticeId = some version) :
    Ends (ItemsBindable pg base ev report.items) (fun _ => True) (writeReport pg env ev run report vs) := by
  unfold writeReport
  dsimp only
  rcases persistItems_outcome hsees (reportRow (env.draw 0) run report).id (indexVerifications vs) report.items
      0 1 hversions with ⟨hr, r, h, -⟩ | ⟨hr, m, h⟩
  · rw [h]
    exact .inl ⟨hr, _, rfl, trivial⟩
  · rw [h]
    exact .inr ⟨hr, m, rfl⟩

/-- A transaction that ends keeps the law. -/
theorem persists_of_written (hrun : pg.parseUuid report.runId = some run)
    (hfind : findByRunId db.rows run = none)
    (hversions : ∀ item ∈ report.items, ∃ v ∈ db.base.versions, pg.parseUuid item.noticeId = some v)
    (ht : writeReport pg ⟨draw, fun _ => db.base.evidence⟩ ev run report vs = .ok t) :
    Persists pg ev draw db report vs where
  raises m := by
    unfold persistOnlineReport
    simp only [hrun, hfind, ht]
    split
    · simp [afterIntegrityError, hfind]
    · simp
  binds hfresh hruns := by
    obtain ⟨run', hmem, hrun'⟩ := hruns
    rw [hrun, Option.some.injEq] at hrun'
    obtain ⟨db', hdb⟩ := commit_fresh hfresh (fun _ _ he => he) (hrun' ▸ hmem) hfind hversions ht
    obtain ⟨hbase, hrows⟩ := commit_ok hdb
    obtain ⟨-, hwritten, -⟩ := writeReport_written ht
    have hbound : List.Forall₂ (ItemBound pg db.base) t.items report.items :=
      Joins.forall₂_zipIdx (hwritten.imp fun i item hw => itemBound_written hw)
    refine ⟨⟨pg.uuidStr t.report.id, report, t.report.docxObjectKey⟩, db', t, ?_, hbase, hrows,
      hbound⟩
    unfold persistOnlineReport
    simp only [hrun, hfind, ht, hdb]

/-- **An accepted draft can be persisted exactly when its items' own citations
resolve too**, and what it cites is stored under the hash it cites; its versions
stored and its run not yet reported. -/
theorem persists_iff (lib : Lib) (pg : Pg) (ev : EvidenceById) (draw : Nat → Uuid) (db : Db)
    (report : Report) (vs : List ClaimVerification) (items : List ReportItem)
    (hvalid : (validateReport lib items ev).valid = true)
    (hstamped : report.items = applySupportStatus items vs)
    (hversions : ∀ item ∈ items, ∃ v ∈ db.base.versions, pg.parseUuid item.noticeId = some v)
    (hnew : loadOnlineReport pg db report.runId = .ok none) :
    Persists pg ev draw db report vs ↔ CitationsStored pg db.base ev items := by
  obtain ⟨run, hrun, hfind⟩ := new_run hnew
  have hstored : ∀ item ∈ report.items, ∃ v ∈ db.base.versions,
      pg.parseUuid item.noticeId = some v := by
    rw [hstamped]
    exact stamped_versions hversions
  have hparsed : ∀ item ∈ report.items, ∃ v, pg.parseUuid item.noticeId = some v := by
    intro item hitem
    obtain ⟨v, -, hv⟩ := hstored item hitem
    exact ⟨v, hv⟩
  have hbindable : ItemsBindable pg db.base ev report.items ↔ ItemsBindable pg db.base ev items := by
    rw [hstamped]
    exact citedIds_stamped vs
  rw [← itemsBindable_iff hvalid, ← hbindable]
  rcases writeReport_outcome ⟨draw, fun _ => db.base.evidence⟩ vs (fun _ => rfl) run hparsed with
    ⟨hr, t, ht, -⟩ | ⟨hr, m, hm⟩
  · exact iff_of_true (persists_of_written hrun hfind hstored ht) hr
  · refine iff_of_false (fun h => h.raises m ?_) hr
    unfold persistOnlineReport
    simp only [hrun, hfind, hm]

/-! ## An item and its span -/

/-- The items `twinItems` has, the first with a citation of its own. -/
def citingItems (evidenceId : String) : List ReportItem :=
  [{ quotedItem "paid" with citations := [{ evidenceId }] }, quotedItem "waived"]

def citingReport (evidenceId : String) : Report :=
  { (twinCall alwaysSupported).report with items := applySupportStatus (citingItems evidenceId) [] }

theorem quoted_keyed : KeyedByHash quotedEvidence := by
  intro k binding hget span hspan
  unfold quotedEvidence at hget
  rw [Dict.get_set] at hget
  split at hget
  · rename_i hk
    obtain rfl := Option.some.inj hget
    obtain rfl := List.mem_singleton.mp hspan
    exact hk
  · cases hget

theorem quoted_stored : EvidenceStored hexPg quotedDb.base quotedEvidence := by
  intro k binding hget span hspan
  unfold quotedEvidence at hget
  rw [Dict.get_set] at hget
  split at hget
  · obtain rfl := Option.some.inj hget
    obtain rfl := List.mem_singleton.mp hspan
    exact ⟨⟨7, 11, "fee", 0, 3, "sha256:fee"⟩, by decide +kernel, by decide +kernel, rfl⟩
  · cases hget

theorem citing_versions (evidenceId : String) : ∀ item ∈ citingItems evidenceId,
    ∃ v ∈ quotedDb.base.versions, hexPg.parseUuid item.noticeId = some v := by
  have hparse : hexPg.parseUuid "00000000-0000-0000-0000-00000000000b" = some 11 := by
    decide +kernel
  intro item hitem
  refine ⟨11, List.mem_singleton_self _, ?_⟩
  rcases List.mem_cons.mp hitem with rfl | hitem
  · exact hparse
  · obtain rfl := List.mem_singleton.mp hitem
    exact hparse

/-- A report whose item cites the span its claims cite. -/
theorem citing_persists :
    Persists hexPg quotedEvidence (100 + ·) quotedDb (citingReport "sha256:fee") [] := by
  have hvalid : (validateReport asciiLib (citingItems "sha256:fee") quotedEvidence).valid = true := by decide +kernel
  refine (persists_iff asciiLib hexPg quotedEvidence (100 + ·) quotedDb (citingReport "sha256:fee")
    [] (citingItems "sha256:fee") hvalid rfl (citing_versions _) (by decide +kernel)).mpr ?_
  refine (citationsStored_iff hvalid quoted_keyed quoted_stored).mpr ?_
  intro item hitem c hc
  rcases List.mem_cons.mp hitem with rfl | hitem
  · obtain rfl := List.mem_singleton.mp hc
    exact ⟨.one quotedSpan, by decide +kernel, quotedSpan, List.mem_singleton_self _, rfl⟩
  · obtain rfl := List.mem_singleton.mp hitem
    cases hc

/-- A draft that cites a span nobody extracted is accepted, since no claim
cites it; persisting it raises `DeliveryError`. -/
theorem citing_raises :
    (validateReport asciiLib (citingItems "sha256:due") quotedEvidence).valid = true ∧
    EvidenceStored hexPg quotedDb.base quotedEvidence ∧
    (∀ item ∈ citingItems "sha256:due", ∃ v ∈ quotedDb.base.versions,
      hexPg.parseUuid item.noticeId = some v) ∧
    ¬ Persists hexPg quotedEvidence (100 + ·) quotedDb (citingReport "sha256:due") [] := by
  refine ⟨by decide +kernel, quoted_stored, citing_versions _, fun h => ?_⟩
  refine h.raises "report citation is not bound to this notice version" ?_
  decide +kernel

end BidScope.L7
