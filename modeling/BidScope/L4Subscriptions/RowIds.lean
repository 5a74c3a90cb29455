import BidScope.Core.KeyOrder
import BidScope.L4Subscriptions.Notices

/-!
# Alerts and row ids

The claim texts of a version are read back in the order of their row ids, and
the ids are drawn at random when the rows are stored. An update of a notice
therefore has one imported content and many assignments of ids, and the diff of
one and the same update may differ between them.

* `alert_eq`: the diff reports a material change exactly when a material field
  or the order of the claim texts, as their ids put them, differs.
* `alert_stable_iff`: the diff is the same under all assignments exactly when a
  field differs, the texts differ as multisets, or all texts are one text.
-/
namespace BidScope.L4

open BidScope.L1

/-- A notice seen at one version and stored with a later one, before its
evidence rows have ids. The texts are in import order. -/
structure Update where
  source : SourceNotice
  noticeId : String
  oldHash : String
  newHash : String
  old : NoticeVersion
  new : NoticeVersion
  oldTexts : List String
  newTexts : List String
  /-- `uq_notice_versions_source_notice_id_content_hash` -/
  distinct : oldHash ≠ newHash
  later : old.createdAt < new.createdAt
  keyed : new.id ≠ ""

namespace Update

/-- Rows for the two versions: the imported texts, each row with an id of its own. -/
structure Assigned (u : Update) (oldRows newRows : List EvidenceRow) : Prop where
  oldTexts : oldRows.map (·.text) = u.oldTexts
  newTexts : newRows.map (·.text) = u.newTexts
  distinct : ((oldRows ++ newRows).map (·.id)).Nodup

def oldVersion (u : Update) (rows : List EvidenceRow) : NoticeVersion :=
  { u.old with evidence := rows }

def newVersion (u : Update) (rows : List EvidenceRow) : NoticeVersion :=
  { u.new with evidence := rows }

def stored (u : Update) (oldRows newRows : List EvidenceRow) : SourceNotice :=
  { u.source with
    versions := (Dict.empty.set u.oldHash (u.oldVersion oldRows)).set u.newHash
      (u.newVersion newRows) }

def db (u : Update) (oldRows newRows : List EvidenceRow) : NoticeDb :=
  Dict.empty.set u.noticeId (u.stored oldRows newRows)

variable (lib : Lib)

/-- The diff of a run whose report cites the new version. -/
def alert (u : Update) (order : List String) (oldRows newRows : List EvidenceRow) :
    List InboxEvent × Stats :=
  diffAndEmit lib (loadSeenViews (u.db oldRows newRows) (Dict.empty.set u.noticeId u.oldHash))
    (noticeViewsFromReport order (u.db oldRows newRows) [u.new.id])

/-- The material fields other than the claim texts agree. -/
def SameFields (u : Update) : Prop :=
  L1.SameFields lib (buildNoticeView u.source u.oldHash u.old)
    (buildNoticeView u.source u.newHash u.new)

def silent : List InboxEvent × Stats := ([], { unchanged := 1 })

def changed (u : Update) : List InboxEvent × Stats :=
  ([⟨"material_change", u.noticeId, u.new.title, "Material change in: " ++ titleStr u.new.title⟩],
    { materialChanges := 1 })

/-! ## What the diff reads -/

variable {lib} {u : Update} {order : List String} {oldRows newRows : List EvidenceRow}

theorem versions_entries : (u.stored oldRows newRows).versions.entries =
    [(u.oldHash, u.oldVersion oldRows), (u.newHash, u.newVersion newRows)] := by
  simp [stored, Dict.set, Dict.put, Dict.empty, u.distinct]

theorem db_get : (u.db oldRows newRows).get u.noticeId = some (u.stored oldRows newRows) :=
  Dict.get_set_self ..

theorem stored_old : (u.stored oldRows newRows).versions.get u.oldHash =
    some (u.oldVersion oldRows) := by
  have hne : u.newHash ≠ u.oldHash := u.distinct.symm
  simp [stored, hne]

theorem stored_latest :
    latestVersion order (u.stored oldRows newRows) = some (u.newHash, u.newVersion newRows) := by
  have hmax : max u.old.createdAt u.new.createdAt = u.new.createdAt := max_eq_right u.later.le
  have hne : u.new.createdAt ≠ u.old.createdAt := u.later.ne'
  have hnewest : newestVersions (u.stored oldRows newRows) = [(u.newHash, u.newVersion newRows)] := by
    simp [newestVersions, versions_entries, oldVersion, newVersion, List.max?, hmax, hne]
  rw [latestVersion, hnewest, lastRead_singleton]

theorem seen_get :
    (loadSeenViews (u.db oldRows newRows) (Dict.empty.set u.noticeId u.oldHash)).get u.noticeId =
      some (buildNoticeView (u.stored oldRows newRows) u.oldHash (u.oldVersion oldRows)) := by
  rw [get_loadSeenViews, Dict.get_set_self]
  simp [seenView, db_get, stored_old]

theorem cited_entries :
    (noticeViewsFromReport order (u.db oldRows newRows) [u.new.id]).entries =
    [(u.noticeId,
      buildNoticeView (u.stored oldRows newRows) u.newHash (u.newVersion newRows))] := by
  have hsource : sourceNoticeOf (u.db oldRows newRows) u.new.id = some u.noticeId := by
    simp [sourceNoticeOf, db, Dict.set, Dict.put, Dict.empty, stored, newVersion, oldVersion,
      u.distinct]
  have hview : latestView order (u.db oldRows newRows) u.noticeId =
      some (buildNoticeView (u.stored oldRows newRows) u.newHash (u.newVersion newRows)) := by
    simp [latestView, db_get, stored_latest]
  simp [noticeViewsFromReport, u.keyed, hsource, hview, Dict.ofList, Dict.set, Dict.put, Dict.empty]

theorem sameFields_stored :
    L1.SameFields lib
      (buildNoticeView (u.stored oldRows newRows) u.oldHash (u.oldVersion oldRows))
      (buildNoticeView (u.stored oldRows newRows) u.newHash (u.newVersion newRows)) ↔
    u.SameFields lib :=
  ⟨fun h => ⟨h.1, h.2, h.3, h.4, h.5, h.6⟩, fun h => ⟨h.1, h.2, h.3, h.4, h.5, h.6⟩⟩

/-- The order of the claim texts decides once the fields agree. -/
theorem alert_eq [Decidable (u.SameFields lib)] : u.alert lib order oldRows newRows =
    if u.SameFields lib ∧ evidenceTexts (u.oldVersion oldRows) = evidenceTexts (u.newVersion newRows)
    then silent else u.changed := by
  have hnil := detectMaterialChanges_eq_nil lib
    (buildNoticeView (u.stored oldRows newRows) u.oldHash (u.oldVersion oldRows))
    (buildNoticeView (u.stored oldRows newRows) u.newHash (u.newVersion newRows))
  rw [sameFields_stored] at hnil
  change _ ↔ u.SameFields lib ∧
    evidenceTexts (u.oldVersion oldRows) = evidenceTexts (u.newVersion newRows) at hnil
  unfold alert diffAndEmit
  simp only [cited_entries, List.filterMap_cons, List.filterMap_nil, List.foldl_cons,
    List.foldl_nil, verdict_eq, seen_get]
  by_cases hsame : u.SameFields lib ∧
      evidenceTexts (u.oldVersion oldRows) = evidenceTexts (u.newVersion newRows)
  · rw [if_pos hsame, if_neg fun h => h.2 (hnil.mpr hsame)]
    rfl
  · rw [if_neg hsame, if_pos ⟨u.distinct, fun h => hsame (hnil.mp h)⟩]
    rfl

/-! ## Texts under an assignment -/

theorem evidenceTexts_perm (v : NoticeVersion) :
    (evidenceTexts v).Perm (v.evidence.map (·.text)) :=
  (KeyOrder.orderBy_perm EvidenceRow.id v.evidence).map _

/-- Any two arrangements of the texts are read back under some assignment. -/
theorem exists_assigned {left right : List String} (hl : left.Perm u.oldTexts)
    (hr : right.Perm u.newTexts) : ∃ oldRows newRows, u.Assigned oldRows newRows ∧
      evidenceTexts (u.oldVersion oldRows) = left ∧
      evidenceTexts (u.newVersion newRows) = right := by
  let row : Nat × String → EvidenceRow := fun p => ⟨p.1, p.2⟩
  have hread : ∀ rows : List (Nat × String),
      (KeyOrder.orderBy EvidenceRow.id (rows.map row)).map (·.text) =
        (KeyOrder.orderBy Prod.fst rows).map Prod.snd := by
    intro rows
    have hmap := List.map_insertionSort (r := fun a b : Nat × String => a.1 ≤ b.1)
      (s := fun a b : EvidenceRow => a.id ≤ b.id) row rows fun _ _ _ _ => Iff.rfl
    rw [KeyOrder.orderBy, KeyOrder.orderBy, ← hmap, List.map_map]
    rfl
  -- the ids of the second version start where those of the first end
  obtain ⟨lrows, hlv, hlo, hld, hlb⟩ := KeyOrder.exists_keys hl 0
  obtain ⟨rrows, hrv, hro, hrd, hrb⟩ := KeyOrder.exists_keys hr u.oldTexts.length
  refine ⟨lrows.map row, rrows.map row, ⟨?_, ?_, ?_⟩, ?_, ?_⟩
  · rw [List.map_map, ← hlv]
    rfl
  · rw [List.map_map, ← hrv]
    rfl
  · rw [List.map_append, List.map_map, List.map_map]
    refine List.nodup_append.mpr ⟨hld, hrd, ?_⟩
    intro i hi j hj hij
    obtain ⟨p, hp, rfl⟩ := List.mem_map.mp hi
    obtain ⟨q, hq, rfl⟩ := List.mem_map.mp hj
    have h₁ := (hlb p hp).2
    have h₂ := (hrb q hq).1
    simp only [Function.comp, row] at hij
    omega
  · rw [evidenceTexts, oldVersion, hread, hlo]
  · rw [evidenceTexts, newVersion, hread, hro]

/-! ## The law -/

/-- One result under all assignments, and none of a material change when both
versions were imported with the same texts and fields. -/
def Stable (lib : Lib) (u : Update) : Prop :=
  (∀ order oldRows newRows order' oldRows' newRows',
    u.Assigned oldRows newRows → u.Assigned oldRows' newRows' →
      u.alert lib order oldRows newRows = u.alert lib order' oldRows' newRows') ∧
  (u.oldTexts = u.newTexts → u.SameFields lib → ∀ order oldRows newRows,
    u.Assigned oldRows newRows → u.alert lib order oldRows newRows = silent)

/-- A field differs, or the texts differ as multisets, or all of them are one text. -/
def OrderBlind (lib : Lib) (u : Update) : Prop :=
  ¬ u.SameFields lib ∨ ¬ u.oldTexts.Perm u.newTexts ∨ ∀ x ∈ u.oldTexts, ∀ y ∈ u.oldTexts, x = y

theorem silent_ne_changed : silent ≠ u.changed := by
  intro h
  cases h

/-- Two different texts can be read back in different orders. -/
theorem not_stable (hsame : u.SameFields lib) (hperm : u.oldTexts.Perm u.newTexts)
    {x y : String} (hx : x ∈ u.oldTexts) (hy : y ∈ u.oldTexts) (hxy : x ≠ y) :
    ¬ u.Stable lib := by
  classical
  intro hst
  obtain ⟨a, b, hab, ha, hb⟩ := exists_assigned (u := u) (List.Perm.refl _) hperm
  obtain ⟨c, d, hcd, hc, hd⟩ := exists_assigned (u := u) (List.perm_cons_erase hx).symm
    ((List.perm_cons_erase hy).symm.trans hperm)
  have hne : evidenceTexts (u.oldVersion c) ≠ evidenceTexts (u.newVersion d) := by
    rw [hc, hd]
    intro h
    exact hxy (List.cons.inj h).1
  have h := hst.1 [] a b [] c d hab hcd
  rw [alert_eq, alert_eq, if_pos ⟨hsame, by rw [ha, hb]⟩, if_neg fun h => hne h.2] at h
  exact silent_ne_changed h

theorem texts_ne_of_not_perm (ha : u.Assigned oldRows newRows)
    (hperm : ¬ u.oldTexts.Perm u.newTexts) :
    evidenceTexts (u.oldVersion oldRows) ≠ evidenceTexts (u.newVersion newRows) := by
  intro heq
  have hl := evidenceTexts_perm (u.oldVersion oldRows)
  rw [heq] at hl
  apply hperm
  rw [← ha.oldTexts, ← ha.newTexts]
  exact hl.symm.trans (evidenceTexts_perm (u.newVersion newRows))

/-- Arrangements of one repeated text are equal. -/
theorem texts_eq_of_constant (ha : u.Assigned oldRows newRows)
    (hperm : u.oldTexts.Perm u.newTexts) (hone : ∀ x ∈ u.oldTexts, ∀ y ∈ u.oldTexts, x = y) :
    evidenceTexts (u.oldVersion oldRows) = evidenceTexts (u.newVersion newRows) := by
  have hl : (evidenceTexts (u.oldVersion oldRows)).Perm u.oldTexts := by
    rw [← ha.oldTexts]
    exact evidenceTexts_perm _
  have hr : (evidenceTexts (u.newVersion newRows)).Perm u.newTexts := by
    rw [← ha.newTexts]
    exact evidenceTexts_perm _
  have hlone : (evidenceTexts (u.oldVersion oldRows)).Pairwise fun x y => x = y :=
    List.pairwise_of_forall_mem_list fun x hx y hy => hone x (hl.subset hx) y (hl.subset hy)
  have hrone : (evidenceTexts (u.newVersion newRows)).Pairwise fun x y => x = y :=
    List.pairwise_of_forall_mem_list fun x hx y hy =>
      hone x (hperm.symm.subset (hr.subset hx)) y (hperm.symm.subset (hr.subset hy))
  exact (hl.trans (hperm.trans hr.symm)).eq_of_pairwise (fun _ _ _ _ h _ => h) hlone hrone

/-- **Alerts depend on row ids exactly where an order of claim texts decides.** -/
theorem alert_stable_iff (lib : Lib) (u : Update) : u.Stable lib ↔ u.OrderBlind lib := by
  classical
  constructor
  · intro hst
    by_cases hsame : u.SameFields lib
    · by_cases hperm : u.oldTexts.Perm u.newTexts
      · right; right
        intro x hx y hy
        by_contra hxy
        exact not_stable hsame hperm hx hy hxy hst
      · exact Or.inr (Or.inl hperm)
    · exact Or.inl hsame
  · intro h
    by_cases hsame : u.SameFields lib
    · by_cases hperm : u.oldTexts.Perm u.newTexts
      · have hone := (h.resolve_left fun hn => hn hsame).resolve_left fun hn => hn hperm
        have htexts := fun a b (hab : u.Assigned a b) => texts_eq_of_constant hab hperm hone
        refine ⟨fun _ a b _ c d hab hcd => ?_, fun _ _ _ a b hab => ?_⟩
        · rw [alert_eq, alert_eq, if_pos ⟨hsame, htexts a b hab⟩, if_pos ⟨hsame, htexts c d hcd⟩]
        · rw [alert_eq, if_pos ⟨hsame, htexts a b hab⟩]
      · -- other texts are never read back as the same list
        have hne := fun a b (hab : u.Assigned a b) => texts_ne_of_not_perm hab hperm
        refine ⟨fun _ a b _ c d hab hcd => ?_, fun heq => absurd (List.Perm.of_eq heq) hperm⟩
        rw [alert_eq, alert_eq, if_neg fun h => hne a b hab h.2, if_neg fun h => hne c d hcd h.2]
    · refine ⟨fun _ a b _ c d _ _ => ?_, fun _ hs => absurd hs hsame⟩
      rw [alert_eq, alert_eq, if_neg fun h => hsame h.1, if_neg fun h => hsame h.1]

/-! ## One list of texts, two results -/

/-- A notice stored again with another summary: same fields, same two texts. -/
def twoTexts : Update where
  source := ⟨"ccgp", "T-1", "https://example.org/t-1", none, .empty⟩
  noticeId := "notice-1"
  oldHash := "h1"
  newHash := "h2"
  old := { id := "v1", createdAt := 1 }
  new := { id := "v2", createdAt := 2 }
  oldTexts := ["budget 100", "due in May"]
  newTexts := ["budget 100", "due in May"]
  distinct := by decide
  later := by decide
  keyed := by decide

def oldRows₀ : List EvidenceRow := [⟨0, "budget 100"⟩, ⟨1, "due in May"⟩]

def crossedRows : List EvidenceRow := [⟨3, "budget 100"⟩, ⟨2, "due in May"⟩]

/-- The second version's ids came out in the other order: an alert for nothing. -/
theorem crossed_not_stable :
    (twoTexts.Assigned oldRows₀ crossedRows ∧ twoTexts.SameFields asciiLib ∧
      twoTexts.alert asciiLib ["v1", "v2"] oldRows₀ crossedRows = twoTexts.changed) ∧
    ¬ twoTexts.Stable asciiLib := by
  have hassigned : twoTexts.Assigned oldRows₀ crossedRows := ⟨by decide, by decide, by decide⟩
  have hsame : twoTexts.SameFields asciiLib := ⟨by decide, rfl, rfl, rfl, rfl, rfl⟩
  have halert : twoTexts.alert asciiLib ["v1", "v2"] oldRows₀ crossedRows = twoTexts.changed := by
    decide +kernel
  refine ⟨⟨hassigned, hsame, halert⟩, fun hst => ?_⟩
  have hsilent := hst.2 rfl hsame ["v1", "v2"] oldRows₀ crossedRows hassigned
  rw [halert] at hsilent
  exact silent_ne_changed hsilent.symm

end Update

end BidScope.L4
