import BidScope.L2Graph.Duplicates
import BidScope.L4Subscriptions.Notices

/-!
# Two views of one version

The run graph loads notice views with `_load_notice_views`
(`api/dependencies.py`), the subscription diff builds them with
`_build_notice_view`. The first reads no source notice: source, URL and project
number of its views are stand-ins.

* `get_loadNoticeViews`: the view loaded of a stored version.
* `recognised_iff`: the graph finds two stored versions exact by their content
  hashes or by their stand-in URLs.
* `viewsAgree_iff`: the two agree on a store, and known duplicates are found in
  the graph, exactly when every stored version belongs to a notice that has the
  stand-ins' values.
-/
namespace BidScope.L4

open BidScope.L1

/-- The versions of all notices with their hashes. -/
def allVersions (db : NoticeDb) : List (String × NoticeVersion) :=
  db.entries.flatMap fun e => e.2.versions.entries

/-- Stored notices: the ids of their versions are distinct. -/
structure StoredNotices where
  db : NoticeDb
  distinct : ((allVersions db).map (·.2.id)).Nodup

/-- One view of `_load_notice_views`. -/
def loadedView (contentHash : String) (version : NoticeVersion) : NoticeView where
  source := "synthetic_demo"
  externalId := version.id
  canonicalUrl := "https://example.invalid/" ++ version.id
  projectNumber := none
  contentHash := contentHash
  title := version.title
  purchaser := version.purchaser
  region := version.region
  budgetMinorUnits := version.budgetMinorUnits
  budgetCurrency := version.budgetCurrency
  deadline := version.deadline
  cancellation := version.cancellation
  claimSupportingTexts := evidenceTexts version

/-- mirrors api/dependencies.py:90-132 -/
def loadNoticeViews (db : NoticeDb) (noticeVersionIds : List String) : Dict String NoticeView :=
  .ofList (((allVersions db).filter fun e => noticeVersionIds.contains e.2.id).map
    fun e => (e.2.id, loadedView e.1 e.2))

/-- The version is stored under this hash with this source notice. -/
def IsStored (db : NoticeDb) (source : SourceNotice) (contentHash : String)
    (version : NoticeVersion) : Prop :=
  ∃ noticeId, db.get noticeId = some source ∧ source.versions.get contentHash = some version

theorem mem_allVersions {db : NoticeDb} {source : SourceNotice} {contentHash : String}
    {version : NoticeVersion} (h : IsStored db source contentHash version) :
    (contentHash, version) ∈ allVersions db := by
  obtain ⟨noticeId, hsource, hversion⟩ := h
  exact List.mem_flatMap.mpr ⟨(noticeId, source), (Dict.mem_iff_get ..).mpr hsource,
    (Dict.mem_iff_get ..).mpr hversion⟩

variable {lib : Lib} {stored : StoredNotices} {source source' : SourceNotice}
  {contentHash contentHash' : String} {version version' : NoticeVersion}

/-- Each version is stored once. -/
theorem filter_allVersions (hversion : (contentHash, version) ∈ allVersions stored.db) :
    (allVersions stored.db).filter (fun e => e.2.id = version.id) = [(contentHash, version)] := by
  have hinj := List.inj_on_of_nodup_map stored.distinct
  have hcount := List.count_eq_one_of_mem (List.Nodup.of_map _ stored.distinct) hversion
  have hsame : ∀ e ∈ allVersions stored.db,
      decide (e.2.id = version.id) = (e == (contentHash, version)) := by
    intro e he
    rw [Bool.eq_iff_iff, decide_eq_true_eq, beq_iff_eq]
    exact ⟨fun hid => hinj he hversion hid, fun heq => by rw [heq]⟩
  rw [List.filter_congr hsame, List.filter_beq, hcount, List.replicate_one]

theorem get_loadNoticeViews {ids : List String}
    (h : IsStored stored.db source contentHash version) (hid : version.id ∈ ids) :
    (loadNoticeViews stored.db ids).get version.id = some (loadedView contentHash version) := by
  have hselected : ∀ e ∈ allVersions stored.db,
      (decide (e.2.id = version.id) && ids.contains e.2.id) = decide (e.2.id = version.id) := by
    intro e _
    by_cases he : e.2.id = version.id
    · simp [he, hid]
    · simp [he]
  unfold loadNoticeViews
  rw [Dict.get_ofList, List.filter_map, List.filter_filter]
  simp only [Function.comp_apply]
  rw [List.filter_congr hselected, filter_allVersions (mem_allVersions h)]
  rfl

/-- The fields the two detectors read. -/
structure Agree (v w : NoticeView) : Prop where
  source : v.source = w.source
  canonicalUrl : v.canonicalUrl = w.canonicalUrl
  projectNumber : v.projectNumber = w.projectNumber
  contentHash : v.contentHash = w.contentHash
  title : v.title = w.title
  purchaser : v.purchaser = w.purchaser
  region : v.region = w.region
  budgetMinorUnits : v.budgetMinorUnits = w.budgetMinorUnits
  budgetCurrency : v.budgetCurrency = w.budgetCurrency
  deadline : v.deadline = w.deadline
  cancellation : v.cancellation = w.cancellation
  claimSupportingTexts : v.claimSupportingTexts = w.claimSupportingTexts

/-- Two notices are one by their project numbers or by source and URL. -/
def KnownDuplicate (lib : Lib) (v w : NoticeView) : Prop :=
  (strip (orEmpty v.projectNumber) ≠ "" ∧
    strip (orEmpty v.projectNumber) = strip (orEmpty w.projectNumber)) ∨
  (v.source = w.source ∧ canonicalizeUrl lib v.canonicalUrl = canonicalizeUrl lib w.canonicalUrl)

/-- The views the graph loads are those the diff builds, and known duplicates
among stored versions are exact in the graph. -/
structure ViewsAgree (lib : Lib) (stored : StoredNotices) : Prop where
  agree : ∀ source contentHash version, IsStored stored.db source contentHash version →
    ∀ ids, version.id ∈ ids → ∃ view, (loadNoticeViews stored.db ids).get version.id = some view ∧
      Agree view (buildNoticeView source contentHash version)
  recognised : ∀ source contentHash version source' contentHash' version',
    IsStored stored.db source contentHash version →
    IsStored stored.db source' contentHash' version' →
    KnownDuplicate lib (buildNoticeView source contentHash version)
      (buildNoticeView source' contentHash' version') →
    ∀ ids, version.id ∈ ids → version'.id ∈ ids →
      L2.pairDecision lib (loadNoticeViews stored.db ids) (version.id, version'.id) = some .exact

/-- The notice has the values `_load_notice_views` puts in. -/
structure HasStandIns (notice : SourceNotice) (version : NoticeVersion) : Prop where
  source : notice.source = "synthetic_demo"
  sourceUrl : notice.sourceUrl = "https://example.invalid/" ++ version.id
  projectNumber : notice.projectNumber = none

theorem agree_iff : Agree (loadedView contentHash version)
    (buildNoticeView source contentHash version) ↔ HasStandIns source version := by
  constructor
  · intro h
    exact ⟨h.source.symm, h.canonicalUrl.symm, h.projectNumber.symm⟩
  · intro h
    exact ⟨h.source.symm, h.sourceUrl.symm, h.projectNumber.symm, rfl, rfl, rfl, rfl, rfl, rfl,
      rfl, rfl, rfl⟩

theorem knownDuplicate_congr {v v' w w' : NoticeView} (hv : Agree v v') (hw : Agree w w')
    (h : KnownDuplicate lib v' w') : KnownDuplicate lib v w := by
  unfold KnownDuplicate at *
  rw [hv.projectNumber, hw.projectNumber, hv.source, hw.source, hv.canonicalUrl, hw.canonicalUrl]
  exact h

/-- What the graph finds exact: one content hash, or one stand-in URL. -/
theorem recognised_iff {ids : List String} (h : IsStored stored.db source contentHash version)
    (h' : IsStored stored.db source' contentHash' version') (hid : version.id ∈ ids)
    (hid' : version'.id ∈ ids) :
    L2.pairDecision lib (loadNoticeViews stored.db ids) (version.id, version'.id) = some .exact ↔
      L2.StrongEvidence lib (loadedView contentHash version)
        (loadedView contentHash' version') := by
  unfold L2.pairDecision
  rw [get_loadNoticeViews h hid, get_loadNoticeViews h' hid']
  rcases L2.classifyDuplicate_cases lib (loadedView contentHash version)
    (loadedView contentHash' version') with ⟨hs, hd⟩ | ⟨hs, -, hd⟩ | ⟨hs, -, hd⟩
  · simp [hs, hd]
  · simp [hs, hd]
  · simp [hs, hd]

/-- The two builders agree on a store exactly when all its notices have the
values the graph puts in. -/
theorem viewsAgree_iff (lib : Lib) (stored : StoredNotices) :
    ViewsAgree lib stored ↔ ∀ source contentHash version,
      IsStored stored.db source contentHash version → HasStandIns source version := by
  constructor
  · intro hlaw source contentHash version h
    obtain ⟨view, hget, hagree⟩ := hlaw.agree source contentHash version h [version.id]
      (List.mem_singleton_self _)
    rw [get_loadNoticeViews h (List.mem_singleton_self _)] at hget
    obtain rfl := Option.some.inj hget
    exact agree_iff.mp hagree
  · intro hall
    constructor
    · intro source contentHash version h ids hid
      exact ⟨_, get_loadNoticeViews h hid, agree_iff.mpr (hall source contentHash version h)⟩
    · intro source contentHash version source' contentHash' version' h h' hknown ids hid hid'
      have hagree : Agree (loadedView contentHash version)
          (buildNoticeView source contentHash version) := agree_iff.mpr (hall _ _ _ h)
      have hagree' : Agree (loadedView contentHash' version')
          (buildNoticeView source' contentHash' version') := agree_iff.mpr (hall _ _ _ h')
      exact (recognised_iff h h' hid hid').mpr
        (Or.inr (knownDuplicate_congr hagree hagree' hknown))

/-! ## One project number -/

def ccgpNotice (externalId versionId contentHash : String) : SourceNotice where
  source := "ccgp"
  externalId := externalId
  sourceUrl := "https://ccgp/" ++ externalId
  projectNumber := some "P-7"
  versions := .ofList [(contentHash, { id := versionId, createdAt := 1 })]

/-- Two notices of one project. -/
def oneProject : StoredNotices where
  db := .ofList [("n1", ccgpNotice "a" "v1" "h1"), ("n2", ccgpNotice "b" "v2" "h2")]
  distinct := by decide +kernel

/-- The diff sees two notices of project `P-7`; the graph sees neither the
project nor the source, and asks the model. -/
theorem oneProject_views_differ : ¬ ViewsAgree asciiLib oneProject ∧
    KnownDuplicate asciiLib
      (buildNoticeView (ccgpNotice "a" "v1" "h1") "h1" { id := "v1", createdAt := 1 })
      (buildNoticeView (ccgpNotice "b" "v2" "h2") "h2" { id := "v2", createdAt := 1 }) ∧
    L2.pairDecision asciiLib (loadNoticeViews oneProject.db ["v1", "v2"]) ("v1", "v2") =
      some .ambiguous := by
  have hknown : KnownDuplicate asciiLib
      (buildNoticeView (ccgpNotice "a" "v1" "h1") "h1" { id := "v1", createdAt := 1 })
      (buildNoticeView (ccgpNotice "b" "v2" "h2") "h2" { id := "v2", createdAt := 1 }) :=
    Or.inl ⟨by decide +kernel, rfl⟩
  have hdecision : L2.pairDecision asciiLib (loadNoticeViews oneProject.db ["v1", "v2"])
      ("v1", "v2") = some .ambiguous := by
    decide +kernel
  refine ⟨fun h => ?_, hknown, hdecision⟩
  have hexact := h.recognised _ _ _ _ _ _
    ⟨"n1", by decide +kernel, by decide +kernel⟩ ⟨"n2", by decide +kernel, by decide +kernel⟩
    hknown ["v1", "v2"] (by simp) (by simp)
  rw [hdecision] at hexact
  cases hexact

end BidScope.L4
