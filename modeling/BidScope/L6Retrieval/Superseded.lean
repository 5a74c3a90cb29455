import BidScope.L2Graph.Verified
import BidScope.L5Snapshots.Histories
import BidScope.L6Retrieval.Honoured

/-!
# Superseded versions

Retrieval over the tables an import history leaves. The filter tests each
version row by itself; a version stays in the table when its notice gets newer
contents, and passes or fails as before.

* `currentOnly_iff`: retrieval returns current versions only, under every
  ranking, exactly when every content ever written that passes the intent's
  filter is the content its notice was imported with last.
-/
namespace BidScope.L6

open BidScope.L1 BidScope.L2
open BidScope.L5 (NoticeVersion SourceNotice Tables Written SnapshotLib ImportCall Sound Mirrored)

/-- The version with this id carries the hash of its source notice. -/
def IsCurrent (t : Tables) (id : String) : Prop :=
  ∃ v ∈ t.versions, v.id = id ∧ ∃ n ∈ t.sourceNotices,
    n.id = v.sourceNoticeId ∧ n.contentHash = v.contentHash

/-- Candidates and opportunities are current versions, and no notice is among
the candidates through two of its versions. -/
structure CurrentOnly (lib : Lib) (t : Tables) (intent : SearchIntent) : Prop where
  candidates : ∀ x : Retrieval lib t.versions intent, ∀ id ∈ x.candidates, IsCurrent t id
  opportunities : ∀ x : Retrieval lib t.versions intent, ∀ (p : Ports) (s : RunState) (u : Update),
    s.candidateNoticeIds = x.candidates → (verifyEvidence lib p s).result = .ok u →
    ∀ o ∈ u.verifiedOpportunities, IsCurrent t o.noticeId
  once : ∀ x : Retrieval lib t.versions intent, x.candidates.Nodup ∧
    ∀ v ∈ t.versions, ∀ v' ∈ t.versions, v.id ∈ x.candidates → v'.id ∈ x.candidates →
      v.sourceNoticeId = v'.sourceNoticeId → v = v'

/-- The content as imported passes the filter. -/
def contentPasses (filters : RetrievalFilter) (e : Written) : Bool :=
  passesFilter filters e.notice.cancellation e.notice.region e.notice.publishTime
    (e.notice.budget.map (·.minorUnits))

/-- No content that passes was followed by another one. -/
def NoneSuperseded (log : List Written) (intent : SearchIntent) : Prop :=
  ∀ e, Ledger.first Written.content log e.content = some e →
    contentPasses (filterOf intent) e = true →
    ∃ current, Ledger.last Written.key log e.key = some current ∧
      current.contentHash = e.contentHash

variable {lib : Lib} {slib : SnapshotLib} {t : Tables} {d : Nat} {intent : SearchIntent}

theorem passes_of_records {filters : RetrievalFilter} {e : Written} {v : NoticeVersion}
    (h : L5.Records e v) : passes filters v = contentPasses filters e := by
  unfold passes contentPasses
  rw [h.cancellation, h.region, h.publishDate, h.budgetMinorUnits]

/-- A version that passes the filter is a candidate of some retrieval, so it is current. -/
theorem CurrentOnly.current (h : CurrentOnly lib t intent) (hs : Sound slib t d)
    {v : NoticeVersion} (hv : v ∈ t.versions) (hpasses : passes (filterOf intent) v = true) :
    ∃ n ∈ t.sourceNotices, n.id = v.sourceNoticeId ∧ n.contentHash = v.contentHash := by
  obtain ⟨x, hx⟩ := exists_candidates lib t.versions intent
  obtain ⟨w, hw, hid, hcurrent⟩ := h.candidates x v.id (hx v hv hpasses)
  obtain rfl := List.inj_on_of_nodup_map hs.versionIds.1 hw hv hid
  exact hcurrent

/-- Where what passes is current, so are the candidates, and the notices differ. -/
theorem currentOnly_of (hs : Sound slib t d)
    (h : ∀ v ∈ t.versions, passes (filterOf intent) v = true →
      ∃ n ∈ t.sourceNotices, n.id = v.sourceNoticeId ∧ n.contentHash = v.contentHash) :
    CurrentOnly lib t intent := by
  have hcandidates : ∀ x : Retrieval lib t.versions intent, ∀ id ∈ x.candidates, IsCurrent t id := by
    intro x id hid
    obtain ⟨v, hv, hvid, hpasses⟩ := x.passes hid
    exact ⟨v, hv, hvid, h v hv hpasses⟩
  refine ⟨hcandidates, fun x p s u hs' hverify o ho => ?_, fun x => ⟨?_, ?_⟩⟩
  · obtain ⟨views, -, hids⟩ := verifyEvidence_opportunities hverify
    have hmem : o.noticeId ∈ s.candidateNoticeIds :=
      List.mem_of_mem_filter (hids ▸ List.mem_map_of_mem ho)
    exact hcandidates x o.noticeId (hs' ▸ hmem)
  · rw [x.candidates_eq]
    exact search_nodup
  · intro v hv v' hv' hc hc' hsame
    have hcurrent : ∀ w ∈ t.versions, w.id ∈ x.candidates →
        ∃ n ∈ t.sourceNotices, n.id = w.sourceNoticeId ∧ n.contentHash = w.contentHash := by
      intro w hw hwc
      obtain ⟨w', hw', hid, hn⟩ := hcandidates x w.id hwc
      obtain rfl := List.inj_on_of_nodup_map hs.versionIds.1 hw' hw hid
      exact hn
    obtain ⟨n, hn, hid, hhash⟩ := hcurrent v hv hc
    obtain ⟨n', hn', hid', hhash'⟩ := hcurrent v' hv' hc'
    obtain rfl := hs.notice_of_id hn hn' (hid.trans (hsame.trans hid'.symm))
    exact hs.version_of_key hv hv' hsame (hhash.symm.trans hhash')

theorem currentOnly_iff_passes (hs : Sound slib t d) : CurrentOnly lib t intent ↔
    ∀ v ∈ t.versions, passes (filterOf intent) v = true →
      ∃ n ∈ t.sourceNotices, n.id = v.sourceNoticeId ∧ n.contentHash = v.contentHash :=
  ⟨fun h _ hv hpasses => h.current hs hv hpasses, currentOnly_of hs⟩

/-- The versions that pass are current exactly when no content that passes was superseded. -/
theorem passing_current_iff (hs : Sound slib t d) (hm : Mirrored t) :
    (∀ v ∈ t.versions, passes (filterOf intent) v = true →
      ∃ n ∈ t.sourceNotices, n.id = v.sourceNoticeId ∧ n.contentHash = v.contentHash) ↔
    NoneSuperseded t.written intent := by
  constructor
  · intro h e hfirst hpasses
    obtain ⟨n, hn, hkey, -⟩ := hm.kept e (Ledger.first_mem hfirst).1
    obtain ⟨v, hv, hid, hhash, f, hf, hrec⟩ :=
      hm.first_version hs hn (Ledger.first_mem hfirst).1 hkey.symm
    rw [hfirst, Option.some.injEq] at hf
    subst hf
    obtain ⟨n', hn', hid', hhash'⟩ := h v hv ((passes_of_records hrec).trans hpasses)
    obtain rfl := hs.notice_of_id hn' hn (hid'.trans hid)
    obtain ⟨current, hlast, hcurrent⟩ := hm.current n' hn'
    exact ⟨current, hkey ▸ hlast, hcurrent.trans (hhash'.trans hhash)⟩
  · intro h v hv hpasses
    obtain ⟨n, hn, hid, e, hfirst, hrec⟩ := hm.stored v hv
    have hcontent := (Ledger.first_mem hfirst).2
    have hkey : e.key = n.key := congrArg Prod.fst hcontent
    obtain ⟨current, hlast, hcurrent⟩ := h e (hcontent ▸ hfirst)
      ((passes_of_records hrec).symm.trans hpasses)
    obtain ⟨current', hlast', hcurrent'⟩ := hm.current n hn
    rw [hkey, hlast', Option.some.injEq] at hlast
    refine ⟨n, hn, hid, ?_⟩
    rw [← hcurrent', hlast, hcurrent, ← hrec.contentHash]

/-- After a history, retrieval for an intent returns current versions only exactly
when no content that passes its filter was superseded. -/
theorem currentOnly_iff (lib : SnapshotLib) (calls : List ImportCall) (intent : SearchIntent) :
    CurrentOnly lib.toLib (L5.after lib calls).rows intent ↔
      NoneSuperseded (L5.after lib calls).rows.written intent := by
  have hs := (L5.after_resting lib calls).sound
  rw [currentOnly_iff_passes hs, passing_current_iff hs (L5.after_mirrored lib calls)]

/-! ## A withdrawn notice -/

def openNotice : L5.NormalizedNotice := { L5.demoNotice "Roadworks" with region := some "Zhejiang" }

/-- The notice is published, then withdrawn. -/
def withdrawnCalls : List ImportCall :=
  [L5.demoCall 1 "b-1" [openNotice],
   L5.demoCall 2 "b-2" [{ openNotice with cancellation := true }]]

def roadsIntent : SearchIntent where
  topics := ["road"]
  regions := ["Zhejiang"]
  confidence := 1
  confidenceRange := SearchIntent.sure
  dateRange := SearchIntent.anyDates
  budgetRange := SearchIntent.anyBudget

/-- The version before the withdrawal is not cancelled, passes, and is a candidate. -/
theorem withdrawn_still_found : ¬ CurrentOnly asciiLib
    (L5.after L5.asciiSnapshotLib withdrawnCalls).rows roadsIntent := by
  have hpasses : ∃ v ∈ (L5.after L5.asciiSnapshotLib withdrawnCalls).rows.versions,
      passes (filterOf roadsIntent) v = true ∧
      ∀ n ∈ (L5.after L5.asciiSnapshotLib withdrawnCalls).rows.sourceNotices,
        ¬ (n.id = v.sourceNoticeId ∧ n.contentHash = v.contentHash) := by
    decide +kernel
  intro h
  obtain ⟨v, hv, hpass, hnot⟩ := hpasses
  obtain ⟨n, hn, hcurrent⟩ :=
    h.current (L5.after_resting L5.asciiSnapshotLib withdrawnCalls).sound hv hpass
  exact hnot n hn hcurrent

end BidScope.L6
