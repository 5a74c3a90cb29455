import Mathlib.Data.List.MinMax
import BidScope.L5Snapshots.Histories

/-!
# The latest version of a notice

`SubscriptionService._latest_versions` over the tables an import history
leaves. It selects by `created_at`, the time of the transaction that inserted
the version. A content that is imported again finds its old row, so the version
with the largest `created_at` need not be the content imported last, and
versions that one transaction inserted share their time.

* `latestVersions_get`: the selected version is one of the newest of its
  notice, and each of them is selected for some order of the rows.
* `latestIsCurrent_iff`: what is selected is the current content of every
  notice exactly when the content a notice was imported with last was first
  written strictly later than its other contents.
-/
namespace BidScope.L5

open BidScope.L1

/-- `rows` in the order the database returns them: of the newest versions of a
notice the last stays in the dictionary.
mirrors subscriptions/service.py:819-844 -/
def latestVersions (rows : List NoticeVersion) (sourceNoticeIds : List String) :
    Dict String NoticeVersion :=
  let listed := rows.filter fun v => sourceNoticeIds.contains v.sourceNoticeId
  let maxCreated (id : String) := ((listed.filter (·.sourceNoticeId == id)).map (·.createdAt)).max?
  let joined := rows.filter fun v => maxCreated v.sourceNoticeId == some v.createdAt
  Dict.ofList (joined.map fun v => (v.sourceNoticeId, v))

/-- No version of the same notice was created later. -/
def Newest (rows : List NoticeVersion) (v : NoticeVersion) : Prop :=
  ∀ w ∈ rows, w.sourceNoticeId = v.sourceNoticeId → w.createdAt ≤ v.createdAt

section Selection

variable {rows : List NoticeVersion} {ids : List String} {v : NoticeVersion}

theorem maxCreated_iff (hv : v ∈ rows) :
    (((rows.filter fun v => ids.contains v.sourceNoticeId).filter
        (·.sourceNoticeId == v.sourceNoticeId)).map (·.createdAt)).max? = some v.createdAt ↔
      v.sourceNoticeId ∈ ids ∧ Newest rows v := by
  rw [List.max?_eq_some_iff]
  constructor
  · intro h
    obtain ⟨hmem, hmax⟩ := h
    obtain ⟨w, hw, -⟩ := List.mem_map.mp hmem
    simp only [List.mem_filter, List.contains_iff_mem, beq_iff_eq] at hw
    obtain ⟨⟨-, hids⟩, heq⟩ := hw
    rw [heq] at hids
    refine ⟨hids, fun w hw hwv => hmax _ (List.mem_map_of_mem ?_)⟩
    simp only [List.mem_filter, List.contains_iff_mem, beq_iff_eq]
    exact ⟨⟨hw, hwv ▸ hids⟩, hwv⟩
  · intro h
    obtain ⟨hids, hnewest⟩ := h
    refine ⟨List.mem_map_of_mem ?_, fun b hb => ?_⟩
    · simp only [List.mem_filter, List.contains_iff_mem, beq_iff_eq]
      exact ⟨⟨hv, hids⟩, trivial⟩
    · obtain ⟨w, hw, rfl⟩ := List.mem_map.mp hb
      simp only [List.mem_filter, List.contains_iff_mem, beq_iff_eq] at hw
      exact hnewest w hw.1.1 hw.2

/-- What is selected is a newest version of its notice. -/
theorem latestVersions_sound {id : String} (h : (latestVersions rows ids).get id = some v) :
    v ∈ rows ∧ v.sourceNoticeId = id ∧ Newest rows v := by
  unfold latestVersions at h
  rw [Dict.get_ofList, Option.map_eq_some_iff] at h
  obtain ⟨⟨id', w⟩, hlast, rfl⟩ := h
  have hmem := List.mem_of_getLast? hlast
  rw [List.mem_filter, List.mem_map] at hmem
  obtain ⟨⟨w', hw', heq⟩, hid⟩ := hmem
  simp only [Prod.mk.injEq] at heq
  obtain ⟨hw'id, rfl⟩ := heq
  simp only [List.mem_filter, beq_iff_eq] at hw'
  refine ⟨hw'.1, hw'id.trans (by simpa using hid), ((maxCreated_iff hw'.1).mp hw'.2).2⟩

/-- Of the newest versions the one read last is selected. -/
theorem latestVersions_last (hv : v.sourceNoticeId ∈ ids) (hnewest : Newest (rows ++ [v]) v) :
    (latestVersions (rows ++ [v]) ids).get v.sourceNoticeId = some v := by
  have hmem : v ∈ rows ++ [v] := List.mem_append_right _ (List.mem_singleton_self v)
  unfold latestVersions
  rw [Dict.get_ofList]
  dsimp only
  rw [List.filter_append _ [v]]
  have hjoined : [v].filter (fun w => ((((rows ++ [v]).filter fun v =>
      ids.contains v.sourceNoticeId).filter (·.sourceNoticeId == w.sourceNoticeId)).map
        (·.createdAt)).max? == some w.createdAt) = [v] := by
    simpa using (maxCreated_iff hmem).mpr ⟨hv, hnewest⟩
  rw [hjoined]
  simp

theorem exists_newest (hv : v ∈ rows) :
    ∃ w ∈ rows, w.sourceNoticeId = v.sourceNoticeId ∧ Newest rows w := by
  have hmem : v ∈ rows.filter (·.sourceNoticeId = v.sourceNoticeId) :=
    List.mem_filter.mpr ⟨hv, by simp⟩
  cases hmax : (rows.filter (·.sourceNoticeId = v.sourceNoticeId)).argmax (·.createdAt) with
  | none => exact absurd (List.argmax_eq_none.mp hmax) (List.ne_nil_of_mem hmem)
  | some w =>
    have hw := List.mem_filter.mp (List.argmax_mem hmax)
    have hid : w.sourceNoticeId = v.sourceNoticeId := by simpa using hw.2
    refine ⟨w, hw.1, hid, fun x hx hxid => List.le_of_mem_argmax ?_ hmax⟩
    exact List.mem_filter.mpr ⟨hx, by simpa using hxid.trans hid⟩

theorem latestVersions_isSome (hids : v.sourceNoticeId ∈ ids) (hv : v ∈ rows) :
    ∃ w, (latestVersions rows ids).get v.sourceNoticeId = some w := by
  obtain ⟨w, hw, hid, hnewest⟩ := exists_newest hv
  unfold latestVersions
  rw [Dict.get_ofList]
  have hne : ((rows.filter fun w => ((((rows.filter fun v => ids.contains v.sourceNoticeId).filter
      (·.sourceNoticeId == w.sourceNoticeId)).map (·.createdAt)).max? == some w.createdAt)).map
      fun w => (w.sourceNoticeId, w)).filter (·.1 = v.sourceNoticeId) ≠ [] := by
    refine List.ne_nil_of_mem (a := (w.sourceNoticeId, w)) ?_
    rw [List.mem_filter]
    refine ⟨List.mem_map_of_mem (List.mem_filter.mpr ⟨hw, ?_⟩), by simpa using hid⟩
    simpa using (maxCreated_iff hw).mpr ⟨hid ▸ hids, hnewest⟩
  exact ⟨_, by dsimp only; rw [List.getLast?_eq_some_getLast hne]; rfl⟩

end Selection

/-! ## The law -/

/-- Whatever the order of the rows, the version selected of a notice has the hash
the notice carries, and that is the content written to it last. -/
def LatestIsCurrent (t : Tables) : Prop :=
  ∀ n ∈ t.sourceNotices,
    (∃ e, Ledger.last Written.key t.written n.key = some e ∧ e.contentHash = n.contentHash) ∧
    ∀ rows, rows.Perm t.versions → ∀ ids, n.id ∈ ids →
      ∃ v, (latestVersions rows ids).get n.id = some v ∧ v.contentHash = n.contentHash

/-- The content a notice was imported with last was first written in a
transaction later than those that first wrote its other contents. -/
def NewestLast (log : List Written) : Prop :=
  ∀ e ∈ log, ∀ current, Ledger.last Written.key log e.key = some current →
    e.contentHash ≠ current.contentHash → ∀ f f',
    Ledger.first Written.content log e.content = some f →
    Ledger.first Written.content log current.content = some f' → f.importedAt < f'.importedAt

variable {lib : SnapshotLib} {t : Tables} {d : Nat}

/-- In some order of the rows each newest version is the one selected. -/
theorem selects_newest {v : NoticeVersion} (hv : v ∈ t.versions) (hnewest : Newest t.versions v) :
    ∃ rows, rows.Perm t.versions ∧
      (latestVersions rows [v.sourceNoticeId]).get v.sourceNoticeId = some v := by
  have hperm : (t.versions.erase v ++ [v]).Perm t.versions :=
    (List.perm_append_comm.trans (List.perm_cons_erase hv).symm)
  refine ⟨_, hperm, latestVersions_last (List.mem_singleton_self _) fun w hw hid => ?_⟩
  exact hnewest w (hperm.mem_iff.mp hw) hid

theorem latestIsCurrent_iff_newest (hs : Sound lib t d) (hm : Mirrored t) :
    LatestIsCurrent t ↔ ∀ n ∈ t.sourceNotices, ∀ v ∈ t.versions, v.sourceNoticeId = n.id →
      Newest t.versions v → v.contentHash = n.contentHash := by
  constructor
  · intro h n hn v hv hid hnewest
    obtain ⟨rows, hperm, hselected⟩ := selects_newest hv hnewest
    rw [hid] at hselected
    obtain ⟨v', hv', hhash⟩ := (h n hn).2 rows hperm [n.id] (List.mem_singleton_self _)
    rw [hselected, Option.some.injEq] at hv'
    rw [hv']
    exact hhash
  · intro h n hn
    refine ⟨hm.current n hn, fun rows hperm ids hids => ?_⟩
    obtain ⟨e, hlast, -⟩ := hm.current n hn
    obtain ⟨he, hkey⟩ := Ledger.last_mem hlast
    obtain ⟨v, hv, hid, -⟩ := hm.first_version hs hn he hkey
    rw [← hid] at hids ⊢
    obtain ⟨w, hw⟩ := latestVersions_isSome hids (hperm.mem_iff.mpr hv)
    obtain ⟨hwmem, hwid, hnewest⟩ := latestVersions_sound hw
    refine ⟨w, hw, h n hn w (hperm.mem_iff.mp hwmem) (hwid.trans hid) fun x hx hxid => ?_⟩
    exact hnewest x (hperm.mem_iff.mpr hx) hxid

theorem newest_iff (hs : Sound lib t d) (hm : Mirrored t) :
    (∀ n ∈ t.sourceNotices, ∀ v ∈ t.versions, v.sourceNoticeId = n.id →
      Newest t.versions v → v.contentHash = n.contentHash) ↔ NewestLast t.written := by
  constructor
  · intro h e he current hlast hne f f' hf hf'
    obtain ⟨n, hn, hnkey, -⟩ := hm.kept e he
    obtain ⟨e', hlast', hhash'⟩ := hm.current n hn
    rw [hnkey, hlast, Option.some.injEq] at hlast'
    subst hlast'
    obtain ⟨hcurrent, hkey⟩ := Ledger.last_mem hlast
    obtain ⟨v, hv, hid, hhash, g, hg, hrec⟩ := hm.first_version hs hn he hnkey.symm
    obtain ⟨v', hv', hid', hhash'', g', hg', hrec'⟩ :=
      hm.first_version hs hn hcurrent (hkey.trans hnkey.symm)
    rw [hf, Option.some.injEq] at hg
    rw [hf', Option.some.injEq] at hg'
    rw [hg, hg', ← hrec.createdAt, ← hrec'.createdAt]
    -- the newest version is the current one, so it is `v'`, and no other is as new
    obtain ⟨w, hw, hwid, hnewest⟩ := exists_newest hv
    have hwhash := h n hn w hw (hwid.trans hid) hnewest
    obtain rfl := hs.version_of_key hw hv' (hwid.trans (hid.trans hid'.symm))
      (hwhash.trans (hhash'.symm.trans hhash''.symm))
    refine lt_of_le_of_ne (hnewest v hv hwid.symm) fun heq => hne ?_
    have hvnewest : Newest t.versions v := by
      intro x hx hxid
      rw [heq]
      exact hnewest x hx (hxid.trans hwid.symm)
    rw [← hhash, h n hn v hv hid hvnewest, hhash']
  · intro h n hn v hv hid hnewest
    by_contra hne
    obtain ⟨e, hfirst, hrec⟩ := hm.version_first hs hn hv hid
    obtain ⟨he, hcontent⟩ := Ledger.first_mem hfirst
    rw [Written.content, Prod.mk.injEq] at hcontent
    obtain ⟨current, hlast, hhash⟩ := hm.current n hn
    obtain ⟨hcurrent, hkey⟩ := Ledger.last_mem hlast
    obtain ⟨v', hv', hid', -, f', hf', hrec'⟩ := hm.first_version hs hn hcurrent hkey
    have hlt := h e he current (by rw [hcontent.1]; exact hlast)
      (by rw [hcontent.2, hhash]; exact hne) e f'
      (by rw [Written.content, hcontent.1, hcontent.2]; exact hfirst) hf'
    have hle := hnewest v' hv' (hid'.trans hid.symm)
    rw [hrec.createdAt, hrec'.createdAt] at hle
    omega

/-- After a history the latest version of every notice is its current content
exactly when the current content was first written last. -/
theorem latestIsCurrent_iff (lib : SnapshotLib) (calls : List ImportCall) :
    LatestIsCurrent (after lib calls).rows ↔ NewestLast (after lib calls).rows.written := by
  have hs := (after_resting lib calls).sound
  have hm := after_mirrored lib calls
  rw [latestIsCurrent_iff_newest hs hm, newest_iff hs hm]

/-! ## An earlier content again, and two contents in one bundle -/

def returned (lib : SnapshotLib) (earlier : List ImportCall) (call : ImportCall) : Bool :=
  match (importBundle lib call (after lib earlier)).1 with
  | .ok _ => true
  | .error _ => false

/-- A, then B, then A again in a bundle of its own. -/
def againCalls : List ImportCall :=
  [demoCall 1 "b-1" [demoNotice "Roadworks"],
   demoCall 2 "b-2" [demoNotice "Roadworks, lot 2"],
   demoCall 3 "b-3" [demoNotice "Roadworks"]]

/-- Both contents in one bundle. -/
def twiceCalls : List ImportCall :=
  [demoCall 1 "b-1" [demoNotice "Roadworks", demoNotice "Roadworks, lot 2"]]

/-- All calls succeed. The selected version of the first history is B, and that
of the second is whichever row is read last. -/
theorem againCalls_not_latest :
    ((∀ k < 3, ((againCalls[k]?).map (returned asciiSnapshotLib (againCalls.take k))) = some true) ∧
      ¬ LatestIsCurrent (after asciiSnapshotLib againCalls).rows) ∧
    ((∀ k < 1, ((twiceCalls[k]?).map (returned asciiSnapshotLib (twiceCalls.take k))) = some true) ∧
      ¬ LatestIsCurrent (after asciiSnapshotLib twiceCalls).rows) := by
  have hagain : ∃ n ∈ (after asciiSnapshotLib againCalls).rows.sourceNotices,
      ((latestVersions (after asciiSnapshotLib againCalls).rows.versions [n.id]).get n.id).map
        (·.contentHash) ≠ some n.contentHash := by
    decide +kernel
  have htwice : ∃ n ∈ (after asciiSnapshotLib twiceCalls).rows.sourceNotices,
      ((latestVersions (after asciiSnapshotLib twiceCalls).rows.versions.reverse [n.id]).get
        n.id).map (·.contentHash) ≠ some n.contentHash := by
    decide +kernel
  refine ⟨⟨by decide +kernel, fun h => ?_⟩, ⟨by decide +kernel, fun h => ?_⟩⟩
  · obtain ⟨n, hn, hne⟩ := hagain
    obtain ⟨v, hv, hhash⟩ := (h n hn).2 _ (List.Perm.refl _) [n.id] (List.mem_singleton_self _)
    exact hne (by rw [hv, Option.map_some, hhash])
  · obtain ⟨n, hn, hne⟩ := htwice
    obtain ⟨v, hv, hhash⟩ := (h n hn).2 _ (List.reverse_perm _) [n.id] (List.mem_singleton_self _)
    exact hne (by rw [hv, Option.map_some, hhash])

end BidScope.L5
