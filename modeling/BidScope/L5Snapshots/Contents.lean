import BidScope.L5Snapshots.Imports

/-!
# The contents written and the rows

`Tables.written` is the ledger of contents: one entry for every notice of every
bundle whose import was committed, in order.

* `Turn`: what one turn of the importer's loop does to the rows and the ledger.
* `Mirrored`: a source notice carries the hash written to it last, and its
  versions are the contents written to it, each as it was written first.
* `each_written`, `each_mirrored`: the loop.
-/
namespace BidScope.L5

open BidScope.L1 Txn Txn.Prog

variable {lib : SnapshotLib} {call : ImportCall} {s s' : Session Tables Outside}

/-! ## The ledger -/

def Written.key (e : Written) : String × String := (e.source, e.externalId)

def Written.content (e : Written) : (String × String) × String := (e.key, e.contentHash)

/-- The entry of a notice of a bundle. -/
def entry (lib : SnapshotLib) (call : ImportCall) (manifest : SnapshotManifest)
    (notice : NormalizedNotice) : Written :=
  ⟨manifest.source.value, notice.externalId, contentHash lib notice, notice, call.now⟩

/-- The row of a version holds the content of the entry. -/
structure Records (e : Written) (v : NoticeVersion) : Prop where
  createdAt : v.createdAt = e.importedAt
  contentHash : v.contentHash = e.contentHash
  title : v.title = e.notice.title
  purchaser : v.purchaser = e.notice.purchaser
  region : v.region = e.notice.region
  publishDate : v.publishDate = e.notice.publishTime
  deadline : v.deadline = e.notice.deadline
  budgetMinorUnits : v.budgetMinorUnits = e.notice.budget.map (·.minorUnits)
  budgetCurrency : v.budgetCurrency = e.notice.budget.map (·.currency)
  summary : v.summary = e.notice.summary
  cancellation : v.cancellation = e.notice.cancellation
  rawFields : v.rawFields = e.notice.rawFields

theorem versionRow_records {manifest : SnapshotManifest} {noticeId objectKey id : String}
    {notice : NormalizedNotice} :
    Records (entry lib call manifest notice)
      (versionRow lib call manifest noticeId objectKey notice id) :=
  ⟨rfl, rfl, rfl, rfl, rfl, rfl, rfl, rfl, rfl, rfl, rfl, rfl⟩

/-! ## One turn -/

structure Turn (lib : SnapshotLib) (call : ImportCall) (manifest : SnapshotManifest)
    (notice : NormalizedNotice) (t t' : Tables) (n : SourceNotice) : Prop where
  key : n.key = (entry lib call manifest notice).key
  hash : n.contentHash = contentHash lib notice
  notices : ∀ n', n' ∈ t'.sourceNotices ↔ n' = n ∨ (n' ∈ t.sourceNotices ∧ n'.key ≠ n.key)
  same : ∀ n' ∈ t.sourceNotices, n'.key = n.key → n'.id = n.id
  written : t'.written = t.written ++ [entry lib call manifest notice]
  versions : (t'.versions = t.versions ∧
      ∃ v ∈ t.versions, v.sourceNoticeId = n.id ∧ v.contentHash = contentHash lib notice) ∨
    ((∀ v ∈ t.versions, ¬ (v.sourceNoticeId = n.id ∧ v.contentHash = contentHash lib notice)) ∧
      ∃ objectKey id, t'.versions = t.versions ++
        [versionRow lib call manifest n.id objectKey notice id])

theorem mem_touched {t : Tables} {drawn : Nat} (hs : Sound lib t drawn) {existing : SourceNotice}
    (hmem : existing ∈ t.sourceNotices) {seenAt : Datetime} {hash : String} (n' : SourceNotice) :
    n' ∈ touched t.sourceNotices existing.id seenAt hash ↔
      n' = existing.seen seenAt hash ∨ (n' ∈ t.sourceNotices ∧ n'.key ≠ existing.key) := by
  have hid : ∀ n ∈ t.sourceNotices, n.id = existing.id → n = existing := fun n hn =>
    List.inj_on_of_nodup_map hs.noticeIds.1 hn hmem
  have hkey : ∀ n ∈ t.sourceNotices, n.key = existing.key → n = existing := fun n hn =>
    List.inj_on_of_nodup_map hs.noticeKeys hn hmem
  unfold touched
  rw [List.mem_map]
  constructor
  · intro h
    obtain ⟨n, hn, rfl⟩ := h
    by_cases hnid : n.id = existing.id
    · left
      rw [if_pos hnid, hid n hn hnid]
    · right
      rw [if_neg hnid]
      exact ⟨hn, fun h => hnid (congrArg SourceNotice.id (hkey n hn h))⟩
  · intro h
    rcases h with rfl | ⟨hn, hne⟩
    · exact ⟨existing, hmem, by rw [if_pos rfl]⟩
    · exact ⟨n', hn, by rw [if_neg fun h => hne (by rw [hid n' hn h])]⟩

/-- Get-or-create leaves the notice it returns, and the others as they were. -/
theorem getOrCreateSourceNotice_notices {source externalId sourceUrl hash : String}
    {firstSeenAt latestSeenAt : Datetime} {n : SourceNotice}
    (hs : Sound lib s.rows s.outside.drawn)
    (h : (getOrCreateSourceNotice lib call source externalId sourceUrl hash firstSeenAt
      latestSeenAt).Returns s n s') :
    n.key = (source, externalId) ∧ n.contentHash = hash ∧
      (∀ n', n' ∈ s'.rows.sourceNotices ↔
        n' = n ∨ (n' ∈ s.rows.sourceNotices ∧ n'.key ≠ n.key)) ∧
      (∀ n' ∈ s.rows.sourceNotices, n'.key = n.key → n'.id = n.id) ∧
      s'.rows.written = s.rows.written := by
  rcases getOrCreateSourceNotice_cases h with
    ⟨existing, hmem, hkey, hn, -, hrows⟩ | ⟨hnone, hn, -, hrows⟩
  · have hnkey : n.key = existing.key := by rw [hn]; rfl
    refine ⟨hnkey.trans hkey, by rw [hn]; rfl, fun n' => ?_, fun n' hn' heq => ?_, by rw [hrows]⟩
    · rw [hrows, hnkey, hn]
      exact mem_touched hs hmem n'
    · have heq' := List.inj_on_of_nodup_map hs.noticeKeys hn' hmem (heq.trans hnkey)
      rw [heq', hn]
      rfl
  · have hnkey : n.key = (source, externalId) := by rw [hn]; rfl
    have hne : ∀ n' ∈ s.rows.sourceNotices, n'.key ≠ n.key := fun n' hn' heq =>
      hnone n' hn' (heq.trans hnkey)
    refine ⟨hnkey, by rw [hn]; rfl, fun n' => ?_, fun n' hn' heq => absurd heq (hne n' hn'),
      by rw [hrows]⟩
    rw [hrows, List.mem_append, List.mem_singleton]
    constructor
    · intro h
      rcases h with h | h
      · exact Or.inr ⟨h, hne n' h⟩
      · exact Or.inl h
    · intro h
      rcases h with h | h
      · exact Or.inr h
      · exact Or.inl h.1

theorem importNotice_turn {manifest : SnapshotManifest} {bundle : SnapshotBundle} {k : Nat}
    {notice : NormalizedNotice} {u : PUnit} (hs : Sound lib s.rows s.outside.drawn)
    (h : (importNotice lib call manifest bundle k notice).Returns s u s') :
    ∃ n, Turn lib call manifest notice s.rows s'.rows n := by
  obtain ⟨u₁, s₁, hput, h⟩ := then_returns.mp h
  obtain ⟨n, s₂, hsource, h⟩ := then_returns.mp h
  obtain ⟨u₃, s₃, hnote, hversion⟩ := then_returns.mp h
  obtain ⟨hrows₁, hdrawn₁⟩ := putBytes_cases hput
  rw [← hrows₁, ← hdrawn₁] at hs
  obtain ⟨hkey, hhash, hnotices, hsame, hwritten⟩ := getOrCreateSourceNotice_notices hs hsource
  obtain ⟨-, -, hversions, -, -, -⟩ := getOrCreateSourceNotice_sound hs hsource
  obtain ⟨-, hrows₃⟩ := noteWritten_cases hnote
  have hversions₃ : s₃.rows.versions = s₁.rows.versions := by rw [hrows₃]; exact hversions
  have hrest : s'.rows.sourceNotices = s₂.rows.sourceNotices ∧
      s'.rows.written = s₁.rows.written ++ [entry lib call manifest notice] := by
    obtain ⟨-, ⟨hrows, -⟩ | ⟨-, version, rows, -, -, -, hrows⟩⟩ := storeVersion_cases hversion
    · rw [hrows, hrows₃, hwritten]
      exact ⟨rfl, rfl⟩
    · rw [hrows, hrows₃, hwritten]
      exact ⟨rfl, rfl⟩
  refine ⟨n, hkey, hhash, ?_, ?_, ?_, ?_⟩
  · rw [hrest.1, ← hrows₁]
    exact hnotices
  · rw [← hrows₁]
    exact hsame
  · rw [hrest.2, hrows₁]
  · obtain ⟨-, ⟨hrows, hfound⟩ | ⟨hnone, version, rows, hrow, -, -, hrows⟩⟩ :=
      storeVersion_cases hversion
    · left
      rw [hversions₃, hrows₁] at hfound
      exact ⟨by rw [hrows, hversions₃, hrows₁], hfound⟩
    · right
      rw [hversions₃, hrows₁] at hnone
      refine ⟨hnone, payloadObjectKey bundle.bundleId (contentHash lib notice),
        lib.uuid s₃.outside.drawn, ?_⟩
      rw [hrows, ← hrow, hversions₃, hrows₁]

/-! ## The mirror -/

structure Mirrored (t : Tables) : Prop where
  current : ∀ n ∈ t.sourceNotices, ∃ e, Ledger.last Written.key t.written n.key = some e ∧
    e.contentHash = n.contentHash
  stored : ∀ v ∈ t.versions, ∃ n ∈ t.sourceNotices, n.id = v.sourceNoticeId ∧
    ∃ e, Ledger.first Written.content t.written (n.key, v.contentHash) = some e ∧ Records e v
  kept : ∀ e ∈ t.written, ∃ n ∈ t.sourceNotices, n.key = e.key ∧
    ∃ v ∈ t.versions, v.sourceNoticeId = n.id ∧ v.contentHash = e.contentHash

theorem Mirrored.empty : Mirrored {} := by constructor <;> simp

theorem Mirrored.congr {t t' : Tables} (h : Mirrored t) (hn : t'.sourceNotices = t.sourceNotices)
    (hv : t'.versions = t.versions) (hw : t'.written = t.written) : Mirrored t' := by
  obtain ⟨hcurrent, hstored, hkept⟩ := h
  rw [← hn, ← hw] at hcurrent
  rw [← hv, ← hn, ← hw] at hstored
  rw [← hw, ← hn, ← hv] at hkept
  exact ⟨hcurrent, hstored, hkept⟩

theorem Sound.notice_of_key {t : Tables} {d : Nat} (hs : Sound lib t d) {n n' : SourceNotice}
    (hn : n ∈ t.sourceNotices) (hn' : n' ∈ t.sourceNotices) (h : n.key = n'.key) : n = n' :=
  List.inj_on_of_nodup_map hs.noticeKeys hn hn' h

theorem Sound.notice_of_id {t : Tables} {d : Nat} (hs : Sound lib t d) {n n' : SourceNotice}
    (hn : n ∈ t.sourceNotices) (hn' : n' ∈ t.sourceNotices) (h : n.id = n'.id) : n = n' :=
  List.inj_on_of_nodup_map hs.noticeIds.1 hn hn' h

theorem Sound.version_of_key {t : Tables} {d : Nat} (hs : Sound lib t d) {v v' : NoticeVersion}
    (hv : v ∈ t.versions) (hv' : v' ∈ t.versions) (hid : v.sourceNoticeId = v'.sourceNoticeId)
    (hhash : v.contentHash = v'.contentHash) : v = v' :=
  List.inj_on_of_nodup_map hs.versionKeys hv hv' (Prod.ext hid hhash)

/-- Every version of a notice is a content written to it, as it was written first. -/
theorem Mirrored.version_first {t : Tables} {d : Nat} (hs : Sound lib t d) (hm : Mirrored t)
    {n : SourceNotice} (hn : n ∈ t.sourceNotices) {v : NoticeVersion} (hv : v ∈ t.versions)
    (hid : v.sourceNoticeId = n.id) :
    ∃ e, Ledger.first Written.content t.written (n.key, v.contentHash) = some e ∧ Records e v := by
  obtain ⟨n', hn', hid', e, hfirst, hrec⟩ := hm.stored v hv
  obtain rfl := hs.notice_of_id hn' hn (hid'.trans hid)
  exact ⟨e, hfirst, hrec⟩

/-- Every content written to a notice has its version. -/
theorem Mirrored.first_version {t : Tables} {d : Nat} (hs : Sound lib t d) (hm : Mirrored t)
    {n : SourceNotice} (hn : n ∈ t.sourceNotices) {e : Written} (he : e ∈ t.written)
    (hkey : e.key = n.key) :
    ∃ v ∈ t.versions, v.sourceNoticeId = n.id ∧ v.contentHash = e.contentHash ∧
      ∃ f, Ledger.first Written.content t.written e.content = some f ∧ Records f v := by
  obtain ⟨n', hn', hkey', v, hv, hid, hhash⟩ := hm.kept e he
  obtain rfl := hs.notice_of_key hn' hn (hkey'.trans hkey)
  obtain ⟨f, hfirst, hrec⟩ := hm.version_first hs hn' hv hid
  refine ⟨v, hv, hid, hhash, f, ?_, hrec⟩
  rw [Written.content, hkey, ← hhash]
  exact hfirst

namespace Turn

variable {manifest : SnapshotManifest} {notice : NormalizedNotice} {t t' : Tables}
  {n : SourceNotice}

/-- A notice keeps its id and its key. -/
theorem carry (h : Turn lib call manifest notice t t' n) {n₀ : SourceNotice}
    (hn₀ : n₀ ∈ t.sourceNotices) : ∃ n₁ ∈ t'.sourceNotices, n₁.id = n₀.id ∧ n₁.key = n₀.key := by
  by_cases hkey : n₀.key = n.key
  · exact ⟨n, (h.notices n).mpr (Or.inl rfl), (h.same n₀ hn₀ hkey).symm, hkey.symm⟩
  · exact ⟨n₀, (h.notices n₀).mpr (Or.inr ⟨hn₀, hkey⟩), rfl, rfl⟩

/-- A content that has no version was not written before. -/
theorem first_new (h : Turn lib call manifest notice t t' n) (hm : Mirrored t)
    (hnone : ∀ v ∈ t.versions, ¬ (v.sourceNoticeId = n.id ∧
      v.contentHash = L5.contentHash lib notice)) :
    Ledger.first Written.content t'.written (n.key, L5.contentHash lib notice) =
      some (entry lib call manifest notice) := by
  rw [h.written]
  refine Ledger.first_snoc_new (fun e he hcontent => ?_) (by rw [h.key]; rfl)
  obtain ⟨n₀, hn₀, hkey, v, hv, hid, hhash⟩ := hm.kept e he
  rw [Written.content, Prod.mk.injEq] at hcontent
  refine hnone v hv ⟨hid.trans (h.same n₀ hn₀ (hkey.trans hcontent.1)), hhash.trans hcontent.2⟩

theorem mirrored (h : Turn lib call manifest notice t t' n) (hm : Mirrored t) : Mirrored t' := by
  have hmem : n ∈ t'.sourceNotices := (h.notices n).mpr (Or.inl rfl)
  have hversions : ∀ v ∈ t.versions, v ∈ t'.versions := by
    intro v hv
    rcases h.versions with ⟨heq, -⟩ | ⟨-, objectKey, id, heq⟩
    · rw [heq]
      exact hv
    · rw [heq]
      exact List.mem_append_left _ hv
  have hold : ∀ v ∈ t.versions, ∃ n₁ ∈ t'.sourceNotices, n₁.id = v.sourceNoticeId ∧
      ∃ e, Ledger.first Written.content t'.written (n₁.key, v.contentHash) = some e ∧
        Records e v := by
    intro v hv
    obtain ⟨n₀, hn₀, hid, e, hfirst, hrec⟩ := hm.stored v hv
    obtain ⟨n₁, hn₁, hid₁, hkey₁⟩ := h.carry hn₀
    refine ⟨n₁, hn₁, hid₁.trans hid, e, ?_, hrec⟩
    rw [h.written, hkey₁]
    exact Ledger.first_snoc_of_some hfirst
  refine ⟨fun n' hn' => ?_, fun v hv => ?_, fun e he => ?_⟩
  · rw [h.written]
    rcases (h.notices n').mp hn' with rfl | ⟨hn', hne⟩
    · exact ⟨_, Ledger.last_snoc_self h.key.symm, h.hash.symm⟩
    · rw [Ledger.last_snoc_ne fun heq => hne (heq.symm.trans h.key.symm)]
      exact hm.current n' hn'
  · rcases h.versions with ⟨heq, -⟩ | ⟨hnone, objectKey, id, heq⟩
    · rw [heq] at hv
      exact hold v hv
    · rw [heq] at hv
      rcases List.mem_append.mp hv with hv | hv
      · exact hold v hv
      · rw [List.mem_singleton.mp hv]
        exact ⟨n, hmem, rfl, _, h.first_new hm hnone, versionRow_records⟩
  · rw [h.written] at he
    rcases List.mem_append.mp he with he | he
    · obtain ⟨n₀, hn₀, hkey, v, hv, hid, hhash⟩ := hm.kept e he
      obtain ⟨n₁, hn₁, hid₁, hkey₁⟩ := h.carry hn₀
      exact ⟨n₁, hn₁, hkey₁.trans hkey, v, hversions v hv, hid.trans hid₁.symm, hhash⟩
    · rw [List.mem_singleton.mp he]
      refine ⟨n, hmem, h.key, ?_⟩
      rcases h.versions with ⟨-, v, hv, hid, hhash⟩ | ⟨-, objectKey, id, heq⟩
      · exact ⟨v, hversions v hv, hid, hhash⟩
      · rw [heq]
        exact ⟨_, List.mem_append_right _ (List.mem_singleton_self _), rfl, rfl⟩

end Turn

/-! ## The loop -/

theorem each_written {manifest : SnapshotManifest} {bundle : SnapshotBundle} :
    ∀ {notices : List NormalizedNotice} {k : Nat} {s s' : Session Tables Outside} {u : PUnit},
      Sound lib s.rows s.outside.drawn →
      (each (importNotice lib call manifest bundle) k notices).Returns s u s' →
      s'.rows.written = s.rows.written ++ notices.map (entry lib call manifest)
  | [], k, s, s', u, _, h => by
    obtain ⟨-, rfl⟩ := ret_returns.mp h
    simp
  | notice :: notices, k, s, s', u, hs, h => by
    obtain ⟨u', s₁, hone, hrest⟩ := bind_returns.mp h
    obtain ⟨n, hturn⟩ := importNotice_turn hs hone
    rw [each_written (importNotice_continues hs hone).sound hrest, hturn.written]
    simp

theorem each_mirrored {manifest : SnapshotManifest} {bundle : SnapshotBundle}
    {notices : List NormalizedNotice} {k : Nat} {u : PUnit} (hs : Sound lib s.rows s.outside.drawn)
    (hm : Mirrored s.rows)
    (h : (each (importNotice lib call manifest bundle) k notices).Returns s u s') :
    Mirrored s'.rows := by
  refine (each_returns (I := fun t => Sound lib t.rows t.outside.drawn ∧ Mirrored t.rows)
    (fun k notice t t' u hI hr => ?_) _ _ _ _ _ h ⟨hs, hm⟩).2
  obtain ⟨n, hturn⟩ := importNotice_turn hI.1 hr
  exact ⟨(importNotice_continues hI.1 hr).sound, hturn.mirrored hI.2⟩

end BidScope.L5
