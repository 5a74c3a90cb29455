import BidScope.Core.Ledger
import BidScope.L5Snapshots.Steps

/-!
# Sound tables

What every statement of an import keeps.

* `Sound`: ids are drawn UUIDs, each used once; keys are distinct; versions and
  evidence have owners.
* `Extends`: versions stay as they are, and so does the evidence of each.
* `importNotice_continues`, `each_continues`: the importer's loop keeps both.
-/
namespace BidScope.L5

open BidScope.L1 Txn Txn.Prog

/-! ## Ids -/

/-- Ids among the first `drawn`, each used once. -/
def Identified (lib : SnapshotLib) (drawn : Nat) (ids : List String) : Prop :=
  ids.Nodup ∧ ∀ id ∈ ids, ∃ k < drawn, id = lib.uuid k

variable {lib : SnapshotLib} {call : ImportCall} {s s' : Session Tables Outside}

namespace Identified

variable {d d' k : Nat} {ids : List String}

theorem mono (h : Identified lib d ids) (hle : d ≤ d') : Identified lib d' ids := by
  refine ⟨h.1, fun id hid => ?_⟩
  obtain ⟨k, hk, heq⟩ := h.2 id hid
  exact ⟨k, by omega, heq⟩

theorem fresh (h : Identified lib d ids) (hle : d ≤ k) : lib.uuid k ∉ ids := by
  intro hmem
  obtain ⟨j, hj, heq⟩ := h.2 _ hmem
  have := lib.uuid_injective heq
  omega

theorem snoc (h : Identified lib d ids) (hle : d ≤ k) (hlt : k < d') :
    Identified lib d' (ids ++ [lib.uuid k]) := by
  refine ⟨List.nodup_append.mpr ⟨h.1, by simp, ?_⟩, fun id hid => ?_⟩
  · intro a ha b hb hab
    rw [List.mem_singleton.mp hb] at hab
    exact h.fresh hle (hab ▸ ha)
  · rcases List.mem_append.mp hid with hid | hid
    · obtain ⟨j, hj, heq⟩ := h.2 id hid
      exact ⟨j, by omega, heq⟩
    · exact ⟨k, hlt, List.mem_singleton.mp hid⟩

end Identified

/-! ## The invariant -/

def NoticeVersion.key (v : NoticeVersion) : String × String := (v.sourceNoticeId, v.contentHash)

structure Sound (lib : SnapshotLib) (t : Tables) (drawn : Nat) : Prop where
  noticeIds : Identified lib drawn (t.sourceNotices.map (·.id))
  versionIds : Identified lib drawn (t.versions.map (·.id))
  importIds : Identified lib drawn (t.imports.map (·.id))
  noticeKeys : (t.sourceNotices.map SourceNotice.key).Nodup
  versionKeys : (t.versions.map NoticeVersion.key).Nodup
  importKeys : (t.imports.map (·.idempotencyKey)).Nodup
  versionOf : ∀ v ∈ t.versions, v.sourceNoticeId ∈ t.sourceNotices.map (·.id)
  evidenceOf : ∀ e ∈ t.evidence, e.noticeVersionId ∈ t.versions.map (·.id)

theorem Sound.empty : Sound lib {} 0 := by
  constructor <;> simp [Identified]

/-- UUIDs drawn for rows that were not kept do no harm. -/
theorem Sound.mono {t : Tables} {d d' : Nat} (h : Sound lib t d) (hle : d ≤ d') : Sound lib t d' where
  noticeIds := h.noticeIds.mono hle
  versionIds := h.versionIds.mono hle
  importIds := h.importIds.mono hle
  noticeKeys := h.noticeKeys
  versionKeys := h.versionKeys
  importKeys := h.importKeys
  versionOf := h.versionOf
  evidenceOf := h.evidenceOf

def evidenceOf (t : Tables) (version : String) : List EvidenceRow :=
  t.evidence.filter (·.noticeVersionId = version)

/-- Versions stay, and so does their evidence. -/
structure Extends (t t' : Tables) : Prop where
  versions : ∃ added, t'.versions = t.versions ++ added
  evidence : ∀ v ∈ t.versions, evidenceOf t' v.id = evidenceOf t v.id

theorem Extends.refl (t : Tables) : Extends t t := ⟨⟨[], by simp⟩, fun _ _ => rfl⟩

theorem Extends.of_eq {t t' : Tables} (hv : t'.versions = t.versions)
    (he : t'.evidence = t.evidence) : Extends t t' :=
  ⟨⟨[], by simp [hv]⟩, fun v _ => by rw [evidenceOf, evidenceOf, he]⟩

theorem Extends.mem {t t' : Tables} (h : Extends t t') {v : NoticeVersion} (hv : v ∈ t.versions) :
    v ∈ t'.versions := by
  obtain ⟨added, hadded⟩ := h.versions
  rw [hadded]
  exact List.mem_append_left _ hv

theorem Extends.trans {t t' t'' : Tables} (h : Extends t t') (h' : Extends t' t'') :
    Extends t t'' := by
  refine ⟨?_, fun v hv => ?_⟩
  · obtain ⟨added, hadded⟩ := h.versions
    obtain ⟨added', hadded'⟩ := h'.versions
    exact ⟨added ++ added', by rw [hadded', hadded, List.append_assoc]⟩
  · rw [h'.evidence v (h.mem hv), h.evidence v hv]

/-! ## One notice -/

theorem touched_map {β : Type} (f : SourceNotice → β) (rows : List SourceNotice) (id hash : String)
    (seenAt : Datetime) (hf : ∀ n : SourceNotice, f (n.seen seenAt hash) = f n) :
    (touched rows id seenAt hash).map f = rows.map f := by
  unfold touched
  rw [List.map_map]
  refine List.map_congr_left fun n _ => ?_
  by_cases hn : n.id = id
  · simp only [Function.comp_apply, if_pos hn, hf]
  · simp only [Function.comp_apply, if_neg hn]

theorem getOrCreateSourceNotice_sound {source externalId sourceUrl hash : String}
    {firstSeenAt latestSeenAt : Datetime} {n : SourceNotice}
    (hs : Sound lib s.rows s.outside.drawn)
    (h : (getOrCreateSourceNotice lib call source externalId sourceUrl hash firstSeenAt
      latestSeenAt).Returns s n s') :
    Sound lib s'.rows s'.outside.drawn ∧ n.id ∈ s'.rows.sourceNotices.map (·.id) ∧
      s'.rows.versions = s.rows.versions ∧ s'.rows.evidence = s.rows.evidence ∧
      s'.rows.imports = s.rows.imports ∧ s.outside.drawn ≤ s'.outside.drawn := by
  rcases getOrCreateSourceNotice_cases h with
    ⟨existing, hmem, hkey, hn, hdrawn, hrows⟩ | ⟨hnone, hn, hdrawn, hrows⟩
  · have hids := touched_map (·.id) s.rows.sourceNotices existing.id hash latestSeenAt fun _ => rfl
    have hkeys := touched_map SourceNotice.key s.rows.sourceNotices existing.id hash latestSeenAt
      fun _ => rfl
    rw [hrows, hdrawn]
    refine ⟨⟨?_, hs.versionIds, hs.importIds, ?_, hs.versionKeys, hs.importKeys, ?_,
      hs.evidenceOf⟩, ?_, rfl, rfl, rfl, Nat.le_refl _⟩
    · simpa only [hids] using hs.noticeIds
    · simpa only [hkeys] using hs.noticeKeys
    · simpa only [hids] using hs.versionOf
    · simp only [hids, hn]
      exact List.mem_map_of_mem (f := (·.id)) hmem
  · have hid : n.id = lib.uuid (s.outside.drawn + 1) := by rw [hn]; rfl
    have hkey : n.key = (source, externalId) := by rw [hn]; rfl
    rw [hrows, hdrawn]
    refine ⟨⟨?_, hs.versionIds.mono (by omega), hs.importIds.mono (by omega), ?_, hs.versionKeys,
      hs.importKeys, ?_, hs.evidenceOf⟩, ?_, rfl, rfl, rfl, by omega⟩
    · simp only [List.map_append, List.map_cons, List.map_nil, hid]
      exact hs.noticeIds.snoc (by omega) (by omega)
    · exact Ledger.nodup_snoc hs.noticeKeys fun n' hn' => hkey ▸ hnone n' hn'
    · intro v hv
      simp only [List.map_append, List.mem_append]
      exact Or.inl (hs.versionOf v hv)
    · simp

theorem storeVersion_sound {manifest : SnapshotManifest} {noticeId objectKey : String}
    {notice : NormalizedNotice} {u : PUnit} (hs : Sound lib s.rows s.outside.drawn)
    (hmem : noticeId ∈ s.rows.sourceNotices.map (·.id))
    (h : (storeVersion lib call manifest noticeId objectKey notice).Returns s u s') :
    Sound lib s'.rows s'.outside.drawn ∧ Extends s.rows s'.rows ∧
      s'.rows.imports = s.rows.imports ∧ s.outside.drawn ≤ s'.outside.drawn := by
  obtain ⟨hle, ⟨hrows, -⟩ | ⟨hnone, version, rows, hversion, hlt, ⟨hof, -⟩, hrows⟩⟩ :=
    storeVersion_cases h
  · rw [hrows]
    exact ⟨hs.mono hle, Extends.refl _, rfl, hle⟩
  · have hid : version.id = lib.uuid s.outside.drawn := by rw [hversion]; rfl
    have hfresh : version.id ∉ s.rows.versions.map (·.id) := by
      rw [hid]
      exact hs.versionIds.fresh (Nat.le_refl _)
    rw [hrows]
    refine ⟨⟨hs.noticeIds.mono hle, ?_, hs.importIds.mono hle, hs.noticeKeys, ?_, hs.importKeys,
      ?_, ?_⟩, ⟨⟨[version], rfl⟩, ?_⟩, rfl, hle⟩
    · simp only [List.map_append, List.map_cons, List.map_nil, hid]
      exact hs.versionIds.snoc (Nat.le_refl _) hlt
    · refine Ledger.nodup_snoc hs.versionKeys fun v hv hkey => hnone v hv ?_
      rw [hversion] at hkey
      exact Prod.mk.inj hkey
    · intro v hv
      rcases List.mem_append.mp hv with hv | hv
      · exact hs.versionOf v hv
      · rw [List.mem_singleton.mp hv, hversion]
        exact hmem
    · intro e he
      simp only [List.map_append, List.mem_append]
      rcases List.mem_append.mp he with he | he
      · exact Or.inl (hs.evidenceOf e he)
      · rw [hof e he]
        exact Or.inr (by simp)
    · -- the evidence added is that of the version added
      intro v hv
      have hne : ∀ e ∈ rows, ¬ e.noticeVersionId = v.id := by
        intro e he heq
        rw [hof e he] at heq
        exact hfresh (heq ▸ List.mem_map_of_mem hv)
      have hnil : rows.filter (·.noticeVersionId = v.id) = [] := by
        rw [List.filter_eq_nil_iff]
        intro e he
        simpa using hne e he
      simp only [L5.evidenceOf, List.filter_append, hnil, List.append_nil]

theorem noteWritten_cases {manifest : SnapshotManifest} {notice : NormalizedNotice} {u : PUnit}
    (h : (noteWritten lib call manifest notice).Returns s u s') :
    s'.outside = s.outside ∧ s'.rows = { s.rows with
      written := s.rows.written ++ [⟨manifest.source.value, notice.externalId,
        contentHash lib notice, notice, call.now⟩] } := by
  simp only [Returns, noteWritten, Prod.mk.injEq, true_and] at h
  rw [← h]
  exact ⟨rfl, rfl⟩

/-- What the loop keeps of the session it started in. -/
structure Continues (lib : SnapshotLib) (s s' : Session Tables Outside) : Prop where
  sound : Sound lib s'.rows s'.outside.drawn
  extends' : Extends s.rows s'.rows
  imports : s'.rows.imports = s.rows.imports
  drawn : s.outside.drawn ≤ s'.outside.drawn

theorem importNotice_continues {manifest : SnapshotManifest} {bundle : SnapshotBundle} {k : Nat}
    {notice : NormalizedNotice} {u : PUnit} (hs : Sound lib s.rows s.outside.drawn)
    (h : (importNotice lib call manifest bundle k notice).Returns s u s') :
    Continues lib s s' := by
  obtain ⟨u₁, s₁, hput, h⟩ := then_returns.mp h
  obtain ⟨n, s₂, hsource, h⟩ := then_returns.mp h
  obtain ⟨u₃, s₃, hnote, hversion⟩ := then_returns.mp h
  obtain ⟨hrows₁, hdrawn₁⟩ := putBytes_cases hput
  rw [← hrows₁, ← hdrawn₁] at hs
  obtain ⟨hs₂, hmem, hversions, hevidence, himports, hle⟩ := getOrCreateSourceNotice_sound hs hsource
  obtain ⟨hout₃, hrows₃⟩ := noteWritten_cases hnote
  have hs₃ : Sound lib s₃.rows s₃.outside.drawn := by
    rw [hrows₃, hout₃]
    exact ⟨hs₂.noticeIds, hs₂.versionIds, hs₂.importIds, hs₂.noticeKeys, hs₂.versionKeys,
      hs₂.importKeys, hs₂.versionOf, hs₂.evidenceOf⟩
  have hmem₃ : n.id ∈ s₃.rows.sourceNotices.map (·.id) := by rw [hrows₃]; exact hmem
  obtain ⟨hs', hext, himports', hle'⟩ := storeVersion_sound hs₃ hmem₃ hversion
  have hext₂ : Extends s.rows s₃.rows := by
    refine Extends.of_eq ?_ ?_
    · rw [hrows₃, ← hrows₁, ← hversions]
    · rw [hrows₃, ← hrows₁, ← hevidence]
  refine ⟨hs', hext₂.trans hext, ?_, ?_⟩
  · rw [himports', hrows₃, ← hrows₁, ← himports]
  · rw [hout₃] at hle'
    omega

/-- The loop goes on from where it started. -/
theorem each_continues {manifest : SnapshotManifest} {bundle : SnapshotBundle}
    {notices : List NormalizedNotice} {k : Nat} {u : PUnit} (hs : Sound lib s.rows s.outside.drawn)
    (h : (each (importNotice lib call manifest bundle) k notices).Returns s u s') :
    Continues lib s s' := by
  refine each_returns (I := Continues lib s) (fun k notice t t' u hI hr => ?_) _ _ _ _ _ h
    ⟨hs, Extends.refl _, rfl, Nat.le_refl _⟩
  have hstep := importNotice_continues hI.sound hr
  exact ⟨hstep.sound, hI.extends'.trans hstep.extends', hstep.imports.trans hI.imports,
    Nat.le_trans hI.drawn hstep.drawn⟩

end BidScope.L5
