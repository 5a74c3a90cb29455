import BidScope.L5Snapshots.Contents

/-!
# The transaction of an import

* `importBody_cases`: a transaction that returned found the successful record
  of its key, or stored one import as a whole (`Stored`).
* `importBody_keeps`: at every exit, the UUIDs drawn are not given back.
-/
namespace BidScope.L5

open BidScope.L1 Txn Txn.Prog

variable {lib : SnapshotLib} {call : ImportCall} {s s' : Session Tables Outside}

/-! ## One transaction -/

/-- A fresh import stores its record, successful, extends what was there and
writes its contents. -/
structure Stored (lib : SnapshotLib) (call : ImportCall) (manifest : SnapshotManifest)
    (notices : List NormalizedNotice) (t : Tables) (drawn : Nat) (key : String)
    (record : SnapshotImport) (t' : Tables) (drawn' : Nat) : Prop where
  sound : Sound lib t' drawn'
  extends' : Extends t t'
  fresh : ∀ r ∈ t.imports, r.idempotencyKey ≠ key
  imports : t'.imports = t.imports ++ [record]
  key : record.idempotencyKey = key
  success : record.status = "success"
  drawn : drawn ≤ drawn'
  written : t'.written = t.written ++ notices.map (entry lib call manifest)
  mirrored : Mirrored t → Mirrored t'

theorem markImportSuccess_imports {rows : List SnapshotImport} {record : SnapshotImport}
    {finishedAt : Datetime} (h : record.id ∉ rows.map (·.id)) :
    ((rows ++ [record]).map fun r => if r.id = record.id then r.succeed finishedAt else r) =
      rows ++ [record.succeed finishedAt] := by
  rw [List.map_append]
  congr 1
  · refine (List.map_congr_left fun r hr => if_neg fun hid => ?_).trans (List.map_id rows)
    exact h (hid ▸ List.mem_map_of_mem hr)
  · simp

/-- The tables of contents are the same. -/
structure SameContents (t t' : Tables) : Prop where
  sourceNotices : t'.sourceNotices = t.sourceNotices
  versions : t'.versions = t.versions
  evidence : t'.evidence = t.evidence
  written : t'.written = t.written

theorem SameContents.extends' {t t' : Tables} (h : SameContents t t') : Extends t t' :=
  Extends.of_eq h.versions h.evidence

/-- Other import records over the same contents. -/
theorem Sound.imports {t t' : Tables} {d d' : Nat} (hs : Sound lib t d) (h : SameContents t t')
    (hle : d ≤ d') (hids : Identified lib d' (t'.imports.map (·.id)))
    (hkeys : (t'.imports.map (·.idempotencyKey)).Nodup) : Sound lib t' d' := by
  have hversionOf := hs.versionOf
  have hevidenceOf := hs.evidenceOf
  rw [← h.versions, ← h.sourceNotices] at hversionOf
  rw [← h.evidence, ← h.versions] at hevidenceOf
  refine ⟨?_, ?_, hids, ?_, ?_, hkeys, hversionOf, hevidenceOf⟩
  · rw [h.sourceNotices]
    exact hs.noticeIds.mono hle
  · rw [h.versions]
    exact hs.versionIds.mono hle
  · rw [h.sourceNotices]
    exact hs.noticeKeys
  · rw [h.versions]
    exact hs.versionKeys

/-- A fresh import: its record is created, the loop runs from `s₁` to `s₂`, and
the record is marked. -/
structure Fresh (lib : SnapshotLib) (call : ImportCall) (manifest : SnapshotManifest)
    (notices : List NormalizedNotice) (s s₁ s₂ s' : Session Tables Outside)
    (created record : SnapshotImport) : Prop where
  before : SameContents s.rows s₁.rows
  new : ∀ r ∈ s.rows.imports, r.idempotencyKey ≠ created.idempotencyKey
  id : ∃ k, s.outside.drawn ≤ k ∧ k < s₁.outside.drawn ∧ created.id = lib.uuid k
  inserted : s₁.rows.imports = s.rows.imports ++ [created]
  turns : ∃ bundle u, (each (importNotice lib call manifest bundle) 0 notices).Returns s₁ u s₂
  record : record = created.succeed (call.clock (2 * notices.length + 1))
  after : SameContents s₂.rows s'.rows
  marked : s'.rows.imports = s₂.rows.imports.map fun r =>
    if r.id = created.id then r.succeed (call.clock (2 * notices.length + 1)) else r
  drawn : s₂.outside.drawn ≤ s'.outside.drawn

theorem importFresh_cases {manifest : SnapshotManifest} {inspection : InspectionResult}
    {notices : List NormalizedNotice} {key : String} {existingBundle : Option SnapshotBundle}
    {record : SnapshotImport}
    (h : (importFresh lib call manifest inspection notices key existingBundle).Returns s record s') :
    ∃ created s₁ s₂, created.idempotencyKey = key ∧
      Fresh lib call manifest notices s s₁ s₂ s' created record := by
  obtain ⟨bundle, s₀, hbundle, h⟩ := then_returns.mp h
  obtain ⟨created, s₁, hcreate, h⟩ := then_returns.mp h
  obtain ⟨u₂, s₂, hloop, h⟩ := then_returns.mp h
  obtain ⟨u₃, s₃, hmark, h⟩ := then_returns.mp h
  obtain ⟨event, s₄, haudit, h⟩ := then_returns.mp h
  obtain ⟨rfl, rfl⟩ := pure_returns.mp h
  obtain ⟨-, hle, hrows₀⟩ := getOrCreateBundle_cases hbundle
  obtain ⟨hnew, hcreated, hrows₁, hdrawn₁⟩ := createImport_cases hcreate
  obtain ⟨hrows₃, hout₃⟩ := update_cases hmark
  obtain ⟨-, -, hrows₄, hdrawn₄⟩ := insert_cases haudit
  have hkey : created.idempotencyKey = key := by rw [hcreated]
  have hbefore : SameContents s.rows s₁.rows ∧ s₀.rows.imports = s.rows.imports := by
    rcases hrows₀ with ⟨hrows₀, -⟩ | hrows₀ <;> rw [hrows₁, hrows₀] <;>
      exact ⟨⟨rfl, rfl, rfl, rfl⟩, rfl⟩
  refine ⟨created, s₁, s₂, hkey, hbefore.1, ?_, ⟨s₀.outside.drawn, hle, ?_, by rw [hcreated]⟩, ?_,
    ⟨bundle, u₂, hloop⟩, rfl, ?_, ?_, ?_⟩
  · rw [hkey, ← hbefore.2]
    exact hnew
  · rw [hdrawn₁]
    exact Nat.lt_succ_self _
  · rw [hrows₁, ← hbefore.2]
  · rw [hrows₄, hrows₃]
    exact ⟨rfl, rfl, rfl, rfl⟩
  · rw [hrows₄, hrows₃]
  · rw [hdrawn₄, hout₃]
    exact Nat.le_succ _

theorem Fresh.sound {manifest : SnapshotManifest} {notices : List NormalizedNotice}
    {s₁ s₂ : Session Tables Outside} {created record : SnapshotImport}
    (h : Fresh lib call manifest notices s s₁ s₂ s' created record)
    (hs : Sound lib s.rows s.outside.drawn) : Sound lib s₁.rows s₁.outside.drawn := by
  obtain ⟨k, hle, hlt, hid⟩ := h.id
  refine hs.imports h.before (by omega) ?_ ?_
  · rw [h.inserted, List.map_append, List.map_singleton, hid]
    exact hs.importIds.snoc hle hlt
  · rw [h.inserted]
    exact Ledger.nodup_snoc hs.importKeys h.new

theorem importFresh_stored {manifest : SnapshotManifest} {inspection : InspectionResult}
    {notices : List NormalizedNotice} {key : String} {existingBundle : Option SnapshotBundle}
    {record : SnapshotImport} (hs : Sound lib s.rows s.outside.drawn)
    (h : (importFresh lib call manifest inspection notices key existingBundle).Returns s record s') :
    Stored lib call manifest notices s.rows s.outside.drawn key record s'.rows s'.outside.drawn := by
  obtain ⟨created, s₁, s₂, hkey, hf⟩ := importFresh_cases h
  obtain ⟨bundle, u, hturns⟩ := hf.turns
  have hloop := each_continues (hf.sound hs) hturns
  obtain ⟨k, hle, hlt, hid⟩ := hf.id
  have hfresh : created.id ∉ s.rows.imports.map (·.id) := hid ▸ hs.importIds.fresh hle
  have himports : s'.rows.imports = s.rows.imports ++ [record] := by
    rw [hf.marked, hloop.imports, hf.inserted, hf.record, markImportSuccess_imports hfresh]
  have hdrawn := hloop.drawn
  have hdrawn' := hf.drawn
  -- marking the record changes neither its id nor its key
  have hids : s'.rows.imports.map (·.id) = s₂.rows.imports.map (·.id) := by
    rw [himports, hloop.imports, hf.inserted, hf.record, List.map_append, List.map_append]
    rfl
  have hkeys : s'.rows.imports.map (·.idempotencyKey) =
      s₂.rows.imports.map (·.idempotencyKey) := by
    rw [himports, hloop.imports, hf.inserted, hf.record, List.map_append, List.map_append]
    rfl
  refine ⟨?_, ?_, hkey ▸ hf.new, himports, ?_, ?_, by omega, ?_, fun hm => ?_⟩
  · refine hloop.sound.imports hf.after hdrawn' ?_ ?_
    · rw [hids]
      exact hloop.sound.importIds.mono hdrawn'
    · rw [hkeys]
      exact hloop.sound.importKeys
  · exact hf.before.extends'.trans (hloop.extends'.trans hf.after.extends')
  · rw [hf.record]
    exact hkey
  · rw [hf.record]
    rfl
  · rw [hf.after.written, each_written (hf.sound hs) hturns, hf.before.written]
  · have hm₁ := hm.congr hf.before.sourceNotices hf.before.versions hf.before.written
    exact (each_mirrored (hf.sound hs) hm₁ hturns).congr hf.after.sourceNotices hf.after.versions
      hf.after.written

/-- A body that returned found the successful record of its key, or stored one. -/
theorem importBody_cases {manifest : SnapshotManifest} {inspection : InspectionResult}
    {notices : List NormalizedNotice} {key : String} {record : SnapshotImport}
    (hs : Sound lib s.rows s.outside.drawn)
    (h : (importBody lib call manifest inspection notices key).Returns s record s') :
    (s'.rows = s.rows ∧ record ∈ s.rows.imports ∧ record.idempotencyKey = key) ∨
      Stored lib call manifest notices s.rows s.outside.drawn key record s'.rows s'.outside.drawn := by
  obtain ⟨existing, s₁, hfind, h⟩ := then_returns.mp h
  obtain ⟨hexisting, hrows₁, hout₁⟩ := find_cases hfind
  split at h
  · rename_i found hfound
    obtain ⟨rfl, rfl⟩ := pure_returns.mp h
    obtain ⟨hsome, -⟩ := Option.filter_eq_some_iff.mp hfound
    rw [hexisting] at hsome
    exact Or.inl ⟨hrows₁, List.mem_of_find?_eq_some hsome,
      by simpa using List.find?_some hsome⟩
  · obtain ⟨existingBundle, s₂, hbundle, h⟩ := then_returns.mp h
    obtain ⟨-, hrows₂, hout₂⟩ := find_cases hbundle
    split at h
    · exact absurd h (by simp)
    · rw [← hrows₁, ← hout₁, ← hrows₂, ← hout₂] at hs ⊢
      exact Or.inr (importFresh_stored hs h)

/-! ## At every exit -/

/-- The UUIDs drawn are not given back. -/
def DrawnFrom (d : Nat) (outside : Outside) : Prop := d ≤ outside.drawn

section Keeps

variable {d : Nat}

theorem find_keeps {α : Type} (f : Tables → α) : (find call f).Keeps (DrawnFrom d) := keeps_query

theorem insert_keeps {α : Type} (violated : Tables → Option String) (make : String → α)
    (add : Tables → α → Tables) : (insert lib call violated make add).Keeps (DrawnFrom d) := by
  refine keeps_statement fun rows outside a rows' outside' heq h => ?_
  split at heq
  · cases heq
  · simp only [Except.ok.injEq, Prod.mk.injEq] at heq
    rw [← heq.2.2]
    exact Nat.le_succ_of_le h

theorem update_keeps (f : Tables → Tables) : (update call f).Keeps (DrawnFrom d) := by
  refine keeps_statement fun rows outside a rows' outside' heq h => ?_
  simp only [Except.ok.injEq, Prod.mk.injEq, true_and] at heq
  rw [← heq.2]
  exact h

theorem putBytes_keeps (key data : String) : (putBytes call key data).Keeps (DrawnFrom d) := by
  refine keeps_statement fun rows outside a rows' outside' heq h => ?_
  simp only [Except.ok.injEq, Prod.mk.injEq, true_and] at heq
  rw [← heq.2]
  exact h

theorem touchSourceNotice_keeps (existing : SourceNotice) (seenAt : Datetime) (hash : String) :
    (touchSourceNotice call existing seenAt hash).Keeps (DrawnFrom d) :=
  (update_keeps _).bind fun _ => keeps_ret

theorem getOrCreateSourceNotice_keeps (source externalId sourceUrl hash : String)
    (firstSeenAt latestSeenAt : Datetime) :
    (getOrCreateSourceNotice lib call source externalId sourceUrl hash firstSeenAt
      latestSeenAt).Keeps (DrawnFrom d) := by
  refine (find_keeps _).bind fun found => ?_
  cases found with
  | some existing => exact touchSourceNotice_keeps existing latestSeenAt hash
  | none =>
    refine (find_keeps _).bind fun _ => Keeps.savepoint ?_ fun e handler hhandler => ?_
    · exact (insert_keeps _ _ _).bind fun _ => insert_keeps _ _ _
    · cases e with
      | integrity constraint =>
        simp only [Option.some.injEq] at hhandler
        subst hhandler
        refine (find_keeps _).bind fun again => ?_
        cases again with
        | some existing => exact touchSourceNotice_keeps existing latestSeenAt hash
        | none => exact keeps_raise
      | _ => cases hhandler

theorem storeVersion_keeps (manifest : SnapshotManifest) (noticeId objectKey : String)
    (notice : NormalizedNotice) :
    (storeVersion lib call manifest noticeId objectKey notice).Keeps (DrawnFrom d) := by
  refine (find_keeps _).bind fun found => ?_
  cases found with
  | some version => exact keeps_ret
  | none =>
    exact (insert_keeps _ _ _).bind fun version =>
      keeps_each (fun _ _ => (insert_keeps _ _ _).bind fun _ => keeps_ret) _ _

theorem importNotice_keeps (manifest : SnapshotManifest) (bundle : SnapshotBundle) (k : Nat)
    (notice : NormalizedNotice) :
    (importNotice lib call manifest bundle k notice).Keeps (DrawnFrom d) :=
  (putBytes_keeps _ _).bind fun _ =>
    (getOrCreateSourceNotice_keeps _ _ _ _ _ _).bind fun _ =>
      Keeps.bind (fun _ h => h) fun _ => storeVersion_keeps _ _ _ _

theorem importBody_keeps (manifest : SnapshotManifest) (inspection : InspectionResult)
    (notices : List NormalizedNotice) (key : String) :
    (importBody lib call manifest inspection notices key).Keeps (DrawnFrom d) := by
  refine (find_keeps _).bind fun existing => ?_
  split
  · exact keeps_ret
  · refine (find_keeps _).bind fun existingBundle => ?_
    split
    · exact keeps_raise
    · refine Keeps.bind ?_ fun bundle => ?_
      · refine (find_keeps _).bind fun found => ?_
        cases found with
        | some existing => exact keeps_ret
        | none => exact insert_keeps _ _ _
      · exact (insert_keeps _ _ _).bind fun record =>
          (keeps_each (fun k notice => importNotice_keeps _ _ k notice) _ _).bind fun _ =>
            (update_keeps _).bind fun _ => (insert_keeps _ _ _).bind fun _ => keeps_ret

end Keeps

end BidScope.L5
