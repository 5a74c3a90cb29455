import Mathlib.Data.List.MinMax
import BidScope.L9Storage.Restore

/-!
# Retention

`BackupService.prune`. The backup root is what `iterdir` lists, in any order;
each directory in it is verified, and the verified ones outside the retention
window are removed. Removal succeeds.

`_read_manifest` turns what it expects of a broken manifest into a `BackupError`.
A manifest that is not UTF-8 raises `UnicodeDecodeError`, which it does not
expect, and so does a path the operating system refuses: `prune` passes over a
`BackupError` and ends with anything else.

**Law (`Retains`).** Pruning returns; of the verified backups the seven newest
daily ones, the four newest weekly ones and the newest one stay, and what is not
verified stays; for each backup removed as many newer ones of its class stay as
the class may have; pruning again removes nothing.

* `mem_keepIds_iff`: the ids kept are those of the backups within the window.
* `prune_ok_iff`: what is left of the root.
* `retains_iff`: the law holds exactly when no verification raises what is not expected.
-/
namespace BidScope.L9
open BidScope.L1

/-! ## Verified backups -/

inductive RetentionClass where
  | daily
  | weekly
  deriving DecidableEq, Repr

/-- The manifest with what `prune` reads of it. -/
structure DatedManifest where
  manifest : BackupManifest
  createdAt : Datetime
  retentionClass : RetentionClass
  deriving DecidableEq

/-- `manifest.json` of a directory: it cannot be decoded, it is missing or no valid
manifest, or it is read. -/
inductive ManifestFile where
  | undecodable
  | invalid
  | read (m : DatedManifest)

structure StoredDir where
  manifest : ManifestFile
  files : Root

inductive Child where
  | file
  | dir (d : StoredDir)

/-- The backup root by name, in the order it is listed. -/
abbrev BackupRoot := Dict String Child

variable (lib : StdLib) (refused : List String → Bool)

/-- A check of what lies at a path; `resolve` and `is_file` raise for the paths the
operating system refuses (a NUL in them, a name too long). -/
def refusing {α : Type} (path : α → String) (check : α → Except Failure Unit) (a : α) :
    Except Failure Unit :=
  if SafeRelative (path a) ∧ refused (parts (path a)) then .error .raised else check a

/-- The checks of the dumps, in order. -/
def dumpCheck (files : Root) (m : BackupManifest) : String × String → Except Failure Unit :=
  refusing refused (·.2) (verifyDump lib ⟨true, some m, files⟩ m)

/-- The checks of the objects, in order. -/
def objectCheck (files : Root) (m : BackupManifest) : BackupObject → Except Failure Unit :=
  refusing refused (·.archivePath) (verifyObject lib ⟨true, some m, files⟩)

/-- mirrors backup.py:158-189, on a directory of the root. -/
def verifyDir (d : StoredDir) : Except Failure DatedManifest :=
  match d.manifest with
  | .undecodable => .error .raised
  | .invalid => .error (manifestInvalid "backup manifest is invalid")
  | .read m =>
    match checkAll (dumpCheck lib refused d.files m.manifest) m.manifest.databaseDumps.entries with
    | .error e => .error e
    | .ok () =>
      match checkAll (objectCheck lib refused d.files m.manifest) m.manifest.objects with
      | .error e => .error e
      | .ok () => .ok m

/-- A verified backup and the name of its directory. -/
abbrev Dated := DatedManifest × String

/-- mirrors backup.py:394-402 -/
def gather : List (String × Child) → Except Failure (List Dated)
  | [] => .ok []
  | (_, .file) :: rest => gather rest
  | (name, .dir d) :: rest =>
    match verifyDir lib refused d with
    | .error .raised => .error .raised
    | .error (.backup _) => gather rest
    | .ok m =>
      match gather rest with
      | .error e => .error e
      | .ok entries => .ok ((m, name) :: entries)

/-- mirrors backup.py:406-413, for one class: the ids of its newest backups. -/
def classKept (entries : List Dated) (retention : RetentionClass) (limit : Nat) : List String :=
  ((KeyOrder.orderBy (fun e => -e.1.createdAt.utc)
    (entries.filter (·.1.retentionClass = retention))).take limit).map (·.1.manifest.backupId)

/-- How many backups of a class are kept. -/
def RetentionClass.limit : RetentionClass → Nat
  | .daily => 7
  | .weekly => 4

/-- `max(entries, key=created_at)`, its id. -/
def newestId (entries : List Dated) : List String :=
  ((entries.maxOn? fun e => e.1.createdAt.utc).map (·.1.manifest.backupId)).toList

/-- mirrors backup.py:405-414 -/
def keepIds (entries : List Dated) : List String :=
  classKept entries .daily RetentionClass.daily.limit ++
    (classKept entries .weekly RetentionClass.weekly.limit ++ newestId entries)

/-- The backups `prune` removes. -/
def doomed (entries : List Dated) : List Dated :=
  entries.filter (·.1.manifest.backupId ∉ keepIds entries)

/-- mirrors backup.py:388-421; the root left and `deleted_count`. -/
def prune (root : BackupRoot) : Except Failure (BackupRoot × Nat) :=
  match gather lib refused root.entries with
  | .error e => .error e
  | .ok entries =>
    if entries = [] then .ok (root, 0)
    else .ok (((doomed entries).map Prod.snd).foldl Dict.erase root, (doomed entries).length)

/-! ## The law -/

/-- What verifies among the entries of a root. -/
def verifiedEntry (e : String × Child) : Option Dated :=
  match e.2 with
  | .file => none
  | .dir d =>
    match verifyDir lib refused d with
    | .error _ => none
    | .ok m => some (m, e.1)

def verified (root : BackupRoot) : List Dated := root.entries.filterMap (verifiedEntry lib refused)

/-- How many of the backups are of the class and newer. -/
def newerOfClass (entries : List Dated) (m : DatedManifest) : Nat :=
  entries.countP fun e => e.1.retentionClass = m.retentionClass ∧ m.createdAt.utc < e.1.createdAt.utc

/-- Among the newest of its class, or the newest of all. -/
def Within (entries : List Dated) (m : DatedManifest) : Prop :=
  newerOfClass entries m < m.retentionClass.limit ∨ ∀ e ∈ entries, e.1.createdAt.utc ≤ m.createdAt.utc

/-- What pruning makes of a root. -/
structure Retains (root root' : BackupRoot) : Prop where
  kept : ∀ m name, (m, name) ∈ verified lib refused root → Within (verified lib refused root) m →
    root'.get name = root.get name
  removed : ∀ m name, (m, name) ∈ verified lib refused root → ¬ Within (verified lib refused root) m →
    root'.get name = none
  untouched : ∀ name, (∀ m, (m, name) ∉ verified lib refused root) → root'.get name = root.get name
  newer : ∀ m name, (m, name) ∈ verified lib refused root → root'.get name = none →
    m.retentionClass.limit ≤ newerOfClass (verified lib refused root') m
  again : prune lib refused root' = .ok (root', 0)

/-- The first check that fails is that of a path the operating system refuses. -/
def FirstRefused {α : Type} (path : α → String) (check : α → Except Failure Unit) (as : List α) : Prop :=
  ∃ pre a post, as = pre ++ a :: post ∧ (∀ b ∈ pre, refusing refused path check b = .ok ()) ∧
    SafeRelative (path a) ∧ refused (parts (path a)) = true

/-- The manifest cannot be decoded, or the first check of it that fails is that of a
path the operating system refuses. -/
def Unexpected (d : StoredDir) : Prop :=
  d.manifest = .undecodable ∨ ∃ m, d.manifest = .read m ∧
    (FirstRefused refused (·.2) (verifyDump lib ⟨true, some m.manifest, d.files⟩ m.manifest)
        m.manifest.databaseDumps.entries ∨
      checkAll (dumpCheck lib refused d.files m.manifest) m.manifest.databaseDumps.entries = .ok () ∧
        FirstRefused refused (·.archivePath) (verifyObject lib ⟨true, some m.manifest, d.files⟩)
          m.manifest.objects)

/-- No directory of the root is of that kind. -/
def Expected (root : BackupRoot) : Prop :=
  ∀ name d, root.get name = some (.dir d) → ¬ Unexpected lib refused d

/-- No two verified backups have one id or one creation time. -/
structure Distinct (root : BackupRoot) : Prop where
  ids : ((verified lib refused root).map (·.1.manifest.backupId)).Nodup
  times : ((verified lib refused root).map (·.1.createdAt.utc)).Nodup

/-! ## What verification raises -/

variable {lib refused} {root : BackupRoot} {entries : List Dated}

theorem safeRelativePath_error {relative : String} {e : Failure} (h : safeRelativePath relative = .error e) :
    e ≠ .raised := by
  unfold safeRelativePath at h
  rintro rfl
  split at h
  · cases h
  · split at h <;> cases h

theorem safeObjectKey_error {key : String} {e : Failure} (h : safeObjectKey key = .error e) : e ≠ .raised := by
  unfold safeObjectKey at h
  rintro rfl
  split at h
  · cases h
  · split at h <;> cases h

theorem verifyDump_not_raised {dir : BackupDir} {m : BackupManifest} (dump : String × String) :
    verifyDump lib dir m dump ≠ .error .raised := by
  unfold verifyDump
  cases hp : safeRelativePath dump.2 with
  | error e =>
    intro h
    exact safeRelativePath_error hp (Except.error.inj h)
  | ok path =>
    dsimp only
    split
    · simp [hashMismatch]
    · split <;> simp [hashMismatch]

theorem verifyObject_not_raised {dir : BackupDir} (item : BackupObject) :
    verifyObject lib dir item ≠ .error .raised := by
  unfold verifyObject
  cases hp : safeRelativePath item.archivePath with
  | error e =>
    intro h
    exact safeRelativePath_error hp (Except.error.inj h)
  | ok path =>
    dsimp only
    split
    · simp [hashMismatch]
    · split
      · simp [hashMismatch]
      · split
        · simp [hashMismatch]
        · cases hk : safeObjectKey item.key with
          | error e =>
            intro h
            exact safeObjectKey_error hk (Except.error.inj h)
          | ok key => simp

/-- Checks that raise nothing of their own raise at the first refused path. -/
theorem checkAll_raised_iff {α : Type} {path : α → String} {check : α → Except Failure Unit}
    (hcheck : ∀ a, check a ≠ .error .raised) : ∀ {as : List α},
      checkAll (refusing refused path check) as = .error .raised ↔ FirstRefused refused path check as
  | [] => by simp [checkAll, FirstRefused]
  | a :: as => by
    have ih : checkAll (refusing refused path check) as = .error .raised ↔
        FirstRefused refused path check as := checkAll_raised_iff hcheck
    have hraised : refusing refused path check a = .error .raised ↔
        SafeRelative (path a) ∧ refused (parts (path a)) = true := by
      unfold refusing
      by_cases hr : SafeRelative (path a) ∧ refused (parts (path a)) = true
      · exact iff_of_true (if_pos hr) hr
      · rw [if_neg hr]
        exact iff_of_false (hcheck a) hr
    unfold checkAll
    cases ha : refusing refused path check a with
    | error e =>
      rw [ha] at hraised
      simp only [hraised]
      constructor
      · exact fun h => ⟨[], a, as, rfl, by simp, h⟩
      · rintro ⟨pre, b, post, heq, hpre, hb⟩
        cases pre with
        | nil => exact (List.cons.inj heq).1 ▸ hb
        | cons c pre =>
          obtain ⟨rfl, -⟩ := List.cons.inj heq
          rw [hpre a (List.mem_cons_self ..)] at ha
          cases ha
    | ok u =>
      rw [ha] at hraised
      simp only [ih]
      constructor
      · rintro ⟨pre, b, post, rfl, hpre, hb⟩
        exact ⟨a :: pre, b, post, rfl, List.forall_mem_cons.mpr ⟨ha, hpre⟩, hb⟩
      · rintro ⟨pre, b, post, heq, hpre, hb⟩
        cases pre with
        | nil =>
          obtain ⟨rfl, -⟩ := List.cons.inj heq
          exact absurd (hraised.mpr hb) (by simp)
        | cons c pre =>
          obtain ⟨rfl, rfl⟩ := List.cons.inj heq
          exact ⟨pre, b, post, rfl, (List.forall_mem_cons.mp hpre).2, hb⟩

theorem verifyDir_raised_iff {d : StoredDir} :
    verifyDir lib refused d = .error .raised ↔ Unexpected lib refused d := by
  unfold verifyDir Unexpected
  cases d.manifest with
  | undecodable => simp
  | invalid => simp [manifestInvalid]
  | read m =>
    have hdumps : checkAll (dumpCheck lib refused d.files m.manifest) m.manifest.databaseDumps.entries =
        .error .raised ↔ FirstRefused refused _ _ _ := checkAll_raised_iff verifyDump_not_raised
    have hobjects : checkAll (objectCheck lib refused d.files m.manifest) m.manifest.objects =
        .error .raised ↔ FirstRefused refused _ _ _ := checkAll_raised_iff verifyObject_not_raised
    simp only [reduceCtorEq, ManifestFile.read.injEq, exists_eq_left', false_or, ← hdumps, ← hobjects]
    cases hd : checkAll (dumpCheck lib refused d.files m.manifest) m.manifest.databaseDumps.entries with
    | error e => simp
    | ok u =>
      cases ho : checkAll (objectCheck lib refused d.files m.manifest) m.manifest.objects with
      | error e => simp
      | ok u => simp

/-- Where no path is refused, this is `verify_manifest`. -/
theorem verifyDir_read {m : DatedManifest} {files : Root} (h : ∀ path, refused path = false) :
    verifyDir lib refused ⟨.read m, files⟩ =
      (verifyManifest lib ⟨true, some m.manifest, files⟩).map fun _ => m := by
  have hplain : ∀ {α : Type} (path : α → String) (check : α → Except Failure Unit),
      refusing refused path check = check := by
    intro α path check
    funext a
    simp [refusing, h]
  simp only [verifyDir, verifyManifest, dumpCheck, objectCheck, hplain, not_true_eq_false, if_false]
  cases checkAll (verifyDump lib ⟨true, some m.manifest, files⟩ m.manifest) m.manifest.databaseDumps.entries with
  | error e => rfl
  | ok u => cases checkAll (verifyObject lib ⟨true, some m.manifest, files⟩) m.manifest.objects <;> rfl

/-! ## What is gathered -/

/-- The directories are gathered unless the verification of one raises. -/
theorem gather_ok_iff : ∀ {es : List (String × Child)} {entries : List Dated},
    gather lib refused es = .ok entries ↔
      (∀ e ∈ es, ∀ d, e.2 = .dir d → ¬ Unexpected lib refused d) ∧
        entries = es.filterMap (verifiedEntry lib refused)
  | [], entries => by simp [gather, eq_comm]
  | (name, .file) :: rest, entries => by
    rw [gather, gather_ok_iff, List.filterMap_cons]
    simp [verifiedEntry]
  | (name, .dir d) :: rest, entries => by
    have hraised : verifyDir lib refused d = .error .raised ↔ Unexpected lib refused d :=
      verifyDir_raised_iff
    unfold gather
    rw [List.filterMap_cons]
    simp only [List.mem_cons, forall_eq_or_imp, Child.dir.injEq, forall_eq', verifiedEntry, ← hraised]
    cases hv : verifyDir lib refused d with
    | error e =>
      cases e with
      | raised => simp
      | backup e => simp [gather_ok_iff]
    | ok m =>
      cases hg : gather lib refused rest with
      | error e =>
        simp only [reduceCtorEq, not_false_eq_true, true_and, false_iff]
        intro h
        rw [gather_ok_iff.mpr ⟨h.1, rfl⟩] at hg
        cases hg
      | ok es =>
        obtain ⟨hall, rfl⟩ := gather_ok_iff.mp hg
        simp only [Except.ok.injEq, reduceCtorEq, not_false_eq_true, true_and, eq_comm (a := entries)]
        exact ⟨fun h => ⟨hall, h⟩, fun h => h.2⟩

theorem gather_root_iff : gather lib refused root.entries = .ok entries ↔
    Expected lib refused root ∧ entries = verified lib refused root := by
  rw [gather_ok_iff, Expected, verified]
  refine and_congr ⟨fun h name d hget => ?_, fun h e he d hd => ?_⟩ Iff.rfl
  · exact h (name, .dir d) ((Dict.mem_iff_get ..).mpr hget) d rfl
  · exact h e.1 d (hd ▸ (Dict.mem_iff_get ..).mp he)

/-- The verified backups by name. -/
theorem mem_verified_iff {m : DatedManifest} {name : String} : (m, name) ∈ verified lib refused root ↔
    ∃ d, root.get name = some (.dir d) ∧ verifyDir lib refused d = .ok m := by
  unfold verified
  rw [List.mem_filterMap]
  constructor
  · rintro ⟨⟨name', child⟩, hmem, hv⟩
    cases child with
    | file => cases hv
    | dir d =>
      unfold verifiedEntry at hv
      dsimp only at hv
      cases hd : verifyDir lib refused d with
      | error e => simp [hd] at hv
      | ok m' =>
        simp only [hd, Option.some.injEq, Prod.mk.injEq] at hv
        obtain ⟨rfl, rfl⟩ := hv
        exact ⟨d, (Dict.mem_iff_get ..).mp hmem, hd⟩
  · rintro ⟨d, hget, hd⟩
    exact ⟨(name, .dir d), (Dict.mem_iff_get ..).mpr hget, by simp [verifiedEntry, hd]⟩

/-! ## The ids kept -/

section Kept

variable (hids : (entries.map (·.1.manifest.backupId)).Nodup)
  (htimes : (entries.map (·.1.createdAt.utc)).Nodup) {m : DatedManifest} {name : String}
include hids

theorem id_mem_map_iff {l : List Dated} (hl : l ⊆ entries) (hm : (m, name) ∈ entries) :
    m.manifest.backupId ∈ l.map (·.1.manifest.backupId) ↔ (m, name) ∈ l := by
  constructor
  · intro h
    obtain ⟨e, he, hid⟩ := List.mem_map.mp h
    rwa [List.inj_on_of_nodup_map hids (hl he) hm hid] at he
  · exact List.mem_map_of_mem (f := fun e : Dated => e.1.manifest.backupId)

include htimes

/-- A class keeps its newest backups. -/
theorem mem_classKept_iff (hm : (m, name) ∈ entries) {retention : RetentionClass} {limit : Nat} :
    m.manifest.backupId ∈ classKept entries retention limit ↔
      m.retentionClass = retention ∧ newerOfClass entries m < limit := by
  unfold classKept
  have hsub : (KeyOrder.orderBy (fun e : Dated => -e.1.createdAt.utc)
      (entries.filter (·.1.retentionClass = retention))).take limit ⊆ entries := fun e he =>
    List.mem_of_mem_filter ((KeyOrder.orderBy_perm _ _).subset (List.mem_of_mem_take he))
  rw [id_mem_map_iff hids hsub hm]
  by_cases hclass : m.retentionClass = retention
  · have hrow : (m, name) ∈ entries.filter (·.1.retentionClass = retention) :=
      List.mem_filter.mpr ⟨hm, by simpa using hclass⟩
    have hkeys : ((entries.filter (·.1.retentionClass = retention)).map
        fun e : Dated => -e.1.createdAt.utc).Nodup := by
      have hneg : (entries.map fun e : Dated => -e.1.createdAt.utc).Nodup := by
        have := htimes.map (f := fun t : Int => -t) neg_injective
        rwa [List.map_map] at this
      exact hneg.sublist (List.filter_sublist.map _)
    rw [KeyOrder.mem_take_orderBy hkeys hrow, List.countP_filter]
    simp only [hclass, true_and, newerOfClass]
    have hcount : (entries.countP fun e => decide (-e.1.createdAt.utc < -m.createdAt.utc) &&
        decide (e.1.retentionClass = retention)) =
        entries.countP fun e => e.1.retentionClass = retention ∧ m.createdAt.utc < e.1.createdAt.utc := by
      refine List.countP_congr fun e _ => ?_
      simp [and_comm]
    rw [hcount]
  · simp only [hclass, false_and, iff_false]
    intro hmem
    have hfilter := (KeyOrder.orderBy_perm _ _).subset (List.mem_of_mem_take hmem)
    exact hclass (by simpa using (List.mem_filter.mp hfilter).2)

theorem mem_newestId_iff (hm : (m, name) ∈ entries) :
    m.manifest.backupId ∈ newestId entries ↔ ∀ e ∈ entries, e.1.createdAt.utc ≤ m.createdAt.utc := by
  unfold newestId
  have hle : ∀ e ∈ entries, ∀ top, entries.maxOn? (fun e : Dated => e.1.createdAt.utc) = some top →
      e.1.createdAt.utc ≤ top.1.createdAt.utc := by
    intro e he top htop
    have hget := List.le_apply_get_maxOn?_of_mem (f := fun e : Dated => e.1.createdAt.utc) he
    rwa [Option.get_of_eq_some _ htop] at hget
  cases hmax : entries.maxOn? (fun e : Dated => e.1.createdAt.utc) with
  | none => exact absurd (List.isSome_maxOn?_of_mem hm) (by rw [hmax]; nofun)
  | some top =>
    have htop := List.maxOn?_mem hmax
    simp only [Option.map_some, Option.toList_some, List.mem_singleton]
    constructor
    · intro hid e he
      obtain rfl : (m, name) = top := List.inj_on_of_nodup_map hids hm htop hid
      exact hle e he _ hmax
    · intro hall
      have heq : top.1.createdAt.utc = m.createdAt.utc :=
        le_antisymm (hall top htop) (hle (m, name) hm top hmax)
      obtain rfl : top = (m, name) := List.inj_on_of_nodup_map htimes htop hm heq
      rfl

/-- The ids kept are those of the backups within the window. -/
theorem mem_keepIds_iff (hm : (m, name) ∈ entries) :
    m.manifest.backupId ∈ keepIds entries ↔ Within entries m := by
  unfold keepIds Within
  rw [List.mem_append, List.mem_append, mem_classKept_iff hids htimes hm, mem_classKept_iff hids htimes hm,
    mem_newestId_iff hids htimes hm, ← or_assoc]
  refine or_congr ?_ Iff.rfl
  cases m.retentionClass <;> simp

/-- Of the class of a backup beyond the window, as many newer ones are within it. -/
theorem limit_le_newer (hout : ¬ Within entries m) :
    m.retentionClass.limit ≤
      newerOfClass (entries.filter (·.1.manifest.backupId ∈ keepIds entries)) m := by
  have hmany : m.retentionClass.limit ≤ newerOfClass entries m := not_lt.mp (not_or.mp hout).1
  set limit := m.retentionClass.limit
  set rows := entries.filter (·.1.retentionClass = m.retentionClass)
  set top := (KeyOrder.orderBy (fun e : Dated => -e.1.createdAt.utc) rows).take limit
  have hperm := KeyOrder.orderBy_perm (fun e : Dated => -e.1.createdAt.utc) rows
  have hlength : top.length = limit := by
    have hrows : newerOfClass entries m ≤ rows.length := by
      rw [newerOfClass, ← List.countP_eq_length_filter]
      refine List.countP_mono_left fun e _ he => ?_
      simp only [decide_eq_true_eq] at he ⊢
      exact he.1
    rw [List.length_take, hperm.length_eq]
    omega
  have hnodup : top.Nodup :=
    (hperm.nodup_iff.mpr (hids.of_map.filter _)).sublist (List.take_sublist ..)
  have hsub : top ⊆ (entries.filter (·.1.manifest.backupId ∈ keepIds entries)).filter
      fun e => e.1.retentionClass = m.retentionClass ∧ m.createdAt.utc < e.1.createdAt.utc := by
    intro e he
    obtain ⟨hmem, hclass⟩ := List.mem_filter.mp (hperm.subset (List.mem_of_mem_take he))
    rw [decide_eq_true_eq] at hclass
    have hkept : e.1.manifest.backupId ∈ classKept entries m.retentionClass limit :=
      List.mem_map_of_mem (f := fun e : Dated => e.1.manifest.backupId) he
    have hfew := ((mem_classKept_iff hids htimes hmem).mp hkept).2
    have hin : e.1.manifest.backupId ∈ keepIds entries :=
      (mem_keepIds_iff hids htimes hmem).mpr (.inl (hclass ▸ hfew))
    simp only [List.mem_filter, decide_eq_true_eq]
    refine ⟨⟨hmem, hin⟩, hclass, ?_⟩
    by_contra hold
    -- what is newer than `m` would be newer than `e`
    have hle : newerOfClass entries m ≤ newerOfClass entries e.1 := by
      refine List.countP_mono_left fun x _ hx => ?_
      simp only [decide_eq_true_eq] at hx ⊢
      exact ⟨hx.1.trans hclass.symm, by omega⟩
    omega
  calc limit = top.length := hlength.symm
    _ ≤ _ := (List.subperm_of_subset hnodup hsub).length_le
    _ = _ := (List.countP_eq_length_filter ..).symm

end Kept

/-! ## What is left -/

theorem prune_ok_iff {r : BackupRoot × Nat} : prune lib refused root = .ok r ↔
    Expected lib refused root ∧
      r = (((doomed (verified lib refused root)).map Prod.snd).foldl Dict.erase root,
        (doomed (verified lib refused root)).length) := by
  unfold prune
  cases hg : gather lib refused root.entries with
  | error e =>
    simp only [reduceCtorEq, false_iff]
    intro h
    rw [gather_root_iff.mpr ⟨h.1, rfl⟩] at hg
    cases hg
  | ok entries =>
    obtain ⟨hexp, rfl⟩ := gather_root_iff.mp hg
    by_cases hnil : verified lib refused root = []
    · simp [hnil, hexp, doomed, eq_comm]
    · simp [hnil, hexp, eq_comm]

variable (hd : Distinct lib refused root) {m : DatedManifest} {name : String}
include hd

theorem mem_doomed_iff (hm : (m, name) ∈ verified lib refused root) :
    (m, name) ∈ doomed (verified lib refused root) ↔ ¬ Within (verified lib refused root) m := by
  simp [doomed, hm, mem_keepIds_iff hd.ids hd.times hm]

omit hd in
/-- A name belongs to one verified backup. -/
theorem mem_doomed_names (hm : (m, name) ∈ verified lib refused root) :
    name ∈ (doomed (verified lib refused root)).map Prod.snd ↔
      (m, name) ∈ doomed (verified lib refused root) := by
  constructor
  · intro h
    obtain ⟨⟨m', name'⟩, hmem, rfl⟩ := List.mem_map.mp h
    obtain ⟨d, hget, hv⟩ := mem_verified_iff.mp hm
    obtain ⟨d', hget', hv'⟩ := mem_verified_iff.mp (List.mem_of_mem_filter hmem)
    dsimp only at hget hget'
    rw [hget, Option.some.injEq, Child.dir.injEq] at hget'
    rw [← hget', hv, Except.ok.injEq] at hv'
    rwa [hv']
  · exact List.mem_map_of_mem (f := Prod.snd)

omit hd in
theorem get_foldl_erase : ∀ (ks : List String) (root : BackupRoot),
    (ks.foldl Dict.erase root).get name = if name ∈ ks then none else root.get name
  | [], root => by simp
  | k :: ks, root => by
    rw [List.foldl_cons, get_foldl_erase ks, Dict.get_erase]
    by_cases hk : name = k <;> simp [hk]

omit hd in
theorem verified_pruned {root' : BackupRoot} {ks : List String} (h : root'.entries = root.entries.filter (·.1 ∉ ks)) :
    verified lib refused root' = (verified lib refused root).filter (·.2 ∉ ks) := by
  unfold verified
  rw [h, List.filterMap_filter, List.filter_filterMap]
  refine List.filterMap_congr fun e _ => ?_
  obtain ⟨name, child⟩ := e
  cases child with
  | file => simp [verifiedEntry]
  | dir d =>
    cases hv : verifyDir lib refused d with
    | error e => simp [verifiedEntry, hv]
    | ok m => by_cases hk : name ∈ ks <;> simp [verifiedEntry, hv, hk, Option.filter]

/-- Pruning is the law where nothing unexpected is raised. -/
theorem prune_retains (hexp : Expected lib refused root) {r : BackupRoot × Nat}
    (h : prune lib refused root = .ok r) : Retains lib refused root r.1 := by
  obtain ⟨-, rfl⟩ := prune_ok_iff.mp h
  set entries := verified lib refused root with hentries
  set ks := (doomed entries).map Prod.snd with hks
  have hdict : (ks.foldl Dict.erase root).entries = root.entries.filter (·.1 ∉ ks) :=
    Dict.entries_foldl_erase ks root
  have hget : ∀ name, (ks.foldl Dict.erase root).get name = if name ∈ ks then none else root.get name :=
    fun _ => get_foldl_erase ks root
  have hleft : verified lib refused (ks.foldl Dict.erase root) =
      entries.filter (·.1.manifest.backupId ∈ keepIds entries) := by
    rw [verified_pruned hdict]
    refine List.filter_congr fun e he => ?_
    rw [decide_eq_decide, hks, mem_doomed_names he, mem_doomed_iff hd he, not_not,
      mem_keepIds_iff hd.ids hd.times he]
  have hname : ∀ {m name}, (m, name) ∈ entries → (name ∈ ks ↔ ¬ Within entries m) := fun hm => by
    rw [hks, mem_doomed_names hm, mem_doomed_iff hd hm]
  constructor
  · intro m name hm hin
    rw [hget, if_neg ((hname hm).not.mpr (not_not.mpr hin))]
  · intro m name hm hout
    rw [hget, if_pos ((hname hm).mpr hout)]
  · intro name hno
    rw [hget, if_neg]
    intro hmem
    obtain ⟨e, he, rfl⟩ := List.mem_map.mp hmem
    exact hno e.1 (List.mem_of_mem_filter he)
  · intro m name hm hgone
    obtain ⟨d, hroot, -⟩ := mem_verified_iff.mp hm
    rw [hget] at hgone
    have hmem : name ∈ ks := by
      by_contra hnot
      rw [if_neg hnot, hroot] at hgone
      cases hgone
    rw [hleft]
    exact limit_le_newer hd.ids hd.times ((hname hm).mp hmem)
  · -- what is within the window is still within it
    have hagain : doomed (verified lib refused (ks.foldl Dict.erase root)) = [] := by
      rw [hleft, doomed, List.filter_eq_nil_iff]
      rintro ⟨m, name⟩ hm
      have hsub := List.filter_sublist (p := (·.1.manifest.backupId ∈ keepIds entries)) (l := entries)
      obtain ⟨hmem, hkeep⟩ := List.mem_filter.mp hm
      rw [decide_eq_true_eq, mem_keepIds_iff hd.ids hd.times hmem] at hkeep
      rw [decide_eq_true_eq, not_not,
        mem_keepIds_iff (hd.ids.sublist (hsub.map _)) (hd.times.sublist (hsub.map _)) hm]
      refine hkeep.imp (fun hfew => ?_) fun hall e he => hall e (hsub.subset he)
      exact lt_of_le_of_lt (hsub.countP_le ..) hfew
    refine prune_ok_iff.mpr ⟨fun name d hgot => ?_, by rw [hagain]; rfl⟩
    rw [hget] at hgot
    split at hgot
    · cases hgot
    · exact hexp name d hgot

/-- Pruning keeps to the retention window exactly when no verification raises
anything but a `BackupError`. -/
theorem retains_iff :
    (∃ r, prune lib refused root = .ok r ∧ Retains lib refused root r.1) ↔ Expected lib refused root := by
  constructor
  · rintro ⟨r, h, -⟩
    exact (prune_ok_iff.mp h).1
  · intro hexp
    have h := prune_ok_iff.mpr ⟨hexp, rfl⟩
    exact ⟨_, h, prune_retains hd hexp h⟩

omit hd

/-! ## A manifest that is not UTF-8 -/

/-- A daily backup of nothing. -/
def emptyDaily (n : Nat) : String × Child :=
  (toString n, .dir ⟨.read ⟨⟨toString n, .empty, .empty, .empty, []⟩, ⟨n, 0⟩, .daily⟩, .empty⟩)

/-- Eight daily backups. -/
def eightDaily : BackupRoot := ⟨(List.range 8).map emptyDaily, by decide⟩

/-- Eight daily backups and a directory whose manifest is not UTF-8. -/
def eightAndOther : BackupRoot := eightDaily.set "8" (.dir ⟨.undecodable, .empty⟩)

theorem eightDaily_distinct : Distinct .sample (fun _ => false) eightDaily := ⟨by decide, by decide⟩

theorem eightDaily_expected : Expected .sample (fun _ => false) eightDaily := by
  intro name d hget
  obtain ⟨n, -, hn⟩ := List.mem_map.mp ((Dict.mem_iff_get ..).mpr hget)
  obtain ⟨-, hdir⟩ := Prod.mk.inj hn
  rw [← Child.dir.inj hdir, ← verifyDir_raised_iff]
  intro h
  cases h

/-- The eight daily backups are pruned by the law. -/
theorem retains_eight : ∃ r, prune .sample (fun _ => false) eightDaily = .ok r ∧
    Retains .sample (fun _ => false) eightDaily r.1 :=
  (retains_iff eightDaily_distinct).mpr eightDaily_expected

/-- Beside a manifest that is not UTF-8 nothing is pruned: the call raises. -/
theorem prune_undecodable : Distinct .sample (fun _ => false) eightAndOther ∧
    ¬ ∃ r, prune .sample (fun _ => false) eightAndOther = .ok r ∧
      Retains .sample (fun _ => false) eightAndOther r.1 := by
  refine ⟨⟨by decide, by decide⟩, ?_⟩
  rintro ⟨r, h, -⟩
  obtain ⟨hexp, -⟩ := prune_ok_iff.mp h
  exact hexp "8" ⟨.undecodable, .empty⟩ rfl (.inl rfl)

end BidScope.L9
