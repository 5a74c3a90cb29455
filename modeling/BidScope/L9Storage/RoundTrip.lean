import BidScope.L9Storage.Create

/-!
# Objects through a backup

**Law.** A backup that is created, and restored with success, leaves under the
target root what the store held: each key with its bytes, and no other.

**Where it fails.** `_safe_object_key` looks for empty parts and `.` among
`Path(key).parts`, which has none, so keys with such segments are archived, and
come back under the key their path spells: `a//b` as `a/b`. Keys of which one
is a path on from another are refused by the file system: that restore does not
succeed.

**Results.**
* `objects_round_trip_iff`: the law holds of a backup exactly when no key of the
  store has an empty segment or a segment `.`.
-/
namespace BidScope.L9
open BidScope.L1

variable {lib : StdLib} {store : ObjectStore} {dir : BackupDir} {keys : List String} {tree : Root}

/-- The store lists the key and gives these bytes for it. -/
def ObjectStore.Holds (store : ObjectStore) (key : String) (data : Bytes) : Prop :=
  ∃ keys, store.listKeys = some keys ∧ key ∈ keys ∧ store.getBytes key = some data

/-- A file below the root whose path spells the key. -/
def Target.Holds (target : Target) (key : String) (data : Bytes) : Prop :=
  ∃ tree path, target = .dir tree ∧ tree.file? path = some data ∧ asPosix path = key

/-! ## The backup -/

/-- A backup that is created lists every object of the store, in its archive. -/
theorem create_done {tools : CreateTools} {service : BackupService} {backupId retentionClass : String}
    {created : Created} (hstore : service.objectStore = some store)
    (h : create lib tools service backupId retentionClass = .ok created) :
    ∃ manifest keys, created.dir.manifest = some manifest ∧ store.listKeys = some keys ∧
      List.Forall₂ (fun key item => ∃ data, Archived lib created.dir.files store key item data) keys
        manifest.objects := by
  obtain ⟨-, -, hin⟩ := create_ok_iff.mp h
  obtain ⟨parsed, d, files, objects, -, -, harch, -, rfl⟩ := createIn_ok_iff.mp hin
  rw [hstore, archiveStore] at harch
  cases hmk : d.files.mkdirs ["objects"] with
  | none => simp [hmk] at harch
  | some made =>
    cases hkeys : store.listKeys with
    | none => simp [hmk, hkeys] at harch
    | some keys =>
      simp only [hmk, hkeys] at harch
      obtain ⟨⟨items, hitems, hall⟩, -⟩ := archive_done harch
      rw [List.nil_append] at hitems
      subst hitems
      exact ⟨_, keys, rfl, rfl, hall⟩

/-- Where a key's bytes go. -/
def ObjectStore.placed (store : ObjectStore) (key : String) : List String × Bytes :=
  (parts key, (store.getBytes key).getD [])

theorem placed_of_archived {items : List BackupObject}
    (h : List.Forall₂ (fun key item => ∃ data, Archived lib dir.files store key item data) keys items) :
    keys.map store.placed = items.map (placed dir) := by
  refine Joins.forall₂_map h fun key _ item hitem => ?_
  obtain ⟨data, ha⟩ := hitem
  rw [placed, ObjectStore.placed, BackupDir.bytes, ha.bytes, ha.named, ha.stored]

theorem stored_of_archived {files : Root} {items : List BackupObject}
    (h : List.Forall₂ (fun key item => ∃ data, Archived lib files store key item data) keys items) :
    ∀ key ∈ keys, (store.getBytes key).isSome := by
  intro key hkey
  obtain ⟨item, -, data, ha⟩ := Joins.forall₂_left h hkey
  rw [ha.stored]
  rfl

/-! ## The files restored -/

/-- A file that is put comes from a key with its path. -/
theorem key_of_file (hput : FileTree.empty.putAll (keys.map store.placed) = some tree)
    (hstored : ∀ key ∈ keys, (store.getBytes key).isSome) {path : List String} {data : Bytes}
    (hfile : tree.file? path = some data) :
    ∃ key ∈ keys, parts key = path ∧ store.getBytes key = some data := by
  rw [FileTree.file_putAll _ hput, FileTree.file_empty, Option.or_none] at hfile
  obtain ⟨e, hlast, rfl⟩ := Option.map_eq_some_iff.mp hfile
  obtain ⟨hmem, hpath⟩ := Ledger.last_mem hlast
  obtain ⟨key, hkey, rfl⟩ := List.mem_map.mp hmem
  obtain ⟨data, hdata⟩ := Option.isSome_iff_exists.mp (hstored key hkey)
  exact ⟨key, hkey, hpath, by simp [ObjectStore.placed, hdata]⟩

/-- Every key has a file at its path. -/
theorem file_of_key (hput : FileTree.empty.putAll (keys.map store.placed) = some tree) {key : String}
    (hkey : key ∈ keys) : (tree.file? (parts key)).isSome := by
  rw [FileTree.file_putAll _ hput, FileTree.file_empty, Option.or_none, Option.isSome_map,
    Option.isSome_iff_ne_none, ne_eq, Ledger.last_eq_none_iff]
  intro hnone
  exact hnone _ (List.mem_map_of_mem hkey) rfl

/-- The path of a file restored spells a key without empty segments and `.`. -/
theorem canonical_of_file (hput : FileTree.empty.putAll (keys.map store.placed) = some tree)
    (hstored : ∀ key ∈ keys, (store.getBytes key).isSome) {path : List String} {data : Bytes}
    (hfile : tree.file? path = some data) : Canonical (asPosix path) := by
  obtain ⟨key, -, rfl, -⟩ := key_of_file hput hstored hfile
  refine canonical_asPosix ?_ fun s hs => parts_names hs
  intro hnil
  rw [hnil, FileTree.file_nil] at hfile
  cases hfile

/-! ## The law -/

/-- What a restore of a created backup puts under the root. -/
theorem restored_tree {ctools : CreateTools} {rtools : RestoreTools} {service : BackupService}
    {backupId retentionClass : String} {created : Created} {req : RestoreRequest} {summary : Summary}
    (hstore : service.objectStore = some store)
    (hcreate : create lib ctools service backupId retentionClass = .ok created)
    (hdir : req.backupDir = created.dir) (hrestore : (restore lib rtools req).2 = .ok summary) :
    ∃ keys tree, store.listKeys = some keys ∧ (restore lib rtools req).1.objectRoot = .dir tree ∧
      (∀ key ∈ keys, (store.getBytes key).isSome) ∧
      FileTree.empty.putAll (keys.map store.placed) = some tree := by
  obtain ⟨manifest, keys, hmanifest, hkeys, harchived⟩ := create_done hstore hcreate
  obtain ⟨checked, commands, tree, hr⟩ := restore_done hrestore
  have hsame : manifest = checked.manifest := by
    obtain ⟨-, hm, -, -⟩ := (verify_ok_iff lib).mp (preflight_ok hr.preflight).1
    rw [hdir, hmanifest, Option.some.injEq] at hm
    exact hm
  subst hsame
  refine ⟨keys, tree, hkeys, by rw [hr.effects], stored_of_archived harchived, ?_⟩
  rw [placed_of_archived harchived, ← restoreObjects_done_iff .empty fun item hitem => ?_]
  · rw [← hdir]
    exact hr.objects
  · rw [← hdir]
    exact objects_of_preflight hr.preflight item hitem

/-- A backup that is created and restored with success leaves exactly what the store
held, if and only if no key has an empty segment or a segment `.`. -/
theorem objects_round_trip_iff (lib : StdLib) (ctools : CreateTools) (rtools : RestoreTools)
    (service : BackupService) (store : ObjectStore) (backupId retentionClass : String)
    (created : Created) (req : RestoreRequest) (summary : Summary)
    (hstore : service.objectStore = some store)
    (hcreate : create lib ctools service backupId retentionClass = .ok created)
    (hdir : req.backupDir = created.dir) (hrestore : (restore lib rtools req).2 = .ok summary) :
    (∀ key data, (restore lib rtools req).1.objectRoot.Holds key data ↔ store.Holds key data) ↔
      ∀ key data, store.Holds key data → Canonical key := by
  obtain ⟨keys, tree, hkeys, hroot, hstored, hput⟩ := restored_tree hstore hcreate hdir hrestore
  rw [hroot]
  constructor
  · intro hlaw key data hheld
    obtain ⟨tree', path, htree, hfile, rfl⟩ := (hlaw key data).mpr hheld
    cases htree
    exact canonical_of_file hput hstored hfile
  · intro hcan key data
    have hcanonical : ∀ k ∈ keys, Canonical k := fun k hk => by
      obtain ⟨d, hd⟩ := Option.isSome_iff_exists.mp (hstored k hk)
      exact hcan k d ⟨keys, hkeys, hk, hd⟩
    constructor
    · rintro ⟨tree', path, htree, hfile, rfl⟩
      cases htree
      obtain ⟨k, hk, rfl, hd⟩ := key_of_file hput hstored hfile
      rw [asPosix_parts (hcanonical k hk)]
      exact ⟨keys, hkeys, hk, hd⟩
    · rintro ⟨keys', hkeys', hk, hd⟩
      rw [hkeys, Option.some.injEq] at hkeys'
      subst hkeys'
      obtain ⟨data', hfile⟩ := Option.isSome_iff_exists.mp (file_of_key hput hk)
      -- the file at the path is this key's: no other key has the path
      obtain ⟨k', hk', hparts, hd'⟩ := key_of_file hput hstored hfile
      obtain rfl := parts_injective (hcanonical k' hk') (hcanonical key hk) hparts
      rw [hd, Option.some.injEq] at hd'
      subst hd'
      exact ⟨tree, parts k', rfl, hfile, asPosix_parts (hcanonical k' hk')⟩

/-! ## Runs -/

/-- Both databases in one, and a store. -/
def serviceOf (store : ObjectStore) : BackupService where
  databaseUrls := .ofList
    [(.application, "postgresql://u:p@a/d"), (.checkpoint, "postgresql://u:p@a/d")]
  objectStore := some store

/-- The restore of a backup, into another database and a root that is not there. -/
def restoreOf (created : Created) : RestoreRequest where
  backupDir := created.dir
  targetDatabaseUrl := "postgresql://u:p@b/d"
  targetCheckpointDatabaseUrl := "postgresql://u:p@b/d"
  targetObjectRoot := .missing
  confirmed := true

/-- A backup of the store is created and restored. -/
def Survives (store : ObjectStore) : Prop :=
  ∃ created summary,
    create .sample (.succeed [] "r") (serviceOf store) "b" "daily" = .ok created ∧
    (restore .sample (.succeed "r") (restoreOf created)).2 = .ok summary

theorem survives_of_runs {store : ObjectStore}
    (h : (((create .sample (.succeed [] "r") (serviceOf store) "b" "daily").toOption.map fun created =>
      (restore .sample (.succeed "r") (restoreOf created)).2.toOption.isSome).getD false) = true) :
    Survives store := by
  cases hc : create .sample (.succeed [] "r") (serviceOf store) "b" "daily" with
  | error e =>
    rw [hc] at h
    cases h
  | ok created =>
    cases hr : (restore .sample (.succeed "r") (restoreOf created)).2 with
    | error e =>
      rw [hc] at h
      simp [Except.toOption, hr] at h
    | ok summary => exact ⟨created, summary, hc, hr⟩

/-- A nested key, and another one. -/
def twoObjects : ObjectStore :=
  ⟨some ["a/b", "c"], fun k => if k = "a/b" then some [0] else if k = "c" then some [1, 2] else none⟩

theorem objects_round_trip_two : ∃ created,
    (∀ key data, (restore .sample (.succeed "r") (restoreOf created)).1.objectRoot.Holds key data ↔
      twoObjects.Holds key data) ↔ ∀ key data, twoObjects.Holds key data → Canonical key := by
  obtain ⟨created, summary, hcreate, hrestore⟩ : Survives twoObjects := survives_of_runs (by decide +kernel)
  exact ⟨created, objects_round_trip_iff .sample _ _ _ _ _ _ created _ summary rfl hcreate rfl hrestore⟩

/-- An object under one key. -/
def oneObject (key : String) : ObjectStore := ⟨some [key], fun k => if k = key then some [0] else none⟩

/-- `a//b` comes back as `a/b`. -/
theorem object_renamed : ∃ created summary,
    create .sample (.succeed [] "r") (serviceOf (oneObject "a//b")) "b" "daily" = .ok created ∧
    (restore .sample (.succeed "r") (restoreOf created)).2 = .ok summary ∧
    ¬ ∀ key data, (restore .sample (.succeed "r") (restoreOf created)).1.objectRoot.Holds key data ↔
      (oneObject "a//b").Holds key data := by
  obtain ⟨created, summary, hcreate, hrestore⟩ : Survives (oneObject "a//b") := survives_of_runs (by decide +kernel)
  refine ⟨created, summary, hcreate, hrestore, fun hlaw => ?_⟩
  obtain ⟨keys, tree, hkeys, hroot, hstored, hput⟩ := restored_tree rfl hcreate rfl hrestore
  obtain ⟨tree', path, htree, hfile, hpath⟩ := (hlaw "a//b" [0]).mpr ⟨_, rfl, by simp, rfl⟩
  rw [hroot] at htree
  cases htree
  have hcan := canonical_of_file hput hstored hfile
  rw [hpath] at hcan
  exact absurd hcan (by decide +kernel)

end BidScope.L9
