import BidScope.L9Storage.Create

/-!
# Creating a backup, whatever its collaborators do

`BackupService.create` on a backup root that holds other backups. The dump tool
is called once for each database and may do anything at the path it is given;
the inspector answers each call on its own; the object store lists any keys and
gives any bytes at each call, the same key twice included; each of them may
raise at any call, and so may a file operation. `manifest.json` is read back as
it was written.

**Law (`AllOrNothing`).** A backup returned is one `verify_manifest` accepts,
with every object the store listed under its key and with the bytes the store
gave; a `BackupError` behind the new directory leaves none, if the removal
succeeds; no other backup changes.

* `stage_of_createIn`: a backup that `createIn` makes is made here.
* `stage_done`: what a staged backup holds.
* `create_all_or_nothing`: the law, for every behaviour.
-/
namespace BidScope.L9

/-! ## Collaborators -/

/-- An effect on the files below a path and on nothing else. -/
abbrev Confined (path : List String) : Type :=
  { run : Root → Root // ∀ t p, ¬ path <+: p → (run t).node p = t.node p }

/-- The backup root: the backup directories by name. -/
abbrev Backups := Dict String BackupDir

/-- What the collaborators do, call by call. -/
structure World where
  /-- the tool called for the `n`-th database, with the path of `--file` -/
  pgDump : Nat → DbParts → (path : List String) → Confined path × Option ToolError
  currentRevision : Nat → DbParts → Except ToolError String
  /-- whether a file operation on the name succeeds -/
  io : String → Bool
  /-- `none` where the removal of the new directory succeeds, or what it leaves of it -/
  rmtree : Option BackupDir

/-- An object store; `none` where it raises. Keys are asked for in the order listed. -/
structure Store where
  listKeys : Option (List String)
  getBytes : Nat → String → Option Bytes

/-- The store as it answers the `n`-th question. -/
def Store.asked (store : Store) (n : Nat) : ObjectStore := ⟨store.listKeys, store.getBytes n⟩

structure Service where
  databaseUrls : Dict Role String
  objectStore : Option Store

variable (lib : StdLib) (w : World)

/-! ## The steps -/

/-- mirrors backup.py:451-480, for one distinct database -/
def dumpOne (parsed : List (Role × DbParts)) (index : Nat) (database : Identity × Role × DbParts)
    (d : Dumps) : Except Failure Dumps :=
  let filename := dumpName index database.2.1
  match w.pgDump index database.2.2 [filename] with
  | (_, some e) => .error e.failure
  | (effect, none) =>
    let files := effect.1 d.files
    match files.file? [filename] with
    | none => .error (.backup ⟨"backup_dump_missing", "database dump was not created"⟩)
    | some data =>
      if ¬ w.io filename then
        .error (.backup ⟨"backup_file_unreadable", "backup file could not be read"⟩)
      else
        match w.currentRevision index database.2.2 with
        | .error e => .error e.failure
        | .ok revision =>
          let roles := (parsed.filter fun e => databaseIdentity lib e.2 = database.1).map Prod.fst
          .ok (roles.foldl (fun d role => d.note filename (lib.sha256 data) revision role)
            { d with files := files })

/-- mirrors backup.py:451-480 -/
def dumpAll (parsed : List (Role × DbParts)) :
    Nat → List (Identity × Role × DbParts) → Dumps → Except Failure Dumps
  | _, [], d => .ok d
  | index, database :: databases, d =>
    match dumpOne lib w parsed index database d with
    | .error e => .error e
    | .ok d => dumpAll parsed (index + 1) databases d

/-- mirrors backup.py:486-498 -/
def archiveAll (store : Store) :
    Nat → List String → Root → List BackupObject → Except Failure (Root × List BackupObject)
  | _, [], files, objects => .ok (files, objects)
  | index, key :: keys, files, objects =>
    match safeObjectKey key with
    | .error e => .error e
    | .ok _ =>
      match store.getBytes index key with
      | none => .error .raised
      | some data =>
        match if w.io (objectName index) then files.write ["objects", objectName index] data else none with
        | none => .error .raised
        | some files =>
          archiveAll store (index + 1) keys files
            (objects ++ [⟨key, asPosix ["objects", objectName index], data.length, lib.sha256 data⟩])

/-- `archive_dir.mkdir()` -/
def makeArchive (files : Root) : Option Root :=
  if w.io "objects" = true ∧ files.node ["objects"] = none then files.mkdirs ["objects"] else none

/-- mirrors backup.py:482-498 -/
def archive (files : Root) : Option Store → Except Failure (Root × List BackupObject)
  | none => .ok (files, [])
  | some store =>
    match makeArchive w files with
    | none => .error .raised
    | some files =>
      match store.listKeys with
      | none => .error .raised
      | some keys => archiveAll lib w store 1 keys files []

/-- mirrors backup.py:441-527, from the empty directory. -/
def stage (service : Service) (backupId : String) : Except Failure Created :=
  match parseAll lib service.databaseUrls.entries with
  | .error e => .error e
  | .ok parsed =>
    match dumpAll lib w parsed 0 (distinct lib parsed).entries ⟨.empty, .empty, .empty, .empty⟩ with
    | .error e => .error e
    | .ok d =>
      match archive lib w d.files service.objectStore with
      | .error e => .error e
      | .ok (files, objects) =>
        if ¬ (w.io ".manifest.json.tmp" = true ∧ w.io "manifest.json" = true) then .error .raised
        else
          let dir : BackupDir := ⟨true, some (manifestOf backupId d objects), files⟩
          match verifyManifest lib dir with
          | .error e => .error e
          | .ok _ => .ok ⟨dir, objects.length, (distinct lib parsed).entries.length⟩

/-- What the caller is told of the exception behind the new directory. -/
def creationError : Failure → BackupError
  | .raised => ⟨"backup_creation_failed", "backup creation failed"⟩
  | .backup e => e

/-- The root left and what the caller gets; `made` tells whether the directory was made. -/
structure Creation where
  root : Backups
  made : Bool
  result : Except Failure Created

/-- mirrors backup.py:423-533 -/
def createBackup (service : Service) (root : Backups) (backupId retentionClass : String) : Creation :=
  if retentionClass ∉ ["daily", "weekly"] then
    ⟨root, false, .error (.backup
      ⟨"backup_retention_class_invalid", "retention class must be daily or weekly"⟩)⟩
  else if service.databaseUrls.entries = [] then
    ⟨root, false, .error (.backup
      ⟨"backup_configuration_missing", "backup database configuration is missing"⟩)⟩
  else if ¬ (w.io backupId = true ∧ root.get backupId = none) then ⟨root, false, .error .raised⟩
  else
    match stage lib w service backupId with
    | .ok created => ⟨root.set backupId created.dir, true, .ok created⟩
    | .error e =>
      ⟨match w.rmtree with
        | none => (root.set backupId ⟨true, none, .empty⟩).erase backupId
        | some left => root.set backupId left, true, .error (.backup (creationError e))⟩

/-! ## The law -/

/-- A creation on a root is all or nothing. -/
structure AllOrNothing (service : Service) (root : Backups) (backupId : String) (c : Creation) : Prop where
  verified : ∀ created, c.result = .ok created → c.root.get backupId = some created.dir ∧
    ∃ manifest, verifyManifest lib created.dir = .ok manifest ∧
      ∀ store, service.objectStore = some store → ∃ keys, store.listKeys = some keys ∧
        List.Forall₂ (fun e item => ∃ data, Archived lib created.dir.files (store.asked e.2) e.1 item data)
          (keys.zipIdx 1) manifest.objects
  nothing : c.made = true → ∀ e, c.result = .error (.backup e) → w.rmtree = none →
    c.root.get backupId = none
  others : ∀ name, name ≠ backupId → c.root.get name = root.get name

/-! ## A backup that is staged -/

variable {lib w} {service : Service} {backupId : String} {created : Created}

/-- Every object listed is in the archive with the bytes the store gave when it was
asked for it; other files stay. -/
theorem archiveAll_done {store : Store} :
    ∀ {keys : List String} {index : Nat} {files files' : Root} {objects objects' : List BackupObject},
      archiveAll lib w store index keys files objects = .ok (files', objects') →
      (∃ items, objects' = objects ++ items ∧
        List.Forall₂ (fun e item => ∃ data, Archived lib files' (store.asked e.2) e.1 item data)
          (keys.zipIdx index) items) ∧
      ∀ p, (∀ i, index ≤ i → p ≠ ["objects", objectName i]) → files'.file? p = files.file? p
  | [], index, files, files', objects, objects', h => by
    cases h
    exact ⟨⟨[], by simp, .nil⟩, fun _ _ => rfl⟩
  | key :: keys, index, files, files', objects, objects', h => by
    unfold archiveAll at h
    cases hk : safeObjectKey key with
    | error e => simp [hk] at h
    | ok path =>
      cases hd : store.getBytes index key with
      | none => simp [hk, hd] at h
      | some data =>
        cases hw : (if w.io (objectName index) then files.write ["objects", objectName index] data else none) with
        | none => simp [hk, hd, hw] at h
        | some written =>
          simp only [hk, hd, hw] at h
          have hwrite : files.write ["objects", objectName index] data = some written := by
            split at hw
            · exact hw
            · cases hw
          obtain ⟨⟨items, hitems, hrest⟩, hframe⟩ := archiveAll_done h
          refine ⟨⟨_ :: items, by rw [hitems, List.append_assoc]; rfl, .cons ⟨data, ?_⟩ hrest⟩,
            fun p hp => ?_⟩
          · -- later objects have other names
            have hbytes : files'.file? ["objects", objectName index] = some data := by
              rw [hframe _ fun i hi he => ?_, FileTree.file_write hwrite, if_pos rfl]
              have := objectName_injective (List.cons_eq_cons.mp (List.cons_eq_cons.mp he).2).1
              omega
            exact ⟨rfl, (safeObjectKey_ok_iff.mp hk).1, hd, safeRelative_archivePath index,
              by rw [parts_archivePath, hbytes], rfl, rfl⟩
          · rw [hframe p fun i hi => hp i (by omega), FileTree.file_write hwrite,
              if_neg (hp index (Nat.le_refl _))]

theorem archive_done_all {files files' : Root} {objects : List BackupObject} {store : Store}
    (h : archive lib w files (some store) = .ok (files', objects)) :
    ∃ keys, store.listKeys = some keys ∧
      List.Forall₂ (fun e item => ∃ data, Archived lib files' (store.asked e.2) e.1 item data)
        (keys.zipIdx 1) objects := by
  unfold archive at h
  cases hm : makeArchive w files with
  | none => simp [hm] at h
  | some made =>
    cases hk : store.listKeys with
    | none => simp [hm, hk] at h
    | some keys =>
      simp only [hm, hk] at h
      obtain ⟨⟨items, hitems, hall⟩, -⟩ := archiveAll_done h
      rw [List.nil_append] at hitems
      exact ⟨keys, rfl, hitems ▸ hall⟩

/-- What `stage` returns was verified last. -/
theorem stage_done (h : stage lib w service backupId = .ok created) :
    ∃ d files objects, created.dir = ⟨true, some (manifestOf backupId d objects), files⟩ ∧
      archive lib w d.files service.objectStore = .ok (files, objects) ∧
      verifyManifest lib created.dir = .ok (manifestOf backupId d objects) := by
  unfold stage at h
  cases hparse : parseAll lib service.databaseUrls.entries with
  | error e => simp [hparse] at h
  | ok parsed =>
    cases hdump : dumpAll lib w parsed 0 (distinct lib parsed).entries ⟨.empty, .empty, .empty, .empty⟩ with
    | error e => simp [hparse, hdump] at h
    | ok d =>
      cases harch : archive lib w d.files service.objectStore with
      | error e => simp [hparse, hdump, harch] at h
      | ok r =>
        obtain ⟨files, objects⟩ := r
        simp only [hparse, hdump, harch] at h
        split at h
        · cases h
        · cases hv : verifyManifest lib ⟨true, some (manifestOf backupId d objects), files⟩ with
          | error e => simp [hv] at h
          | ok m =>
            simp only [hv, Except.ok.injEq] at h
            subst h
            obtain rfl := Option.some.inj ((verify_ok_iff lib).mp hv).2.1
            exact ⟨d, files, objects, rfl, harch, hv⟩

theorem creation_get_other {root : Backups} {name : String} (hname : name ≠ backupId) {dir : BackupDir} :
    (root.set backupId dir).get name = root.get name := Dict.get_set_ne _ _ (Ne.symm hname)

/-- Before the directory is made nothing changes. -/
theorem refused_all_or_nothing (root : Backups) (e : Failure) :
    AllOrNothing lib w service root backupId ⟨root, false, .error e⟩ where
  verified _ h := by cases h
  nothing h := by cases h
  others _ _ := rfl

/-! ## Collaborators that answer the same each time -/

/-- The tool leaves its file, if the directory lets it be written. -/
def writes (path : List String) (data : Bytes) : Confined path where
  val t := (t.write path data).getD t
  property t p hp := by
    show ((t.write path data).getD t).node p = t.node p
    cases hw : t.write path data with
    | none => rfl
    | some t' =>
      have hne : p ≠ path := by
        rintro rfl
        exact hp (List.prefix_refl p)
      rw [Option.getD_some, FileTree.node_write hw, if_neg hne]

/-- The tool leaves no file. -/
def idle (path : List String) : Confined path := ⟨id, fun _ _ _ => rfl⟩

/-- Tools that answer each call alike, on a file system that does what it is asked. -/
def World.plain (tools : CreateTools) : World where
  pgDump _ parts path :=
    match tools.pgDump parts with
    | .error e => (idle path, some e)
    | .ok none => (idle path, none)
    | .ok (some data) => (writes path data, none)
  currentRevision _ := tools.currentRevision
  io _ := true
  rmtree := none

def ObjectStore.plain (store : ObjectStore) : Store := ⟨store.listKeys, fun _ => store.getBytes⟩

def BackupService.plain (service : BackupService) : Service :=
  ⟨service.databaseUrls, service.objectStore.map ObjectStore.plain⟩

variable {tools : CreateTools} {parsed : List (Role × DbParts)}

@[simp] theorem plain_io (name : String) : (World.plain tools).io name = true := rfl

@[simp] theorem plain_listKeys (store : ObjectStore) : store.plain.listKeys = store.listKeys := rfl

@[simp] theorem plain_getBytes (store : ObjectStore) (n : Nat) (key : String) :
    store.plain.getBytes n key = store.getBytes key := rfl

theorem dumpOne_plain {index : Nat} {database : Identity × Role × DbParts} {d d' : Dumps}
    (h : dumpDatabase lib tools parsed index database d = .ok d') :
    dumpOne lib (.plain tools) parsed index database d = .ok d' := by
  unfold dumpDatabase at h
  unfold dumpOne
  simp only [World.plain, not_true_eq_false, if_false]
  cases ht : tools.pgDump database.2.2 with
  | error e => simp [ht] at h
  | ok written =>
    cases hw : writeDump d.files (dumpName index database.2.1) written with
    | none => simp [ht, hw] at h
    | some files =>
      simp only [ht, hw] at h
      cases written with
      | none =>
        obtain rfl := Option.some.inj hw
        exact h
      | some data =>
        have hwrite : d.files.write [dumpName index database.2.1] data = some files := hw
        simp only [writes, hwrite, Option.getD_some]
        exact h

theorem dumpAll_plain : ∀ {databases : List (Identity × Role × DbParts)} {index : Nat} {d d' : Dumps},
    dumpDatabases lib tools parsed index databases d = .ok d' →
      dumpAll lib (.plain tools) parsed index databases d = .ok d'
  | [], _, _, _, h => h
  | database :: databases, index, d, d', h => by
    unfold dumpDatabases at h
    unfold dumpAll
    cases hd : dumpDatabase lib tools parsed index database d with
    | error e => simp [hd] at h
    | ok d₁ =>
      simp only [hd] at h
      rw [dumpOne_plain hd]
      exact dumpAll_plain h

theorem archiveAll_plain {store : ObjectStore} :
    ∀ {keys : List String} {index : Nat} {files : Root} {objects : List BackupObject},
      archiveAll lib (.plain tools) store.plain index keys files objects =
        archiveObjects lib store index keys files objects
  | [], _, _, _ => rfl
  | key :: keys, index, files, objects => by
    unfold archiveAll archiveObjects
    cases hk : safeObjectKey key with
    | error e => rfl
    | ok path =>
      simp only [plain_io, plain_getBytes, if_true]
      cases hd : store.getBytes key with
      | none => rfl
      | some data =>
        cases hw : files.write ["objects", objectName index] data with
        | none => simp only [hw]
        | some written =>
          simp only [hw]
          exact archiveAll_plain

/-- No dump is called as the archive is. -/
theorem dumpName_ne (index : Nat) (role : Role) : dumpName index role ≠ "objects" := by
  unfold dumpName
  split
  · decide
  · cases role <;> decide

theorem dumpDatabase_objects {index : Nat} {database : Identity × Role × DbParts} {d d' : Dumps}
    (h : dumpDatabase lib tools parsed index database d = .ok d') :
    d'.files.node ["objects"] = d.files.node ["objects"] := by
  have hnotes : ∀ (roles : List Role) (filename digest revision : String) (d : Dumps),
      (roles.foldl (fun d role => d.note filename digest revision role) d).files = d.files := by
    intro roles filename digest revision
    induction roles with
    | nil => exact fun _ => rfl
    | cons role roles ih => exact fun d => (ih _).trans rfl
  unfold dumpDatabase at h
  cases ht : tools.pgDump database.2.2 with
  | error e => simp [ht] at h
  | ok written =>
    cases hw : writeDump d.files (dumpName index database.2.1) written with
    | none => simp [ht, hw] at h
    | some files =>
      cases hf : files.file? [dumpName index database.2.1] with
      | none => simp [ht, hw, hf] at h
      | some data =>
        cases hr : tools.currentRevision database.2.2 with
        | error e => simp [ht, hw, hf, hr] at h
        | ok revision =>
          simp only [ht, hw, hf, hr, Except.ok.injEq] at h
          rw [← h, hnotes]
          cases written with
          | none => rw [Option.some.inj hw]
          | some data' =>
            have hne : ["objects"] ≠ [dumpName index database.2.1] := fun he =>
              dumpName_ne index database.2.1 (List.cons.inj he).1.symm
            rw [FileTree.node_write hw, if_neg hne]

theorem dumpDatabases_objects :
    ∀ {databases : List (Identity × Role × DbParts)} {index : Nat} {d d' : Dumps},
      dumpDatabases lib tools parsed index databases d = .ok d' →
        d'.files.node ["objects"] = d.files.node ["objects"]
  | [], _, _, _, h => by
    cases h
    rfl
  | database :: databases, index, d, d', h => by
    unfold dumpDatabases at h
    cases hd : dumpDatabase lib tools parsed index database d with
    | error e => simp [hd] at h
    | ok d₁ =>
      simp only [hd] at h
      rw [dumpDatabases_objects h, dumpDatabase_objects hd]

/-- A backup that collaborators of one answer give is one of those staged. -/
theorem stage_of_createIn {service : BackupService}
    (h : createIn lib tools service backupId = .ok created) :
    stage lib (.plain tools) service.plain backupId = .ok created := by
  obtain ⟨parsed, d, files, objects, hparse, hdump, harch, ⟨m, hv⟩, rfl⟩ := createIn_ok_iff.mp h
  have hfree : d.files.node ["objects"] = none := dumpDatabases_objects hdump
  have harchive : archive lib (.plain tools) d.files service.plain.objectStore = .ok (files, objects) := by
    cases hstore : service.objectStore with
    | none =>
      rw [hstore] at harch
      simpa [BackupService.plain, hstore, archive, archiveStore] using harch
    | some store =>
      rw [hstore] at harch
      unfold archiveStore at harch
      simp only [BackupService.plain, hstore, Option.map_some, archive, makeArchive, plain_io, true_and,
        hfree, if_true, plain_listKeys]
      cases hm : d.files.mkdirs ["objects"] with
      | none => simp [hm] at harch
      | some made =>
        simp only [hm] at harch
        cases hk : store.listKeys with
        | none => simp [hk] at harch
        | some keys =>
          simp only [hk] at harch
          exact archiveAll_plain.trans harch
  have hplain : service.plain.databaseUrls = service.databaseUrls := rfl
  simp only [stage, hplain, hparse, dumpAll_plain hdump, harchive, plain_io, and_self,
    not_true_eq_false, if_false, hv]

/-- **A creation is all or nothing**, whatever the tool, the inspector and the store do. -/
theorem create_all_or_nothing (lib : StdLib) (w : World) (service : Service) (root : Backups)
    (backupId retentionClass : String) :
    AllOrNothing lib w service root backupId (createBackup lib w service root backupId retentionClass) := by
  unfold createBackup
  split
  · exact refused_all_or_nothing root _
  split
  · exact refused_all_or_nothing root _
  split
  · exact refused_all_or_nothing root _
  cases hs : stage lib w service backupId with
  | ok created =>
    refine ⟨fun created' h => ?_, fun _ e h => (by cases h), fun name hname => creation_get_other hname⟩
    obtain rfl := Except.ok.inj h
    obtain ⟨d, files, objects, hdir, harch, hv⟩ := stage_done hs
    refine ⟨Dict.get_set_self _ _ _, _, hv, fun store hstore => ?_⟩
    rw [hstore] at harch
    rw [hdir]
    exact archive_done_all harch
  | error e =>
    refine ⟨fun _ h => (by cases h), fun _ e' _ hremoved => ?_, fun name hname => ?_⟩
    · simp only [hremoved, Dict.get_erase, if_true]
    · cases hr : w.rmtree with
      | none => simp only [Dict.get_erase, if_neg hname, creation_get_other hname]
      | some left => simp only [creation_get_other hname]

end BidScope.L9
