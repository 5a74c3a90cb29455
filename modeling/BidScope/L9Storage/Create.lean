import BidScope.Core.Joins
import BidScope.L9Storage.Restore

/-!
# Creating a backup

`BackupService.create`. The dump tool and the inspector are parameters, and an
object store is what it lists and what it gives for a key.

* `archive_done`: every object listed is in the archive under a name of its own.
* `create_ok_iff`, `createIn_ok_iff`: the steps of a backup that is created.
-/
namespace BidScope.L9
open BidScope.L1

/-- What `create` calls of an object store; `none` where it raises. -/
structure ObjectStore where
  listKeys : Option (List String)
  getBytes : String → Option Bytes

/-- The tool `pg_dump`, with the bytes it leaves in its file if it writes one, and
the inspector. -/
structure CreateTools where
  pgDump : DbParts → Except ToolError (Option Bytes)
  currentRevision : DbParts → Except ToolError String

/-- Tools that succeed, with one dump for all databases. -/
def CreateTools.succeed (dump : Bytes) (revision : String) : CreateTools where
  pgDump _ := .ok (some dump)
  currentRevision _ := .ok revision

/-- The service's own fields; the URLs are given by role, as the command line does. -/
structure BackupService where
  databaseUrls : Dict Role String
  objectStore : Option ObjectStore

structure Created where
  dir : BackupDir
  objectCount : Nat
  databaseCount : Nat

variable (lib : StdLib)

/-! ## Databases -/

/-- mirrors backup.py:441-443 -/
def parseAll : List (Role × String) → Except Failure (List (Role × DbParts))
  | [] => .ok []
  | (role, url) :: urls =>
    match parseDatabaseUrl lib url with
    | .error e => .error e
    | .ok parts =>
      match parseAll urls with
      | .error e => .error e
      | .ok parsed => .ok ((role, parts) :: parsed)

/-- mirrors backup.py:444-446 -/
def distinct (parsed : List (Role × DbParts)) : Dict Identity (Role × DbParts) :=
  parsed.foldl (fun d e => d.setDefault (databaseIdentity lib e.2) e) .empty

structure Dumps where
  files : Root
  databaseDumps : Dict String String
  dumpHashes : Dict String String
  revisions : Dict String String

/-- mirrors backup.py:477-480, for one role -/
def Dumps.note (d : Dumps) (filename digest revision : String) (role : Role) : Dumps where
  files := d.files
  databaseDumps := d.databaseDumps.set role.name filename
  dumpHashes := d.dumpHashes.set role.name digest
  revisions := d.revisions.set role.name revision

/-- mirrors backup.py:452 -/
def dumpName (index : Nat) (firstRole : Role) : String :=
  if index = 0 then "application.dump" else firstRole.name ++ ".dump"

/-- The file as the tool leaves it; it fails where it cannot write. -/
def writeDump (files : Root) (filename : String) : Option Bytes → Option Root
  | none => some files
  | some data => files.write [filename] data

/-- mirrors backup.py:451-480, for one distinct database -/
def dumpDatabase (tools : CreateTools) (parsed : List (Role × DbParts)) (index : Nat)
    (database : Identity × Role × DbParts) (d : Dumps) : Except Failure Dumps :=
  let filename := dumpName index database.2.1
  match tools.pgDump database.2.2 with
  | .error e => .error e.failure
  | .ok written =>
    match writeDump d.files filename written with
    | none => .error ToolError.toolFailed.failure
    | some files =>
      match files.file? [filename] with
      | none => .error (.backup ⟨"backup_dump_missing", "database dump was not created"⟩)
      | some data =>
        match tools.currentRevision database.2.2 with
        | .error e => .error e.failure
        | .ok revision =>
          let roles := (parsed.filter fun e => databaseIdentity lib e.2 = database.1).map Prod.fst
          .ok (roles.foldl (fun d role => d.note filename (lib.sha256 data) revision role)
            { d with files := files })

/-- mirrors backup.py:451-480 -/
def dumpDatabases (tools : CreateTools) (parsed : List (Role × DbParts)) :
    Nat → List (Identity × Role × DbParts) → Dumps → Except Failure Dumps
  | _, [], d => .ok d
  | index, database :: databases, d =>
    match dumpDatabase lib tools parsed index database d with
    | .error e => .error e
    | .ok d => dumpDatabases tools parsed (index + 1) databases d

/-! ## Objects -/

/-- `f"{index:06d}"` -/
def pad6 (index : Nat) : String := .ofList (List.leftpad 6 '0' (Nat.toDigits 10 index))

/-- `f"object-{index:06d}.bin"` -/
def objectName (index : Nat) : String := "object-" ++ pad6 index ++ ".bin"

/-- mirrors backup.py:486-498 -/
def archiveObjects (store : ObjectStore) :
    Nat → List String → Root → List BackupObject → Except Failure (Root × List BackupObject)
  | _, [], files, objects => .ok (files, objects)
  | index, key :: keys, files, objects =>
    match safeObjectKey key with
    | .error e => .error e
    | .ok _ =>
      match store.getBytes key with
      | none => .error .raised
      | some data =>
        match files.write ["objects", objectName index] data with
        | none => .error .raised
        | some files =>
          archiveObjects store (index + 1) keys files
            (objects ++ [⟨key, asPosix ["objects", objectName index], data.length, lib.sha256 data⟩])

/-- mirrors backup.py:482-498 -/
def archiveStore (files : Root) : Option ObjectStore → Except Failure (Root × List BackupObject)
  | none => .ok (files, [])
  | some store =>
    match files.mkdirs ["objects"] with
    | none => .error .raised
    | some files =>
      match store.listKeys with
      | none => .error .raised
      | some keys => archiveObjects lib store 1 keys files []

/-! ## The backup -/

def manifestOf (backupId : String) (d : Dumps) (objects : List BackupObject) : BackupManifest where
  backupId := backupId
  migrationRevisions := d.revisions
  databaseDumps := d.databaseDumps
  databaseDumpSha256 := d.dumpHashes
  objects := objects

/-- mirrors backup.py:441-527; `manifest.json` is read back as it was written. -/
def createIn (tools : CreateTools) (service : BackupService) (backupId : String) :
    Except Failure Created :=
  match parseAll lib service.databaseUrls.entries with
  | .error e => .error e
  | .ok parsed =>
    match dumpDatabases lib tools parsed 0 (distinct lib parsed).entries
        ⟨.empty, .empty, .empty, .empty⟩ with
    | .error e => .error e
    | .ok d =>
      match archiveStore lib d.files service.objectStore with
      | .error e => .error e
      | .ok (files, objects) =>
        let dir : BackupDir := ⟨true, some (manifestOf backupId d objects), files⟩
        match verifyManifest lib dir with
        | .error e => .error e
        | .ok _ => .ok ⟨dir, objects.length, (distinct lib parsed).entries.length⟩

/-- mirrors backup.py:423-533; what was written is removed where it ends in an error. -/
def create (tools : CreateTools) (service : BackupService) (backupId retentionClass : String) :
    Except Failure Created :=
  if retentionClass ∉ ["daily", "weekly"] then
    .error (.backup ⟨"backup_retention_class_invalid", "retention class must be daily or weekly"⟩)
  else if service.databaseUrls.entries = [] then
    .error (.backup
      ⟨"backup_configuration_missing", "backup database configuration is missing"⟩)
  else
    match createIn lib tools service backupId with
    | .error .raised => .error (.backup ⟨"backup_creation_failed", "backup creation failed"⟩)
    | .error (.backup e) => .error (.backup e)
    | .ok created => .ok created

/-! ## The archive -/

variable {lib}

theorem ofDigitChars_pad6 (n : Nat) : Nat.ofDigitChars 10 (pad6 n).toList 0 = n := by
  rw [pad6, String.toList_ofList, List.leftpad, Nat.ofDigitChars_append,
    Nat.ofDigitChars_replicate_zero, Nat.mul_zero, Nat.ofDigitChars_ten_toDigits]

theorem objectName_toList (n : Nat) :
    (objectName n).toList = "object-".toList ++ ((pad6 n).toList ++ ".bin".toList) := by
  rw [objectName, String.toList_append, String.toList_append, List.append_assoc]

theorem objectName_injective {m n : Nat} (h : objectName m = objectName n) : m = n := by
  have hlist := congrArg String.toList h
  rw [objectName_toList, objectName_toList] at hlist
  have hpad := List.append_cancel_right (List.append_cancel_left hlist)
  rw [← ofDigitChars_pad6 m, hpad, ofDigitChars_pad6]

theorem isDigit_of_mem_pad6 {n : Nat} {c : Char} (h : c ∈ (pad6 n).toList) : c.isDigit = true := by
  rw [pad6, String.toList_ofList, List.leftpad, List.mem_append] at h
  rcases h with h | h
  · rw [List.eq_of_mem_replicate h]
    rfl
  · exact Nat.isDigit_of_mem_toDigits (by decide) (by decide) h

/-- No character of an object's name is a slash or a backslash. -/
theorem plain_of_mem_objectName {n : Nat} {c : Char} (h : c ∈ (objectName n).toList) :
    c ≠ '/' ∧ c ≠ '\\' := by
  rw [objectName_toList, List.mem_append, List.mem_append] at h
  rcases h with h | h | h
  · exact Text.forall_of_all (p := fun c => c ≠ '/' ∧ c ≠ '\\') (by decide) c h
  · have hd := isDigit_of_mem_pad6 h
    constructor <;> rintro rfl <;> simp [Char.isDigit] at hd
  · exact Text.forall_of_all (p := fun c => c ≠ '/' ∧ c ≠ '\\') (by decide) c h

theorem objectName_ne {n : Nat} {s : String} (h : ¬ "object-".toList <+: s.toList) : objectName n ≠ s := by
  rintro rfl
  rw [objectName_toList] at h
  exact h (List.prefix_append _ _)

theorem archive_names (n : Nat) : ∀ s ∈ ["objects", objectName n], Name s := by
  intro s hs
  rcases List.mem_pair.mp hs with rfl | rfl
  · exact ⟨by decide, by decide, by decide⟩
  · exact ⟨objectName_ne (by decide), objectName_ne (by decide), fun h => (plain_of_mem_objectName h).1 rfl⟩

theorem parts_archivePath (n : Nat) :
    parts (asPosix ["objects", objectName n]) = ["objects", objectName n] :=
  parts_asPosix (by simp) (archive_names n)

theorem archivePath_toList (n : Nat) :
    (asPosix ["objects", objectName n]).toList = "objects/".toList ++ (objectName n).toList := by
  simp [asPosix, joinWith, Text.join]

theorem safeRelative_archivePath (n : Nat) : SafeRelative (asPosix ["objects", objectName n]) := by
  refine ⟨?_, ?_, ?_⟩
  · rintro (h | h)
    · rw [startsWith_iff, archivePath_toList] at h
      exact absurd h (by simp)
    · rw [hasBackslash, List.contains_iff_mem, archivePath_toList, List.mem_append] at h
      rcases h with h | h
      · exact absurd h (by decide)
      · exact (plain_of_mem_objectName h).2 rfl
  · rw [parts_archivePath]
    simp
  · rw [parts_archivePath]
    intro h
    rcases List.mem_pair.mp h with h | h
    · exact absurd h (by decide)
    · exact objectName_ne (by decide) h.symm

/-- An object of the store in the archive: `item` is its entry in the manifest. -/
structure Archived (lib : StdLib) (files : Root) (store : ObjectStore) (key : String) (item : BackupObject)
    (data : Bytes) : Prop where
  named : item.key = key
  safe : SafeKey key
  stored : store.getBytes key = some data
  path : SafeRelative item.archivePath
  bytes : files.file? (parts item.archivePath) = some data
  size : data.length = item.size
  hash : lib.sha256 data = item.sha256

theorem Archived.verified {dir : BackupDir} {store : ObjectStore} {key : String} {item : BackupObject}
    {data : Bytes} (h : Archived lib dir.files store key item data) : VerifiedObject lib dir item data :=
  ⟨h.path, h.bytes, h.size, h.hash, h.named.symm ▸ h.safe⟩

/-- Every object listed is in the archive, each under its own name; other files stay. -/
theorem archive_done {store : ObjectStore} :
    ∀ {keys : List String} {index : Nat} {files files' : Root} {objects objects' : List BackupObject},
      archiveObjects lib store index keys files objects = .ok (files', objects') →
      (∃ items, objects' = objects ++ items ∧
        List.Forall₂ (fun key item => ∃ data, Archived lib files' store key item data) keys items) ∧
      ∀ p, (∀ i, index ≤ i → p ≠ ["objects", objectName i]) → files'.file? p = files.file? p
  | [], index, files, files', objects, objects', h => by
    cases h
    exact ⟨⟨[], by simp, .nil⟩, fun _ _ => rfl⟩
  | key :: keys, index, files, files', objects, objects', h => by
    unfold archiveObjects at h
    cases hk : safeObjectKey key with
    | error e => simp [hk] at h
    | ok path =>
      cases hd : store.getBytes key with
      | none => simp [hk, hd] at h
      | some data =>
        cases hw : files.write ["objects", objectName index] data with
        | none => simp [hk, hd, hw] at h
        | some written =>
          simp only [hk, hd, hw] at h
          obtain ⟨⟨items, hitems, hrest⟩, hframe⟩ := archive_done h
          refine ⟨⟨_ :: items, by rw [hitems, List.append_assoc]; rfl, .cons ⟨data, ?_⟩ hrest⟩,
            fun p hp => ?_⟩
          · -- later objects have other names
            have hbytes : files'.file? ["objects", objectName index] = some data := by
              rw [hframe _ fun i hi he => ?_, FileTree.file_write hw, if_pos rfl]
              have := objectName_injective (List.cons_eq_cons.mp (List.cons_eq_cons.mp he).2).1
              omega
            exact ⟨rfl, (safeObjectKey_ok_iff.mp hk).1, hd, safeRelative_archivePath index,
              by rw [parts_archivePath, hbytes], rfl, rfl⟩
          · rw [hframe p fun i hi => hp i (by omega), FileTree.file_write hw,
              if_neg (hp index (Nat.le_refl _))]

theorem archive_succeeds {store : ObjectStore} :
    ∀ {keys : List String} {index : Nat} {files : Root} {objects : List BackupObject},
      (∀ key ∈ keys, SafeKey key ∧ (store.getBytes key).isSome) →
      files.node ["objects"] = some .dir → (∀ i, index ≤ i → files.node ["objects", objectName i] = none) →
      ∃ r, archiveObjects lib store index keys files objects = .ok r
  | [], _, files, objects, _, _, _ => ⟨(files, objects), rfl⟩
  | key :: keys, index, files, objects, hkeys, hdir, hfree => by
    obtain ⟨hsafe, hsome⟩ := hkeys key (List.mem_cons_self ..)
    obtain ⟨data, hd⟩ := Option.isSome_iff_exists.mp hsome
    have hwrite : (files.write ["objects", objectName index] data).isSome := by
      rw [FileTree.write_isSome_iff, hfree index (Nat.le_refl _)]
      exact ⟨by simp, by simp, hdir⟩
    obtain ⟨written, hw⟩ := Option.isSome_iff_exists.mp hwrite
    rw [archiveObjects]
    simp only [safeObjectKey_ok_iff.mpr ⟨hsafe, rfl⟩, hd, hw]
    refine archive_succeeds (fun k hk => hkeys k (List.mem_cons_of_mem _ hk)) ?_ fun i hi => ?_
    · rw [FileTree.node_write hw, if_neg (by simp), hdir]
    · rw [FileTree.node_write hw, if_neg ?_, hfree i (by omega)]
      intro he
      have := objectName_injective (List.cons_eq_cons.mp (List.cons_eq_cons.mp he).2).1
      omega

/-! ## A backup that is created -/

variable {tools : CreateTools} {service : BackupService} {backupId retentionClass : String}
  {created : Created}

theorem createIn_ok_iff : createIn lib tools service backupId = .ok created ↔
    ∃ parsed d files objects, parseAll lib service.databaseUrls.entries = .ok parsed ∧
      dumpDatabases lib tools parsed 0 (distinct lib parsed).entries
        ⟨.empty, .empty, .empty, .empty⟩ = .ok d ∧
      archiveStore lib d.files service.objectStore = .ok (files, objects) ∧
      (∃ m, verifyManifest lib ⟨true, some (manifestOf backupId d objects), files⟩ = .ok m) ∧
      created = ⟨⟨true, some (manifestOf backupId d objects), files⟩, objects.length,
        (distinct lib parsed).entries.length⟩ := by
  unfold createIn
  constructor
  · intro h
    cases hparse : parseAll lib service.databaseUrls.entries with
    | error e => simp [hparse] at h
    | ok parsed =>
      cases hdump : dumpDatabases lib tools parsed 0 (distinct lib parsed).entries
          ⟨.empty, .empty, .empty, .empty⟩ with
      | error e => simp [hparse, hdump] at h
      | ok d =>
        cases harch : archiveStore lib d.files service.objectStore with
        | error e => simp [hparse, hdump, harch] at h
        | ok r =>
          obtain ⟨files, objects⟩ := r
          simp only [hparse, hdump, harch] at h
          split at h
          · cases h
          · rename_i m hv
            cases h
            exact ⟨parsed, d, files, objects, rfl, hdump, harch, ⟨m, hv⟩, rfl⟩
  · rintro ⟨parsed, d, files, objects, hparse, hdump, harch, ⟨m, hv⟩, rfl⟩
    simp only [hparse, hdump, harch, hv]

theorem create_ok_iff : create lib tools service backupId retentionClass = .ok created ↔
    retentionClass ∈ ["daily", "weekly"] ∧ service.databaseUrls.entries ≠ [] ∧
      createIn lib tools service backupId = .ok created := by
  unfold create
  by_cases hret : retentionClass ∈ ["daily", "weekly"]
  · by_cases hne : service.databaseUrls.entries = []
    · rw [if_neg (not_not.mpr hret), if_pos hne]
      simp [hne]
    · rw [if_neg (not_not.mpr hret), if_neg hne]
      cases hc : createIn lib tools service backupId with
      | error e => cases e <;> simp
      | ok c => simp [hret, hne]
  · rw [if_pos hret]
    simp only [reduceCtorEq, hret, false_and]

end BidScope.L9
