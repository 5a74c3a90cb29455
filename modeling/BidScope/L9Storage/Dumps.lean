import BidScope.L9Storage.Create

/-!
# Dumps and roles

**Law.** When both roles are configured and the tools succeed, `create` succeeds
and the dump its manifest names for a role is that of the role's database. When a
restore succeeds, each role's target was last restored from the dump the manifest
names for that role.

**Where it fails.** `create` calls the first dump `application.dump` whatever its
role: with the checkpoint's URL first and two databases, the application's dump
overwrites it, and the hash noted for the checkpoint is wrong. `restore` takes
one dump for a target both URLs name, the application's, also when the backup
has another for the checkpoint.

**Results.**
* `dumps_reach_roles_iff`: the first half holds exactly when every object can be
  archived and the application's URL comes first, or both name one database, or
  both dumps are the same; the second exactly when the targets differ or the
  dumps named for both roles are the same.
-/
namespace BidScope.L9
open BidScope.L1

variable {lib : StdLib}

/-! ## Roles -/

def Role.other : Role → Role
  | .application => .checkpoint
  | .checkpoint => .application

theorem Role.eq_or_other (first role : Role) : role = first ∨ role = first.other := by
  cases first <;> cases role <;> simp [Role.other]

theorem Role.other_ne (role : Role) : role.other ≠ role := by cases role <;> decide

theorem Role.name_inj {r r' : Role} : r.name = r'.name ↔ r = r' := by
  cases r <;> cases r' <;> simp [Role.name]

/-- A mapping of both roles, in the order they were given. -/
theorem entries_both {urls : Dict Role String} (h : ∀ role, (urls.get role).isSome) :
    ∃ first u v, urls.get first = some u ∧ urls.get first.other = some v ∧
      urls.entries = [(first, u), (first.other, v)] := by
  have hmem : ∀ role, role ∈ urls.entries.map Prod.fst := fun role => (Dict.mem_keys urls role).mpr (h role)
  have hnodup := urls.distinct
  have hget : ∀ role url, (role, url) ∈ urls.entries → urls.get role = some url := fun role url =>
    (Dict.mem_iff_get urls role url).mp
  cases hentries : urls.entries with
  | nil =>
    have := hmem .application
    simp [hentries] at this
  | cons e es =>
    obtain ⟨first, u⟩ := e
    cases es with
    | nil =>
      have := hmem first.other
      simp [hentries, Role.other_ne] at this
    | cons e es =>
      obtain ⟨second, v⟩ := e
      have hne : second ≠ first := by
        rintro rfl
        rw [hentries] at hnodup
        simp at hnodup
      have hsecond : second = first.other := (Role.eq_or_other first second).resolve_left hne
      subst hsecond
      cases es with
      | nil => exact ⟨first, u, v, hget _ _ (by simp [hentries]), hget _ _ (by simp [hentries]), rfl⟩
      | cons e es =>
        rw [hentries] at hnodup
        rcases Role.eq_or_other first e.1 with he | he <;> simp [he] at hnodup

/-! ## Dumps made -/

/-- A configuration of both roles for which the URLs are valid and the tools succeed. -/
structure Ready (lib : StdLib) (tools : CreateTools) (service : BackupService) (database : Role → DbParts)
    (dumpOf : Identity → Bytes) : Prop where
  url : ∀ role, ∃ url, service.databaseUrls.get role = some url ∧
    parseDatabaseUrl lib url = .ok (database role)
  dump : ∀ role, tools.pgDump (database role) = .ok (some (dumpOf (databaseIdentity lib (database role))))
  revision : ∀ role, ∃ revision, tools.currentRevision (database role) = .ok revision

/-- The dumps with the file noted for each role, and the bytes the file is left with. -/
structure Dumped (lib : StdLib) (expected : Role → Bytes) (d : Dumps) (file : Role → String)
    (left : Role → Bytes) : Prop where
  plain : ∀ role, file role = "application.dump" ∨ file role = "checkpoint.dump"
  named : ∀ role, d.databaseDumps.get role.name = some (file role)
  hash : ∀ role, d.dumpHashes.get role.name = some (lib.sha256 (expected role))
  only : ∀ name, (d.databaseDumps.get name).isSome → ∃ role : Role, name = role.name
  bytes : ∀ role, d.files.file? [file role] = some (left role)
  free : d.files.node ["objects"] = none

theorem dumpDatabase_done (lib : StdLib) {tools : CreateTools} (parsed : List (Role × DbParts)) (index : Nat)
    (identity : Identity) (first : Role) {parts : DbParts} (d : Dumps) {data : Bytes} {revision : String}
    (hdump : tools.pgDump parts = .ok (some data)) (hrev : tools.currentRevision parts = .ok revision)
    (hfree : d.files.node [dumpName index first] ≠ some .dir) :
    ∃ files, d.files.write [dumpName index first] data = some files ∧
      dumpDatabase lib tools parsed index (identity, first, parts) d =
        .ok (((parsed.filter fun e => databaseIdentity lib e.2 = identity).map Prod.fst).foldl
          (fun d role => d.note (dumpName index first) (lib.sha256 data) revision role)
          { d with files := files }) := by
  have hwrite : (d.files.write [dumpName index first] data).isSome := by
    rw [FileTree.write_isSome_iff]
    exact ⟨by simp, hfree, by simp⟩
  obtain ⟨files, hfiles⟩ := Option.isSome_iff_exists.mp hwrite
  refine ⟨files, hfiles, ?_⟩
  have hread : files.file? [dumpName index first] = some data := by
    rw [FileTree.file_write hfiles, if_pos rfl]
  simp only [dumpDatabase, hdump, writeDump, hfiles, hread, hrev]

/-- What both roles' URLs are parsed to, in their order. -/
def bothParsed (database : Role → DbParts) (first : Role) : List (Role × DbParts) :=
  [(first, database first), (first.other, database first.other)]

variable {tools : CreateTools} {service : BackupService} {database : Role → DbParts}
  {dumpOf : Identity → Bytes} {first : Role}

theorem distinct_both (database : Role → DbParts) (first : Role) :
    (distinct lib (bothParsed database first)).entries =
      if databaseIdentity lib (database first) = databaseIdentity lib (database first.other) then
        [(databaseIdentity lib (database first), first, database first)]
      else
        [(databaseIdentity lib (database first), first, database first),
          (databaseIdentity lib (database first.other), first.other, database first.other)] := by
  by_cases h : databaseIdentity lib (database first) = databaseIdentity lib (database first.other)
  · rw [if_pos h]
    simp [distinct, bothParsed, Dict.setDefault, Dict.get, Dict.lookup, Dict.set, Dict.put, Dict.empty, h]
  · rw [if_neg h]
    simp [distinct, bothParsed, Dict.setDefault, Dict.get, Dict.lookup, Dict.set, Dict.put, Dict.empty, h]

/-- The dump of a role's database. -/
def expectedDump (lib : StdLib) (database : Role → DbParts) (dumpOf : Identity → Bytes) (role : Role) :
    Bytes := dumpOf (databaseIdentity lib (database role))

/-- What is noted for both roles, read back. -/
theorem get_both (first : Role) (f g : String) (role : Role) :
    ((Dict.empty.set first.name f).set first.other.name g).get role.name =
      some (if role = first then f else g) := by
  rw [Dict.get_set, Dict.get_set]
  rcases Role.eq_or_other first role with rfl | rfl
  · rw [if_neg (Role.name_inj.not.mpr (Role.other_ne role)), if_pos rfl, if_pos rfl]
  · rw [if_pos rfl, if_neg (Role.other_ne first)]

theorem only_both {first : Role} {f g name : String}
    (h : (((Dict.empty.set first.name f).set first.other.name g).get name).isSome) :
    ∃ role : Role, name = role.name := by
  rw [Dict.get_set, Dict.get_set] at h
  split at h
  · rename_i he
    exact ⟨_, he.symm⟩
  · split at h
    · rename_i he
      exact ⟨_, he.symm⟩
    · cases h

/-- One database for both roles: one dump, noted for both. -/
theorem dumps_shared (hready : Ready lib tools service database dumpOf)
    (hsame : databaseIdentity lib (database first) = databaseIdentity lib (database first.other)) :
    ∃ d, dumpDatabases lib tools (bothParsed database first) 0
        (distinct lib (bothParsed database first)).entries ⟨.empty, .empty, .empty, .empty⟩ = .ok d ∧
      Dumped lib (expectedDump lib database dumpOf) d (fun _ => "application.dump")
        (expectedDump lib database dumpOf) := by
  obtain ⟨revision, hrev⟩ := hready.revision first
  have hfree : (FileTree.empty : Root).node [dumpName 0 first] ≠ some .dir := by
    rw [FileTree.node_empty (by simp)]
    simp
  obtain ⟨files, hfiles, hstep⟩ := dumpDatabase_done lib (bothParsed database first) 0
    (databaseIdentity lib (database first)) first ⟨.empty, .empty, .empty, .empty⟩ (hready.dump first)
    hrev hfree
  rw [distinct_both, if_pos hsame]
  simp only [dumpDatabases, hstep]
  have hexpected : ∀ role, dumpOf (databaseIdentity lib (database first)) =
      expectedDump lib database dumpOf role := fun role => by
    rcases Role.eq_or_other first role with rfl | rfl
    · rfl
    · rw [expectedDump, hsame]
  have hroles : ((bothParsed database first).filter fun e =>
      databaseIdentity lib e.2 = databaseIdentity lib (database first)).map Prod.fst =
      [first, first.other] := by simp [bothParsed, hsame]
  rw [hroles]
  refine ⟨_, rfl, ?_⟩
  simp only [List.foldl_cons, List.foldl_nil, Dumps.note]
  constructor
  · exact fun role => .inl rfl
  · intro role
    rw [get_both, ite_self]
    rfl
  · intro role
    rw [get_both, ite_self, hexpected role]
  · exact fun name h => only_both h
  · intro role
    rw [FileTree.file_write hfiles, hexpected role]
    exact if_pos rfl
  · rw [FileTree.node_write hfiles, if_neg (by simp [dumpName]), FileTree.node_empty (by simp)]

/-- What the first role's file is left with: the second dump may have its name. -/
def leftDump (lib : StdLib) (database : Role → DbParts) (dumpOf : Identity → Bytes) (first : Role) :
    Role → Bytes := fun role =>
  if role = first ∧ first = .checkpoint then expectedDump lib database dumpOf first.other
  else expectedDump lib database dumpOf role

/-- Two databases: two dumps, of which the second overwrites the first where the
checkpoint's comes first. -/
theorem dumps_apart (hready : Ready lib tools service database dumpOf)
    (hne : databaseIdentity lib (database first) ≠ databaseIdentity lib (database first.other)) :
    ∃ d, dumpDatabases lib tools (bothParsed database first) 0
        (distinct lib (bothParsed database first)).entries ⟨.empty, .empty, .empty, .empty⟩ = .ok d ∧
      Dumped lib (expectedDump lib database dumpOf) d
        (fun role => if role = first then dumpName 0 first else dumpName 1 first.other)
        (leftDump lib database dumpOf first) := by
  obtain ⟨revision, hrev⟩ := hready.revision first
  obtain ⟨revision', hrev'⟩ := hready.revision first.other
  have hfree : (FileTree.empty : Root).node [dumpName 0 first] ≠ some .dir := by
    rw [FileTree.node_empty (by simp)]
    simp
  obtain ⟨files, hfiles, hstep⟩ := dumpDatabase_done lib (bothParsed database first) 0
    (databaseIdentity lib (database first)) first ⟨.empty, .empty, .empty, .empty⟩ (hready.dump first)
    hrev hfree
  have hroles : ((bothParsed database first).filter fun e =>
      databaseIdentity lib e.2 = databaseIdentity lib (database first)).map Prod.fst = [first] := by
    simp [bothParsed, Ne.symm hne]
  have hroles' : ((bothParsed database first).filter fun e =>
      databaseIdentity lib e.2 = databaseIdentity lib (database first.other)).map Prod.fst =
      [first.other] := by simp [bothParsed, hne]
  rw [hroles] at hstep
  simp only [List.foldl_cons, List.foldl_nil, Dumps.note] at hstep
  have hfree' : files.node [dumpName 1 first.other] ≠ some .dir := by
    rw [FileTree.node_write hfiles]
    split
    · simp
    · rw [FileTree.node_empty (by simp)]
      simp
  obtain ⟨files', hfiles', hstep'⟩ := dumpDatabase_done lib (bothParsed database first) 1
    (databaseIdentity lib (database first.other)) first.other
    ⟨files, Dict.empty.set first.name (dumpName 0 first),
      Dict.empty.set first.name (lib.sha256 (dumpOf (databaseIdentity lib (database first)))),
      Dict.empty.set first.name revision⟩ (hready.dump first.other) hrev' hfree'
  rw [hroles'] at hstep'
  simp only [List.foldl_cons, List.foldl_nil, Dumps.note] at hstep'
  rw [distinct_both, if_neg hne]
  simp only [dumpDatabases, hstep, hstep']
  refine ⟨_, rfl, ?_⟩
  constructor
  · intro role
    rcases Role.eq_or_other first role with rfl | rfl
    · exact .inl (by simp [dumpName])
    · cases first <;> simp [dumpName, Role.other, Role.name]
  · intro role
    rw [get_both]
  · intro role
    rw [get_both]
    rcases Role.eq_or_other first role with rfl | rfl
    · rw [if_pos rfl]
      rfl
    · rw [if_neg (Role.other_ne first)]
      rfl
  · exact fun name h => only_both h
  · intro role
    rw [FileTree.file_write hfiles', FileTree.file_write hfiles]
    cases first <;> cases role <;> simp [leftDump, expectedDump, dumpName, Role.other, Role.name]
  · rw [FileTree.node_write hfiles', FileTree.node_write hfiles, FileTree.node_empty (by simp)]
    cases first <;> simp [dumpName, Role.other, Role.name]

/-! ## The archive next to the dumps -/

/-- Every object the store lists has a safe key and can be read. -/
def Exportable (service : BackupService) : Prop :=
  ∀ store, service.objectStore = some store →
    ∃ keys, store.listKeys = some keys ∧ ∀ key ∈ keys, SafeKey key ∧ (store.getBytes key).isSome

theorem mkdirs_objects {files : Root} (hfree : files.node ["objects"] = none) :
    ∃ made, files.mkdirs ["objects"] = some made ∧ made.node ["objects"] = some .dir ∧
      ∀ s, made.node ["objects", s] = none := by
  have hmk : (files.mkdirs ["objects"]).isSome := by
    rw [FileTree.mkdirs_isSome_iff]
    intro q hq
    by_cases hq' : q = ["objects"]
    · rw [hq']
      exact FileTree.file_of_none hfree
    · have hnil : q = [] := List.prefix_nil.mp
        ((FileTree.isPrefix_dropLast_iff (List.cons_ne_nil _ _)).mpr ⟨hq, hq'⟩)
      rw [hnil, FileTree.file_nil]
  obtain ⟨made, hmade⟩ := Option.isSome_iff_exists.mp hmk
  refine ⟨made, hmade, ?_, fun s => ?_⟩
  · rw [FileTree.node_mkdirs hmade, if_pos (List.prefix_refl _)]
  · rw [FileTree.node_mkdirs hmade, if_neg (by simp)]
    by_contra hne
    have hdir : files.node ["objects"] = some .dir := FileTree.dir_of_below [s] (by simp) hne
    rw [hfree] at hdir
    cases hdir

theorem archiveStore_ok_iff {files : Root} (hfree : files.node ["objects"] = none) :
    (∃ r, archiveStore lib files service.objectStore = .ok r) ↔ Exportable service := by
  unfold Exportable
  cases hstore : service.objectStore with
  | none => simp [archiveStore]
  | some store =>
    obtain ⟨made, hmade, hdir, hnone⟩ := mkdirs_objects hfree
    simp only [archiveStore, hmade, Option.some.injEq, forall_eq']
    cases hkeys : store.listKeys with
    | none => simp
    | some keys =>
      simp only [Option.some.injEq, exists_eq_left']
      constructor
      · rintro ⟨⟨files', objects⟩, h⟩ key hkey
        obtain ⟨⟨items, -, hall⟩, -⟩ := archive_done h
        obtain ⟨item, -, data, ha⟩ := Joins.forall₂_left hall hkey
        exact ⟨ha.safe, by simp [ha.stored]⟩
      · exact fun h => archive_succeeds h hdir fun i _ => hnone _

/-- The objects archived can be verified, and the dumps stay. -/
theorem archiveStore_done {files files' : Root} {objects : List BackupObject} (manifest : Option BackupManifest)
    (hfree : files.node ["objects"] = none)
    (h : archiveStore lib files service.objectStore = .ok (files', objects)) :
    (∀ item ∈ objects, ∃ data, VerifiedObject lib ⟨true, manifest, files'⟩ item data) ∧
      ∀ name, files'.file? [name] = files.file? [name] := by
  cases hstore : service.objectStore with
  | none =>
    rw [hstore, archiveStore] at h
    cases h
    exact ⟨by simp, fun _ => rfl⟩
  | some store =>
    obtain ⟨made, hmade, -, -⟩ := mkdirs_objects hfree
    rw [hstore] at h
    simp only [archiveStore, hmade] at h
    cases hkeys : store.listKeys with
    | none => simp [hkeys] at h
    | some keys =>
      simp only [hkeys] at h
      obtain ⟨⟨items, hitems, hall⟩, hframe⟩ := archive_done h
      rw [List.nil_append] at hitems
      subst hitems
      constructor
      · intro item hitem
        obtain ⟨key, -, data, ha⟩ := Joins.forall₂_left hall.flip hitem
        exact ⟨data, Archived.verified ha⟩
      · intro name
        rw [hframe _ (by simp), FileTree.file_mkdirs hmade]

/-! ## The backup -/

/-- The dump named for each role is that of the role's database. -/
def DumpsNamed (expected : Role → Bytes) (created : Created) : Prop :=
  ∀ role : Role, ∃ manifest name, created.dir.manifest = some manifest ∧
    manifest.databaseDumps.get role.name = some name ∧ created.dir.bytes name = some (expected role)

variable {expected left : Role → Bytes} {file : Role → String} {d : Dumps}

theorem Dumped.parts (h : Dumped lib expected d file left) (role : Role) : parts (file role) = [file role] := by
  rcases h.plain role with he | he <;> rw [he] <;> decide +kernel

theorem Dumped.safe (h : Dumped lib expected d file left) (role : Role) : SafeRelative (file role) := by
  rcases h.plain role with he | he <;> rw [he] <;> decide +kernel

/-- Dumps whose files hold what was expected are verified. -/
theorem Dumped.verify (h : Dumped lib expected d file left) (hown : ∀ role, left role = expected role)
    {files : Root} {objects : List BackupObject} {backupId : String}
    (hframe : ∀ name, files.file? [name] = d.files.file? [name])
    (hobjects : ∀ item ∈ objects, ∃ data,
      VerifiedObject lib ⟨true, some (manifestOf backupId d objects), files⟩ item data) :
    verifyManifest lib ⟨true, some (manifestOf backupId d objects), files⟩ =
      .ok (manifestOf backupId d objects) := by
  refine (verify_ok_iff lib).mpr ⟨rfl, rfl, fun role name hname => ?_, hobjects⟩
  obtain ⟨role, rfl⟩ := h.only role (Option.isSome_of_mem hname)
  have hfile := hname.symm.trans (h.named role)
  rw [Option.some.injEq] at hfile
  subst hfile
  refine ⟨left role, h.safe role, ?_, ?_⟩
  · rw [BackupDir.bytes, h.parts role, hframe, h.bytes]
  · rw [hown role]
    exact h.hash role

/-- With the dumps made, what is left is the archive and the files being as noted. -/
theorem create_iff {parsed : List (Role × DbParts)} {backupId retentionClass : String}
    (hne : service.databaseUrls.entries ≠ [])
    (hparse : parseAll lib service.databaseUrls.entries = .ok parsed)
    (hdump : dumpDatabases lib tools parsed 0 (distinct lib parsed).entries
      ⟨.empty, .empty, .empty, .empty⟩ = .ok d) (h : Dumped lib expected d file left) :
    (∃ created, create lib tools service backupId retentionClass = .ok created ∧
        DumpsNamed expected created) ↔
      retentionClass ∈ ["daily", "weekly"] ∧ Exportable service ∧ ∀ role, left role = expected role := by
  -- the manifest names each role's file, which is as the dumps left it
  have hnamed : ∀ (files : Root) (objects : List BackupObject) (role : Role),
      (∀ name, files.file? [name] = d.files.file? [name]) →
      (manifestOf backupId d objects).databaseDumps.get role.name = some (file role) ∧
        files.file? (L9.parts (file role)) = some (left role) := fun files objects role hframe =>
    ⟨h.named role, by rw [h.parts role, hframe, h.bytes]⟩
  constructor
  · rintro ⟨created, hcreate, hroles⟩
    obtain ⟨hret, -, hin⟩ := create_ok_iff.mp hcreate
    obtain ⟨parsed', d', files, objects, hparse', hdump', harch, -, rfl⟩ := createIn_ok_iff.mp hin
    rw [hparse, Except.ok.injEq] at hparse'
    subst hparse'
    rw [hdump, Except.ok.injEq] at hdump'
    subst hdump'
    obtain ⟨-, hframe⟩ := archiveStore_done none h.free harch
    refine ⟨hret, (archiveStore_ok_iff h.free).mp ⟨_, harch⟩, fun role => ?_⟩
    obtain ⟨hname, hfile⟩ := hnamed files objects role hframe
    obtain ⟨manifest, name, hm, hname', hbytes⟩ := hroles role
    cases hm
    rw [hname, Option.some.injEq] at hname'
    subst hname'
    exact Option.some.inj (hfile.symm.trans hbytes)
  · rintro ⟨hret, hexport, hown⟩
    obtain ⟨⟨files, objects⟩, harch⟩ := (archiveStore_ok_iff h.free).mpr hexport
    obtain ⟨hobjects, hframe⟩ := archiveStore_done (some (manifestOf backupId d objects)) h.free harch
    have hverify := h.verify hown hframe hobjects
    refine ⟨_, create_ok_iff.mpr ⟨hret, hne, createIn_ok_iff.mpr
      ⟨parsed, d, files, objects, hparse, hdump, harch, ⟨_, hverify⟩, rfl⟩⟩, fun role => ?_⟩
    obtain ⟨hname, hfile⟩ := hnamed files objects role hframe
    exact ⟨_, _, rfl, hname, by rw [← hown role]; exact hfile⟩

/-- The first dump's file keeps its dump: it is the application's, or the only one,
or the second is the same. -/
def FirstDumpKept (lib : StdLib) (service : BackupService) (database : Role → DbParts)
    (dumpOf : Identity → Bytes) : Prop :=
  service.databaseUrls.keys.head? = some .application ∨
    databaseIdentity lib (database .application) = databaseIdentity lib (database .checkpoint) ∨
    expectedDump lib database dumpOf .application = expectedDump lib database dumpOf .checkpoint

theorem parseAll_both (hready : Ready lib tools service database dumpOf) :
    ∃ first u v, service.databaseUrls.entries = [(first, u), (first.other, v)] ∧
      parseAll lib service.databaseUrls.entries = .ok (bothParsed database first) := by
  obtain ⟨first, u, v, hu, hv, hentries⟩ := entries_both fun role => by
    obtain ⟨url, hurl, -⟩ := hready.url role
    rw [hurl]
    rfl
  obtain ⟨u', hu', hparse⟩ := hready.url first
  obtain ⟨v', hv', hparse'⟩ := hready.url first.other
  rw [hu, Option.some.injEq] at hu'
  rw [hv, Option.some.injEq] at hv'
  subst hu' hv'
  refine ⟨first, u, v, hentries, ?_⟩
  rw [hentries]
  simp only [parseAll, hparse, hparse', bothParsed]

theorem leftDump_eq_iff : (∀ role, leftDump lib database dumpOf first role =
      expectedDump lib database dumpOf role) ↔
    first = .application ∨
      expectedDump lib database dumpOf .application = expectedDump lib database dumpOf .checkpoint := by
  cases first with
  | application => simp [leftDump]
  | checkpoint =>
    constructor
    · intro h
      have := h .checkpoint
      simp only [leftDump, Role.other, and_self, if_true] at this
      exact .inr this
    · rintro (h | h) role
      · cases h
      · cases role with
        | application => simp [leftDump]
        | checkpoint => simpa [leftDump, Role.other] using h

/-- When `create` leaves each role with its own dump. -/
theorem own_dumps_iff (hready : Ready lib tools service database dumpOf)
    {backupId retentionClass : String} :
    (∃ created, create lib tools service backupId retentionClass = .ok created ∧
        DumpsNamed (expectedDump lib database dumpOf) created) ↔
      retentionClass ∈ ["daily", "weekly"] ∧ Exportable service ∧
        FirstDumpKept lib service database dumpOf := by
  obtain ⟨first, u, v, hentries, hparse⟩ := parseAll_both hready
  have hne : service.databaseUrls.entries ≠ [] := by simp [hentries]
  have hhead : service.databaseUrls.keys.head? = some first := by simp [Dict.keys, hentries]
  rw [FirstDumpKept, hhead, Option.some.injEq]
  have hids : databaseIdentity lib (database .application) = databaseIdentity lib (database .checkpoint) ↔
      databaseIdentity lib (database first) = databaseIdentity lib (database first.other) := by
    cases first with
    | application => rfl
    | checkpoint => exact eq_comm
  by_cases hsame : databaseIdentity lib (database first) = databaseIdentity lib (database first.other)
  · obtain ⟨d, hdump, hd⟩ := dumps_shared hready hsame
    rw [create_iff hne hparse hdump hd]
    simp [hids.mpr hsame]
  · obtain ⟨d, hdump, hd⟩ := dumps_apart hready hsame
    rw [create_iff hne hparse hdump hd, leftDump_eq_iff]
    simp [hids.not.mpr hsame]

/-! ## The dumps restored -/

def Checked.target (c : Checked) : Role → DbParts
  | .application => c.targetApp
  | .checkpoint => c.targetCheckpoint

/-- The last command on each role's target read the dump named for the role. -/
def RestoredAsNamed (lib : StdLib) (dir : BackupDir) (c : Checked) (commands : List Command) : Prop :=
  ∀ role : Role, ∃ name command, c.manifest.databaseDumps.get role.name = some name ∧
    Ledger.last (fun command => databaseIdentity lib command.target) commands
      (databaseIdentity lib (c.target role)) = some command ∧
    dir.files.file? command.dumpPath = dir.bytes name

/-- Dumps are named for both roles, with the same bytes. -/
def OneDump (dir : BackupDir) (manifest : BackupManifest) : Prop :=
  ∃ a c, manifest.databaseDumps.get "application" = some a ∧
    manifest.databaseDumps.get "checkpoint" = some c ∧ dir.bytes a = dir.bytes c

variable {rtools : RestoreTools} {req : RestoreRequest} {checked : Checked} {commands : List Command}
  {tree : Root}

theorem commands_of_restored (h : Restored lib rtools req checked commands tree) :
    (∀ t ∈ (checked.targets lib).entries, (checked.manifest.databaseDumps.get t.2.2.name).isSome) ∧
      commands = (checked.targets lib).entries.filterMap (commandOf checked.manifest) := by
  have := restoreDatabases_done (safeDumps_of_preflight h.preflight)
    (by simpa using targets_nodup checked) h.databases
  simpa using this

/-- When a restore that succeeds has used each role's own dump. -/
theorem restored_as_named_iff (h : Restored lib rtools req checked commands tree) :
    RestoredAsNamed lib req.backupDir checked commands ↔
      databaseIdentity lib checked.targetApp ≠ databaseIdentity lib checked.targetCheckpoint ∨
        OneDump req.backupDir checked.manifest := by
  obtain ⟨hnamed, rfl⟩ := commands_of_restored h
  have happ : (checked.manifest.databaseDumps.get "application").isSome := by
    refine hnamed (databaseIdentity lib checked.targetApp, checked.targetApp, .application) ?_
    rw [targets_entries]
    split <;> simp
  obtain ⟨a, ha⟩ := Option.isSome_iff_exists.mp happ
  by_cases hsame : databaseIdentity lib checked.targetApp = databaseIdentity lib checked.targetCheckpoint
  · have hcommands : (checked.targets lib).entries.filterMap (commandOf checked.manifest) =
        [⟨checked.targetApp, parts a⟩] := by
      rw [targets_entries, if_pos hsame]
      simp [commandOf, Role.name, ha]
    have hlast : ∀ role, Ledger.last (fun command : Command => databaseIdentity lib command.target)
        [⟨checked.targetApp, parts a⟩] (databaseIdentity lib (checked.target role)) =
        some ⟨checked.targetApp, parts a⟩ := fun role => by
      cases role <;> simp [Ledger.last, Checked.target, hsame]
    rw [hcommands]
    constructor
    · intro hlaw
      obtain ⟨c, command, hc, hcommand, hbytes⟩ := hlaw .checkpoint
      rw [hlast, Option.some.injEq] at hcommand
      subst hcommand
      exact .inr ⟨a, c, ha, hc, hbytes⟩
    · rintro (hne | ⟨a', c, ha', hc, hbytes⟩) role
      · exact absurd hsame hne
      · rw [ha, Option.some.injEq] at ha'
        subst ha'
        cases role with
        | application => exact ⟨a, _, ha, hlast _, rfl⟩
        | checkpoint => exact ⟨c, _, hc, hlast _, hbytes⟩
  · have hck : (checked.manifest.databaseDumps.get "checkpoint").isSome := by
      refine hnamed (databaseIdentity lib checked.targetCheckpoint, checked.targetCheckpoint,
        .checkpoint) ?_
      rw [targets_entries, if_neg hsame]
      simp
    obtain ⟨c, hc⟩ := Option.isSome_iff_exists.mp hck
    refine iff_of_true (fun role => ?_) (.inl hsame)
    have hcommands : (checked.targets lib).entries.filterMap (commandOf checked.manifest) =
        [⟨checked.targetApp, parts a⟩, ⟨checked.targetCheckpoint, parts c⟩] := by
      rw [targets_entries, if_neg hsame]
      simp [commandOf, Role.name, ha, hc]
    rw [hcommands]
    cases role with
    | application =>
      refine ⟨a, ⟨checked.targetApp, parts a⟩, ha, ?_, rfl⟩
      simp [Ledger.last, Checked.target, Ne.symm hsame]
    | checkpoint =>
      refine ⟨c, ⟨checked.targetCheckpoint, parts c⟩, hc, ?_, rfl⟩
      simp [Ledger.last, Checked.target, hsame]

/-! ## The law -/

/-- A backup is created in which each role has the dump of its database exactly when
the objects can be archived and the first dump is kept; a restore that succeeds has
used each role's own dump exactly when the targets differ or there is one dump. -/
theorem dumps_reach_roles_iff (lib : StdLib) (tools : CreateTools) (service : BackupService)
    (database : Role → DbParts) (dumpOf : Identity → Bytes) (backupId retentionClass : String)
    (rtools : RestoreTools) (req : RestoreRequest) (checked : Checked) (summary : Summary)
    (hready : Ready lib tools service database dumpOf) (hchecked : preflight lib req = .ok checked)
    (hrestored : (restore lib rtools req).2 = .ok summary) :
    ((∃ created, create lib tools service backupId retentionClass = .ok created ∧
        DumpsNamed (expectedDump lib database dumpOf) created) ↔
      retentionClass ∈ ["daily", "weekly"] ∧ Exportable service ∧
        FirstDumpKept lib service database dumpOf) ∧
    (RestoredAsNamed lib req.backupDir checked (restore lib rtools req).1.commands ↔
      databaseIdentity lib checked.targetApp ≠ databaseIdentity lib checked.targetCheckpoint ∨
        OneDump req.backupDir checked.manifest) := by
  obtain ⟨checked', commands, tree, hr⟩ := restore_done hrestored
  have hsame : checked' = checked := by
    have := hr.preflight.symm.trans hchecked
    simpa using this
  subst hsame
  refine ⟨own_dumps_iff hready, ?_⟩
  rw [hr.effects]
  exact restored_as_named_iff hr

/-! ## Runs -/

def sampleUrl : Role → String
  | .application => "postgresql://u:p@a/d"
  | .checkpoint => "postgresql://u:p@b/d"

def sampleDatabase : Role → DbParts
  | .application => ⟨"a", "5432", "u", "p", "d"⟩
  | .checkpoint => ⟨"b", "5432", "u", "p", "d"⟩

/-- Two databases, the URL of `first` given first. -/
def twoDatabases (first : Role) : BackupService where
  databaseUrls := .ofList [(first, sampleUrl first), (first.other, sampleUrl first.other)]
  objectStore := none

def sampleDump (identity : Identity) : Bytes := if identity.1 = "a" then [] else [0]

def sampleDumps : CreateTools where
  pgDump parts := .ok (some (sampleDump (databaseIdentity .sample parts)))
  currentRevision _ := .ok "r"

theorem ready_two (first : Role) :
    Ready .sample sampleDumps (twoDatabases first) sampleDatabase sampleDump where
  url role := ⟨sampleUrl role, by cases first <;> cases role <;> decide +kernel,
    by cases role <;> decide +kernel⟩
  dump _ := rfl
  revision _ := ⟨"r", rfl⟩

/-- A backup of two databases. -/
def twoDumps : BackupManifest where
  backupId := "b"
  migrationRevisions := .ofList [("application", "r"), ("checkpoint", "r")]
  databaseDumps := .ofList [("application", "application.dump"), ("checkpoint", "checkpoint.dump")]
  databaseDumpSha256 :=
    .ofList [("application", StdLib.sample.sha256 []), ("checkpoint", StdLib.sample.sha256 [0])]
  objects := []

/-- Its restore, with both target URLs naming one database. -/
def restoreIntoOne : RestoreRequest where
  backupDir := ⟨true, some twoDumps,
    (FileTree.empty.putAll [(["application.dump"], []), (["checkpoint.dump"], [0])]).getD .empty⟩
  targetDatabaseUrl := "postgresql://u:p@a/d"
  targetCheckpointDatabaseUrl := "postgresql://u:p@a/d"
  targetObjectRoot := .missing
  confirmed := true

/-- The restore is made, and the one dump is not the other. -/
theorem restoreIntoOne_runs :
    preflight .sample restoreIntoOne =
        .ok ⟨twoDumps, sampleDatabase .application, sampleDatabase .application⟩ ∧
      (restore .sample (.succeed "r") restoreIntoOne).2.toOption.isSome = true ∧
      restoreIntoOne.backupDir.bytes "application.dump" ≠
        restoreIntoOne.backupDir.bytes "checkpoint.dump" := by
  decide +kernel

theorem restoreIntoOne_checked : preflight .sample restoreIntoOne =
    .ok ⟨twoDumps, sampleDatabase .application, sampleDatabase .application⟩ :=
  restoreIntoOne_runs.1

theorem restoreIntoOne_done :
    ∃ summary, (restore .sample (.succeed "r") restoreIntoOne).2 = .ok summary := by
  have hsome := restoreIntoOne_runs.2.1
  cases hr : (restore .sample (.succeed "r") restoreIntoOne).2 with
  | error e =>
    rw [hr] at hsome
    cases hsome
  | ok summary => exact ⟨summary, rfl⟩

theorem not_oneDump : ¬ OneDump restoreIntoOne.backupDir twoDumps := by
  rintro ⟨a, c, ha, hc, hbytes⟩
  have ha' : twoDumps.databaseDumps.get "application" = some "application.dump" := by decide
  have hc' : twoDumps.databaseDumps.get "checkpoint" = some "checkpoint.dump" := by decide
  rw [ha, Option.some.injEq] at ha'
  rw [hc, Option.some.injEq] at hc'
  subst ha' hc'
  exact restoreIntoOne_runs.2.2 hbytes

theorem dumps_reach_roles_two : ∃ summary,
    (restore .sample (.succeed "r") restoreIntoOne).2 = .ok summary ∧
    ((∃ created, create .sample sampleDumps (twoDatabases .application) "b" "daily" = .ok created ∧
        DumpsNamed (expectedDump .sample sampleDatabase sampleDump) created) ↔
      "daily" ∈ ["daily", "weekly"] ∧ Exportable (twoDatabases .application) ∧
        FirstDumpKept .sample (twoDatabases .application) sampleDatabase sampleDump) ∧
    (RestoredAsNamed .sample restoreIntoOne.backupDir
        ⟨twoDumps, sampleDatabase .application, sampleDatabase .application⟩
        (restore .sample (.succeed "r") restoreIntoOne).1.commands ↔
      databaseIdentity .sample (sampleDatabase .application) ≠
          databaseIdentity .sample (sampleDatabase .application) ∨
        OneDump restoreIntoOne.backupDir twoDumps) := by
  obtain ⟨summary, hdone⟩ := restoreIntoOne_done
  exact ⟨summary, hdone, dumps_reach_roles_iff .sample sampleDumps (twoDatabases .application)
    sampleDatabase sampleDump "b" "daily" (.succeed "r") restoreIntoOne _ summary (ready_two _)
    restoreIntoOne_checked hdone⟩

/-- With the checkpoint's URL first no backup is created; and two dumps restored into one
database leave it without the checkpoint's. -/
theorem dumps_miss_roles :
    (Ready .sample sampleDumps (twoDatabases .checkpoint) sampleDatabase sampleDump ∧
      ¬ ∃ created, create .sample sampleDumps (twoDatabases .checkpoint) "b" "daily" = .ok created ∧
        DumpsNamed (expectedDump .sample sampleDatabase sampleDump) created) ∧
    (∃ summary, (restore .sample (.succeed "r") restoreIntoOne).2 = .ok summary) ∧
      ¬ RestoredAsNamed .sample restoreIntoOne.backupDir
        ⟨twoDumps, sampleDatabase .application, sampleDatabase .application⟩
        (restore .sample (.succeed "r") restoreIntoOne).1.commands := by
  obtain ⟨summary, hdone⟩ := restoreIntoOne_done
  refine ⟨⟨ready_two _, ?_⟩, ⟨summary, hdone⟩, ?_⟩
  · rw [own_dumps_iff (ready_two .checkpoint)]
    rintro ⟨-, -, h | h | h⟩ <;> revert h <;> decide +kernel
  · obtain ⟨checked, commands, tree, hr⟩ := restore_done hdone
    have hchecked := hr.preflight.symm.trans restoreIntoOne_checked
    rw [Except.ok.injEq] at hchecked
    subst hchecked
    rw [hr.effects, restored_as_named_iff hr]
    rintro (h | h)
    · exact h rfl
    · exact not_oneDump h

end BidScope.L9
