import BidScope.L9Storage.Backup

/-!
# Restoring a backup

`BackupService.restore`. The inspector and the command runner are parameters;
what a restore does outside is recorded: the restore commands in the order they
were run, and the tree of the target object root.

Each tool is asked at most once about a database in one restore, so what it
answers is a function of the database.

* `targets_entries`: one target when both URLs name one database, else two.
* `restoreDatabases_done`, `restoreDatabases_refused`: the commands of a run
  that ends well, and where a run that finds a dump missing stopped.
* `restoreObjects_done_iff`, `restoreObjects_escapes_iff`: verified objects are
  files put one after another.
* `restore_done`: the steps of a restore that succeeds.
-/
namespace BidScope.L9
open BidScope.L1

/-! ## What a restore is given -/

inductive Role where
  | application | checkpoint
  deriving DecidableEq, Repr

def Role.name : Role → String
  | .application => "application"
  | .checkpoint => "checkpoint"

/-- The target object root: not there, a file, or a directory. -/
inductive Target where
  | missing
  | file
  | dir (tree : Root)

structure RestoreRequest where
  backupDir : BackupDir
  targetDatabaseUrl : String
  targetCheckpointDatabaseUrl : String
  targetObjectRoot : Target
  confirmed : Bool

/-- mirrors backup.py:55-104 and the tool `pg_restore` -/
structure RestoreTools where
  isEmpty : DbParts → Except ToolError Bool
  pgRestore : DbParts → Except ToolError Unit
  currentRevision : DbParts → Except ToolError String

/-- Tools that succeed. -/
def RestoreTools.succeed (revision : String) : RestoreTools where
  isEmpty _ := .ok true
  pgRestore _ := .ok ()
  currentRevision _ := .ok revision

/-- A `pg_restore` that was run: into which database, from which file of the backup. -/
structure Command where
  target : DbParts
  dumpPath : List String
  deriving DecidableEq, Repr

structure Effects where
  commands : List Command
  objectRoot : Target

structure Summary where
  backupId : String
  objectCount : Nat
  databaseCount : Nat
  migrationRevisions : Dict String String
  deriving DecidableEq

variable (lib : StdLib)

/-! ## Before anything is written -/

structure Checked where
  manifest : BackupManifest
  targetApp : DbParts
  targetCheckpoint : DbParts
  deriving DecidableEq

/-- mirrors backup.py:272-276: `target_root.exists() and any(target_root.iterdir())`;
a file cannot be listed. -/
def checkRoot : Target → Except Failure Unit
  | .missing => .ok ()
  | .file => .error .raised
  | .dir tree =>
    if tree.entries.entries = [] then .ok ()
    else .error (.backup ⟨"restore_target_object_root_not_empty", "target object root must be empty"⟩)

/-- mirrors backup.py:266-276 -/
def preflight (req : RestoreRequest) : Except Failure Checked :=
  if ¬ req.confirmed then
    .error (.backup ⟨"restore_confirmation_required", "restore requires --confirm"⟩)
  else
    match verifyManifest lib req.backupDir with
    | .error e => .error e
    | .ok manifest =>
      match parseDatabaseUrl lib req.targetDatabaseUrl with
      | .error e => .error e
      | .ok app =>
        match parseDatabaseUrl lib req.targetCheckpointDatabaseUrl with
        | .error e => .error e
        | .ok checkpoint =>
          match checkRoot req.targetObjectRoot with
          | .error e => .error e
          | .ok () => .ok ⟨manifest, app, checkpoint⟩

/-- mirrors backup.py:278-281 -/
def Checked.targets (c : Checked) : Dict Identity (DbParts × Role) :=
  (Dict.empty.setDefault (databaseIdentity lib c.targetApp) (c.targetApp, .application)).setDefault
    (databaseIdentity lib c.targetCheckpoint) (c.targetCheckpoint, .checkpoint)

/-- mirrors backup.py:282-286, for one target -/
def checkEmpty (tools : RestoreTools) (target : Identity × DbParts × Role) : Except Failure Unit :=
  match tools.isEmpty target.2.1 with
  | .error e => .error e.failure
  | .ok true => .ok ()
  | .ok false =>
    .error (.backup ⟨"restore_target_database_not_empty", "target database must be empty"⟩)

/-! ## Databases -/

def missingDump : Failure := manifestInvalid "manifest is missing a database dump"

/-- What `restore` makes of an exception of the command runner. -/
def ToolError.restoreFailure : ToolError → Failure
  | .other => .backup ⟨"restore_database_failed", "database restore failed"⟩
  | e => e.failure

/-- mirrors backup.py:288-312: the commands run so far and the targets restored. -/
def restoreDatabases (tools : RestoreTools) (manifest : BackupManifest) :
    List (Identity × DbParts × Role) → List Command → List Identity → List Command × Except Failure Unit
  | [], commands, _ => (commands, .ok ())
  | (identity, parts, role) :: targets, commands, restored =>
    match manifest.databaseDumps.get role.name with
    | none => (commands, .error missingDump)
    | some dumpName =>
      match safeRelativePath dumpName with
      | .error e => (commands, .error e)
      | .ok dumpPath =>
        if identity ∈ restored then restoreDatabases tools manifest targets commands restored
        else
          match tools.pgRestore parts with
          | .error e => (commands ++ [⟨parts, dumpPath⟩], .error e.restoreFailure)
          | .ok () =>
            restoreDatabases tools manifest targets (commands ++ [⟨parts, dumpPath⟩])
              (restored ++ [identity])

/-! ## Objects -/

def keyEscapes : Failure := manifestInvalid "object key escapes target root"

/-- mirrors backup.py:316-329, for one object. Below an empty root no name is a
link, so a destination is outside only if it is the root itself. A name that the
operating system refuses (a NUL in it, or too long) is taken like any other: what
it raises is no `BackupError`, and is left out. -/
def restoreObject (dir : BackupDir) (tree : Root) (item : BackupObject) : Root × Except Failure Unit :=
  match safeRelativePath item.archivePath with
  | .error e => (tree, .error e)
  | .ok archivePath =>
    match safeObjectKey item.key with
    | .error e => (tree, .error e)
    | .ok destination =>
      if destination = [] then (tree, .error keyEscapes)
      else
        match tree.mkdirs destination.dropLast with
        | none => (tree, .error .raised)
        | some made =>
          match dir.files.file? archivePath with
          | none => (made, .error .raised)
          | some data =>
            match made.write destination data with
            | none => (made, .error .raised)
            | some tree =>
              if data.length ≠ item.size ∨ lib.sha256 data ≠ item.sha256 then
                (tree, .error (.backup
                  ⟨"restore_object_hash_mismatch", "restored object hash verification failed"⟩))
              else (tree, .ok ())

def restoreObjects (dir : BackupDir) (tree : Root) : List BackupObject → Root × Except Failure Unit
  | [] => (tree, .ok ())
  | item :: items =>
    match restoreObject lib dir tree item with
    | (tree, .error e) => (tree, .error e)
    | (tree, .ok ()) => restoreObjects dir tree items

/-- `target_root.mkdir(parents=True, exist_ok=True)` of a root that is not a file. -/
def Target.mkdir : Target → Root
  | .dir tree => tree
  | _ => .empty

/-! ## Revisions -/

/-- mirrors backup.py:340-347, for one role -/
def checkRevision (manifest : BackupManifest) (actual : String) :
    List Role → Dict String String → Except Failure (Dict String String)
  | [], revisions => .ok revisions
  | role :: roles, revisions =>
    if manifest.migrationRevisions.get role.name ≠ some actual then
      .error (.backup
        ⟨"restore_migration_revision_mismatch", "restored migration revision mismatch"⟩)
    else checkRevision manifest actual roles (revisions.set role.name actual)

/-- mirrors backup.py:331-347 -/
def checkRevisions (tools : RestoreTools) (checked : Checked) :
    List (Identity × DbParts × Role) → Dict String String → Except Failure (Dict String String)
  | [], revisions => .ok revisions
  | (_, parts, role) :: targets, revisions =>
    match tools.currentRevision parts with
    | .error e => .error e.failure
    | .ok actual =>
      let roles :=
        if role = .application ∧
            databaseIdentity lib checked.targetCheckpoint = databaseIdentity lib checked.targetApp then
          [.application, .checkpoint]
        else [role]
      match checkRevision checked.manifest actual roles revisions with
      | .error e => .error e
      | .ok revisions => checkRevisions tools checked targets revisions

/-! ## The restore -/

/-- mirrors backup.py:314-355, once the databases are restored -/
def restoreContents (tools : RestoreTools) (req : RestoreRequest) (checked : Checked)
    (commands : List Command) : Effects × Except Failure Summary :=
  match restoreObjects lib req.backupDir req.targetObjectRoot.mkdir checked.manifest.objects with
  | (tree, .error e) => (⟨commands, .dir tree⟩, .error e)
  | (tree, .ok ()) =>
    match checkRevisions lib tools checked (checked.targets lib).entries .empty with
    | .error e => (⟨commands, .dir tree⟩, .error e)
    | .ok revisions =>
      (⟨commands, .dir tree⟩, .ok ⟨checked.manifest.backupId, checked.manifest.objects.length,
        (checked.targets lib).entries.length, revisions⟩)

/-- mirrors backup.py:257-355 -/
def restore (tools : RestoreTools) (req : RestoreRequest) : Effects × Except Failure Summary :=
  match preflight lib req with
  | .error e => (⟨[], req.targetObjectRoot⟩, .error e)
  | .ok checked =>
    match checkAll (checkEmpty tools) (checked.targets lib).entries with
    | .error e => (⟨[], req.targetObjectRoot⟩, .error e)
    | .ok () =>
      match restoreDatabases tools checked.manifest (checked.targets lib).entries [] [] with
      | (commands, .error e) => (⟨commands, req.targetObjectRoot⟩, .error e)
      | (commands, .ok ()) => restoreContents lib tools req checked commands

/-! ## The targets -/

variable {lib} {tools : RestoreTools} {manifest : BackupManifest} {checked : Checked}

theorem targets_entries (checked : Checked) : (checked.targets lib).entries =
    if databaseIdentity lib checked.targetApp = databaseIdentity lib checked.targetCheckpoint then
      [(databaseIdentity lib checked.targetApp, checked.targetApp, .application)]
    else
      [(databaseIdentity lib checked.targetApp, checked.targetApp, .application),
        (databaseIdentity lib checked.targetCheckpoint, checked.targetCheckpoint, .checkpoint)] := by
  unfold Checked.targets
  by_cases h : databaseIdentity lib checked.targetApp = databaseIdentity lib checked.targetCheckpoint
  · rw [if_pos h, ← h]
    simp [Dict.setDefault, Dict.get, Dict.lookup, Dict.set, Dict.put, Dict.empty]
  · rw [if_neg h]
    simp [Dict.setDefault, Dict.get, Dict.lookup, Dict.set, Dict.put, Dict.empty, h]

/-! ## The commands run -/

/-- Every dump the manifest names has a safe path, as in a verified backup. -/
def SafeDumps (manifest : BackupManifest) : Prop :=
  ∀ role name, manifest.databaseDumps.get role = some name → SafeRelative name

/-- The command that restores a target, where the manifest names a dump for its role. -/
def commandOf (manifest : BackupManifest) (target : Identity × DbParts × Role) : Option Command :=
  (manifest.databaseDumps.get target.2.2.name).map fun name => ⟨target.2.1, parts name⟩

theorem restoreDatabases_done (hsafe : SafeDumps manifest) :
    ∀ {targets : List (Identity × DbParts × Role)} {before commands : List Command}
      {restored : List Identity},
      (restored ++ targets.map Prod.fst).Nodup →
      restoreDatabases tools manifest targets before restored = (commands, .ok ()) →
      (∀ t ∈ targets, (manifest.databaseDumps.get t.2.2.name).isSome) ∧
        commands = before ++ targets.filterMap (commandOf manifest)
  | [], before, commands, restored, _, h => by
    cases h
    simp
  | (identity, parts, role) :: targets, before, commands, restored, hnodup, h => by
    unfold restoreDatabases at h
    cases hname : manifest.databaseDumps.get role.name with
    | none => simp [hname] at h
    | some name =>
      have hnew : identity ∉ restored := fun hmem => by
        have := (List.nodup_append.mp hnodup).2.2 identity hmem identity (by simp)
        exact this rfl
      simp only [hname, safeRelativePath_ok_iff.mpr ⟨hsafe _ _ hname, rfl⟩, if_neg hnew] at h
      cases htool : tools.pgRestore parts with
      | error e => simp [htool] at h
      | ok u =>
        simp only [htool] at h
        obtain ⟨hnamed, rfl⟩ := restoreDatabases_done hsafe (by simpa using hnodup) h
        refine ⟨fun t ht => ?_, ?_⟩
        · rcases List.mem_cons.mp ht with rfl | ht
          · simp [hname]
          · exact hnamed t ht
        · simp [commandOf, hname]

theorem restoreDatabases_all_named (hsafe : SafeDumps manifest)
    (htools : ∀ parts, tools.pgRestore parts = .ok ()) :
    ∀ {targets : List (Identity × DbParts × Role)} (before : List Command) (restored : List Identity),
      (∀ t ∈ targets, (manifest.databaseDumps.get t.2.2.name).isSome) →
      (restoreDatabases tools manifest targets before restored).2 = .ok ()
  | [], before, restored, _ => rfl
  | (identity, parts, role) :: targets, before, restored, h => by
    obtain ⟨name, hname⟩ := Option.isSome_iff_exists.mp (h _ (List.mem_cons_self ..))
    have hrest : ∀ before restored,
        (restoreDatabases tools manifest targets before restored).2 = .ok () := fun before restored =>
      restoreDatabases_all_named hsafe htools before restored fun t ht => h t (List.mem_cons_of_mem _ ht)
    unfold restoreDatabases
    simp only [hname, safeRelativePath_ok_iff.mpr ⟨hsafe _ _ hname, rfl⟩, htools]
    split
    · exact hrest _ _
    · exact hrest _ _

/-- A run that does not end well had a command fail, or found a role without a dump. -/
theorem restoreDatabases_refused (hsafe : SafeDumps manifest) :
    ∀ {targets : List (Identity × DbParts × Role)} {before commands : List Command}
      {restored : List Identity} {e : Failure},
      restoreDatabases tools manifest targets before restored = (commands, .error e) →
      (∃ t : ToolError, e = t.restoreFailure) ∨
        ∃ start target rest, targets = start ++ target :: rest ∧
          (∀ t ∈ start, (manifest.databaseDumps.get t.2.2.name).isSome) ∧
          manifest.databaseDumps.get target.2.2.name = none ∧ (start = [] → commands = before)
  | [], before, commands, restored, e, h => by cases h
  | (identity, parts, role) :: targets, before, commands, restored, e, h => by
    unfold restoreDatabases at h
    cases hname : manifest.databaseDumps.get role.name with
    | none =>
      simp only [hname, Prod.mk.injEq] at h
      exact .inr ⟨[], _, targets, rfl, by simp, hname, fun _ => h.1.symm⟩
    | some name =>
      -- the rest of the loop, whatever it was entered with
      have hrest : ∀ {before' restored'},
          restoreDatabases tools manifest targets before' restored' = (commands, .error e) →
          (∃ t : ToolError, e = t.restoreFailure) ∨
            ∃ start target rest, (identity, parts, role) :: targets = start ++ target :: rest ∧
              (∀ t ∈ start, (manifest.databaseDumps.get t.2.2.name).isSome) ∧
              manifest.databaseDumps.get target.2.2.name = none ∧ (start = [] → commands = before) := by
        intro before' restored' hr
        rcases restoreDatabases_refused hsafe hr with ht | ⟨start, target, rest, rfl, hs, hn, -⟩
        · exact .inl ht
        · refine .inr ⟨_ :: start, target, rest, rfl, fun t ht => ?_, hn, fun hnil => ?_⟩
          · rcases List.mem_cons.mp ht with rfl | ht
            · simp [hname]
            · exact hs t ht
          · cases hnil
      simp only [hname, safeRelativePath_ok_iff.mpr ⟨hsafe _ _ hname, rfl⟩] at h
      split at h
      · exact hrest h
      · cases htool : tools.pgRestore parts with
        | error te =>
          simp only [htool, Prod.mk.injEq, Except.error.injEq] at h
          exact .inl ⟨te, h.2.symm⟩
        | ok u =>
          simp only [htool] at h
          exact hrest h

/-! ## The objects copied -/

variable {dir : BackupDir}

/-- Where an object goes and what is copied there. -/
def placed (dir : BackupDir) (item : BackupObject) : List String × Bytes :=
  (parts item.key, (dir.bytes item.archivePath).getD [])

theorem restoreObject_escapes {tree : Root} {item : BackupObject} {data : Bytes}
    (hv : VerifiedObject lib dir item data) (hnil : parts item.key = []) :
    restoreObject lib dir tree item = (tree, .error keyEscapes) := by
  simp only [restoreObject, safeRelativePath_ok_iff.mpr ⟨hv.path, rfl⟩,
    safeObjectKey_ok_iff.mpr ⟨hv.key, rfl⟩, hnil, if_true]

theorem restoreObject_put {tree t' : Root} {item : BackupObject} {data : Bytes}
    (hv : VerifiedObject lib dir item data) (hput : tree.put (parts item.key) data = some t') :
    restoreObject lib dir tree item = (t', .ok ()) := by
  obtain ⟨made, hmade, hwrite⟩ := FileTree.put_eq_some hput
  have hbytes : dir.files.file? (parts item.archivePath) = some data := hv.bytes
  have hchecked : ¬ (data.length ≠ item.size ∨ lib.sha256 data ≠ item.sha256) := by
    simp [hv.size, hv.hash]
  simp only [restoreObject, safeRelativePath_ok_iff.mpr ⟨hv.path, rfl⟩,
    safeObjectKey_ok_iff.mpr ⟨hv.key, rfl⟩, if_neg (FileTree.ne_nil_of_put hput), hmade, hbytes,
    hwrite, if_neg hchecked]

theorem restoreObject_raised {tree : Root} {item : BackupObject} {data : Bytes}
    (hv : VerifiedObject lib dir item data) (hne : parts item.key ≠ [])
    (hput : tree.put (parts item.key) data = none) :
    (restoreObject lib dir tree item).2 = .error .raised := by
  have hbytes : dir.files.file? (parts item.archivePath) = some data := hv.bytes
  simp only [restoreObject, safeRelativePath_ok_iff.mpr ⟨hv.path, rfl⟩,
    safeObjectKey_ok_iff.mpr ⟨hv.key, rfl⟩, if_neg hne, hbytes]
  cases hmade : tree.mkdirs (parts item.key).dropLast with
  | none => rfl
  | some made =>
    have hwrite : made.write (parts item.key) data = none := by
      simpa [FileTree.put, hmade] using hput
    simp only [hwrite]

/-- What happens to a verified object. -/
theorem restoreObject_cases (tree : Root) {item : BackupObject}
    (hv : ∃ data, VerifiedObject lib dir item data) :
    (parts item.key = [] ∧ restoreObject lib dir tree item = (tree, .error keyEscapes)) ∨
      (∃ t', tree.put (placed dir item).1 (placed dir item).2 = some t' ∧
        restoreObject lib dir tree item = (t', .ok ())) ∨
      (parts item.key ≠ [] ∧ tree.put (placed dir item).1 (placed dir item).2 = none ∧
        (restoreObject lib dir tree item).2 = .error .raised) := by
  obtain ⟨data, hv⟩ := hv
  have hdata : (placed dir item).2 = data := by rw [placed, hv.bytes, Option.getD_some]
  rw [hdata]
  by_cases hnil : parts item.key = []
  · exact .inl ⟨hnil, restoreObject_escapes hv hnil⟩
  · cases hput : tree.put (parts item.key) data with
    | some t' => exact .inr (.inl ⟨t', hput, restoreObject_put hv hput⟩)
    | none => exact .inr (.inr ⟨hnil, hput, restoreObject_raised hv hnil hput⟩)

theorem restoreObjects_done_iff : ∀ {items : List BackupObject} (tree : Root) {t' : Root},
    (∀ item ∈ items, ∃ data, VerifiedObject lib dir item data) →
    (restoreObjects lib dir tree items = (t', .ok ()) ↔ tree.putAll (items.map (placed dir)) = some t')
  | [], tree, t', _ => by simp [restoreObjects, FileTree.putAll]
  | item :: items, tree, t', hv => by
    have ih : ∀ tree, restoreObjects lib dir tree items = (t', .ok ()) ↔ _ := fun tree =>
      restoreObjects_done_iff tree fun x hx => hv x (List.mem_cons_of_mem _ hx)
    rw [restoreObjects, List.map_cons, FileTree.putAll]
    rcases restoreObject_cases tree (hv item (List.mem_cons_self ..)) with
      ⟨hnil, hr⟩ | ⟨t, hput, hr⟩ | ⟨-, hput, hr⟩
    · have hnone : tree.put (placed dir item).1 (placed dir item).2 = none := by
        cases hput : tree.put (placed dir item).1 (placed dir item).2 with
        | none => rfl
        | some t => exact absurd hnil (FileTree.ne_nil_of_put hput)
      simp [hr, hnone]
    · simp only [hr, hput, Option.bind_some]
      exact ih t
    · cases hres : restoreObject lib dir tree item with
      | mk t r =>
        rw [hres] at hr
        cases hr
        simp [hput]

/-- The keys before it are put in place, and a key has no path of its own. -/
def Escapes (dir : BackupDir) (tree : Root) (items : List BackupObject) : Prop :=
  ∃ start item rest, items = start ++ item :: rest ∧ parts item.key = [] ∧
    (tree.putAll (start.map (placed dir))).isSome

theorem escapes_cons {tree : Root} {item : BackupObject} {items : List BackupObject} :
    Escapes dir tree (item :: items) ↔ parts item.key = [] ∨
      ∃ t, tree.put (placed dir item).1 (placed dir item).2 = some t ∧ Escapes dir t items := by
  constructor
  · rintro ⟨start, x, rest, he, hx, hput⟩
    cases start with
    | nil =>
      obtain ⟨rfl, -⟩ := List.cons_eq_cons.mp he
      exact .inl hx
    | cons y start =>
      obtain ⟨rfl, rfl⟩ := List.cons_eq_cons.mp he
      rw [List.map_cons, FileTree.putAll] at hput
      obtain ⟨t', hput⟩ := Option.isSome_iff_exists.mp hput
      obtain ⟨t, ht, hput⟩ := Option.bind_eq_some_iff.mp hput
      exact .inr ⟨t, ht, start, x, rest, rfl, hx, Option.isSome_of_mem hput⟩
  · rintro (hnil | ⟨t, ht, start, x, rest, rfl, hx, hput⟩)
    · exact ⟨[], item, items, rfl, hnil, rfl⟩
    · refine ⟨item :: start, x, rest, rfl, hx, ?_⟩
      rw [List.map_cons, FileTree.putAll, ht]
      exact hput

/-- A run over verified objects that does not end well met a key without a path,
or an exception. -/
theorem restoreObjects_escapes_iff : ∀ {items : List BackupObject} (tree : Root),
    (∀ item ∈ items, ∃ data, VerifiedObject lib dir item data) → ∀ {e : Failure},
    ((restoreObjects lib dir tree items).2 = .error e ∧ e ≠ .raised ↔
      e = keyEscapes ∧ Escapes dir tree items)
  | [], tree, _, e => by simp [restoreObjects, Escapes]
  | item :: items, tree, hv, e => by
    have ih : ∀ tree, (restoreObjects lib dir tree items).2 = .error e ∧ e ≠ .raised ↔ _ := fun tree =>
      restoreObjects_escapes_iff tree (fun x hx => hv x (List.mem_cons_of_mem _ hx))
    rw [restoreObjects, escapes_cons]
    rcases restoreObject_cases tree (hv item (List.mem_cons_self ..)) with
      ⟨hnil, hr⟩ | ⟨t, hput, hr⟩ | ⟨hne, hput, hr⟩
    · simp only [hr, hnil, true_or, and_true, Except.error.injEq]
      constructor
      · exact fun h => h.1.symm
      · rintro rfl
        exact ⟨rfl, by simp [keyEscapes, manifestInvalid]⟩
    · have hne : parts item.key ≠ [] := FileTree.ne_nil_of_put hput
      simp only [hr, hput, hne, false_or, Option.some.injEq, exists_eq_left']
      exact ih t
    · cases hres : restoreObject lib dir tree item with
      | mk t r =>
        rw [hres] at hr
        cases hr
        simp only [Except.error.injEq, hput, hne, reduceCtorEq, false_and, exists_false, or_self,
          and_false, iff_false, not_and, not_not]
        exact fun h => h.symm

/-! ## What passed the preflight -/

variable {req : RestoreRequest}

theorem root_eq_empty {t : Root} (h : t.entries.entries = []) : t = .empty := by
  obtain ⟨⟨entries, distinct⟩, root, closed⟩ := t
  cases h
  rfl

theorem preflight_ok (h : preflight lib req = .ok checked) :
    verifyManifest lib req.backupDir = .ok checked.manifest ∧ req.targetObjectRoot.mkdir = .empty := by
  unfold preflight at h
  split at h
  · cases h
  · cases hm : verifyManifest lib req.backupDir with
    | error e => simp [hm] at h
    | ok manifest =>
      cases ha : parseDatabaseUrl lib req.targetDatabaseUrl with
      | error e => simp [hm, ha] at h
      | ok app =>
        cases hc : parseDatabaseUrl lib req.targetCheckpointDatabaseUrl with
        | error e => simp [hm, ha, hc] at h
        | ok checkpoint =>
          cases hr : checkRoot req.targetObjectRoot with
          | error e => simp [hm, ha, hc, hr] at h
          | ok u =>
            simp only [hm, ha, hc, hr, Except.ok.injEq] at h
            subst h
            refine ⟨rfl, ?_⟩
            cases ht : req.targetObjectRoot with
            | missing => rfl
            | file => rfl
            | dir t =>
              rw [ht, checkRoot] at hr
              split at hr
              · rename_i he
                exact root_eq_empty he
              · cases hr

theorem safeDumps_of_preflight (h : preflight lib req = .ok checked) : SafeDumps checked.manifest := by
  intro role name hname
  obtain ⟨-, -, hdumps, -⟩ := (verify_ok_iff lib).mp (preflight_ok h).1
  obtain ⟨data, hv⟩ := hdumps role name hname
  exact hv.path

theorem objects_of_preflight (h : preflight lib req = .ok checked) :
    ∀ item ∈ checked.manifest.objects, ∃ data, VerifiedObject lib req.backupDir item data := by
  obtain ⟨-, -, -, hobjects⟩ := (verify_ok_iff lib).mp (preflight_ok h).1
  exact hobjects

/-! ## The whole run -/

theorem restore_unrefused (h : preflight lib req = .ok checked)
    (hempty : checkAll (checkEmpty tools) (checked.targets lib).entries = .ok ()) :
    restore lib tools req =
      match restoreDatabases tools checked.manifest (checked.targets lib).entries [] [] with
      | (commands, .error e) => (⟨commands, req.targetObjectRoot⟩, .error e)
      | (commands, .ok ()) => restoreContents lib tools req checked commands := by
  simp only [restore, h, hempty]

theorem targets_nodup (c : Checked) : ((c.targets lib).entries.map Prod.fst).Nodup :=
  (c.targets lib).distinct

/-- What a restore that succeeds has checked, run and written. -/
structure Restored (lib : StdLib) (tools : RestoreTools) (req : RestoreRequest) (checked : Checked)
    (commands : List Command) (tree : Root) : Prop where
  preflight : preflight lib req = .ok checked
  databases : restoreDatabases tools checked.manifest (checked.targets lib).entries [] [] =
    (commands, .ok ())
  objects : restoreObjects lib req.backupDir .empty checked.manifest.objects = (tree, .ok ())
  effects : (restore lib tools req).1 = ⟨commands, .dir tree⟩

theorem restore_done {summary : Summary} (h : (restore lib tools req).2 = .ok summary) :
    ∃ checked commands tree, Restored lib tools req checked commands tree := by
  cases hp : preflight lib req with
  | error e => simp [restore, hp] at h
  | ok checked =>
    cases hempty : checkAll (checkEmpty tools) (checked.targets lib).entries with
    | error e => simp [restore, hp, hempty] at h
    | ok u =>
      have hrun := restore_unrefused hp hempty
      rw [hrun] at h
      cases hdb : restoreDatabases tools checked.manifest (checked.targets lib).entries [] [] with
      | mk commands r =>
        rw [hdb] at h hrun
        cases r with
        | error e => simp at h
        | ok u =>
          simp only [restoreContents, (preflight_ok hp).2] at h hrun
          cases hobj : restoreObjects lib req.backupDir .empty checked.manifest.objects with
          | mk tree r =>
            rw [hobj] at h hrun
            cases r with
            | error e => simp at h
            | ok u =>
              refine ⟨checked, commands, tree, hp, hdb, hobj, ?_⟩
              cases hrev : checkRevisions lib tools checked (checked.targets lib).entries .empty with
              | error e => simp [hrev] at h
              | ok revisions =>
                rw [hrun]
                simp only [hrev]

end BidScope.L9
