import BidScope.L9Storage.Objects

/-!
# Backups

`backup.py`: database URLs, manifests and `verify_manifest`. A backup directory
is a tree of files with the manifest that is read from it.

* `verify_ok_iff`: what a verified backup is.
-/
namespace BidScope.L9
open BidScope.L1

/-! ## Errors -/

/-- mirrors backup.py:25-31 -/
structure BackupError where
  code : String
  message : String
  deriving DecidableEq, Repr

/-- How a call ends early: with a `BackupError`, or another exception. -/
inductive Failure where
  | backup (error : BackupError)
  | raised
  deriving DecidableEq, Repr

/-- What the tools raise: a command that fails (backup.py:64-69), an inspection
that fails (75-104), or another exception. -/
inductive ToolError where
  | toolFailed | inspectionFailed | revisionInvalid | other
  deriving DecidableEq, Repr

/-- A tool's exception where the caller lets it pass. -/
def ToolError.failure : ToolError → Failure
  | .toolFailed => .backup ⟨"backup_tool_failed", "backup database tool failed"⟩
  | .inspectionFailed => .backup ⟨"backup_database_inspection_failed", "database inspection failed"⟩
  | .revisionInvalid =>
    .backup ⟨"backup_migration_revision_invalid", "expected one migration revision"⟩
  | .other => .raised

/-! ## Database URLs -/

/-- `urlsplit(url)`; the `port` property may raise `ValueError`. -/
structure SplitUrl where
  scheme : String
  hostname : Option String
  port : Except Unit (Option Nat)
  username : Option String
  password : Option String
  path : String

/-- What the code takes from the standard library: URLs, case folding, SHA-256. -/
structure StdLib where
  /-- `urllib.parse.urlsplit`, `none` where it raises `ValueError` -/
  urlsplit : String → Option SplitUrl
  unquote : String → String
  casefold : String → String
  sha256 : Bytes → String

structure DbParts where
  host : String
  port : String
  user : String
  password : String
  database : String
  deriving DecidableEq, Repr

/-- `s.lstrip("/")` -/
def lstripSlash (s : String) : String := .ofList (s.toList.dropWhile (· = '/'))

def urlInvalid : Failure := .backup ⟨"restore_database_url_invalid", "target database URL is invalid"⟩

variable (lib : StdLib)

/-- mirrors backup.py:192-216 -/
def parseDatabaseUrl (url : String) : Except Failure DbParts :=
  match lib.urlsplit url with
  | none => .error .raised
  | some parsed =>
    if parsed.scheme ∉ ["postgresql", "postgresql+asyncpg", "postgresql+psycopg"] then
      .error urlInvalid
    else
      match parsed.port with
      | .error _ => .error urlInvalid
      | .ok port =>
        let port := match port with
          | some n => if n = 0 then 5432 else n
          | none => 5432
        let hostname := parsed.hostname.getD ""
        let username := lib.unquote (parsed.username.getD "")
        let password := lib.unquote (parsed.password.getD "")
        let database := lib.unquote (lstripSlash parsed.path)
        if hostname = "" ∨ username = "" ∨ password = "" ∨ database = "" ∨
            ¬ startsWith url (parsed.scheme ++ "://") then .error urlInvalid
        else .ok ⟨hostname, toString port, username, password, database⟩

/-- The host without its case, the port and the name of a database. -/
abbrev Identity := String × String × String

/-- mirrors backup.py:219-220 -/
def databaseIdentity (parts : DbParts) : Identity :=
  (lib.casefold parts.host, parts.port, parts.database)

/-! ## Manifests -/

/-- mirrors backup.py:34-38 -/
structure BackupObject where
  key : String
  archivePath : String
  size : Nat
  sha256 : String
  deriving DecidableEq, Repr

/-- mirrors backup.py:41-52, without what nothing reads -/
structure BackupManifest where
  backupId : String
  migrationRevisions : Dict String String
  databaseDumps : Dict String String
  databaseDumpSha256 : Dict String String
  objects : List BackupObject
  deriving DecidableEq

/-- A backup directory: whether it lies below the root given (`safe_backup_path`),
what `manifest.json` is read as (`none` where it cannot be), and its files. None of
them is a link: `create` writes regular files, and a link put there later is left
out. -/
structure BackupDir where
  inRoot : Bool
  manifest : Option BackupManifest
  files : Root

def manifestInvalid (message : String) : Failure := .backup ⟨"backup_manifest_invalid", message⟩

def hashMismatch (message : String) : Failure := .backup ⟨"backup_manifest_hash_mismatch", message⟩

def hasBackslash (s : String) : Bool := s.toList.contains '\\'

/-- mirrors backup.py:136-146; the path below the directory. -/
def safeRelativePath (relative : String) : Except Failure (List String) :=
  if startsWith relative "/" ∨ hasBackslash relative then
    .error (manifestInvalid "manifest path is not a safe relative path")
  else if parts relative = [] ∨ ".." ∈ parts relative then
    .error (manifestInvalid "manifest path is not a safe relative path")
  else .ok (parts relative)

/-- mirrors backup.py:149-155. `Path(key).parts` has no empty part and no `.`,
so only `..` is found. -/
def safeObjectKey (key : String) : Except Failure (List String) :=
  if key = "" ∨ startsWith key "/" ∨ hasBackslash key then
    .error (manifestInvalid "object key is not safe")
  else if ∃ p ∈ parts key, p = "" ∨ p = "." ∨ p = ".." then
    .error (manifestInvalid "object key is not safe")
  else .ok (parts key)

/-- One check after another; the first that fails. -/
def checkAll {α ε : Type} (check : α → Except ε Unit) : List α → Except ε Unit
  | [] => .ok ()
  | a :: as =>
    match check a with
    | .error e => .error e
    | .ok () => checkAll check as

/-- mirrors backup.py:173-181, for one role -/
def verifyDump (dir : BackupDir) (manifest : BackupManifest) (dump : String × String) :
    Except Failure Unit :=
  match safeRelativePath dump.2 with
  | .error e => .error e
  | .ok path =>
    match dir.files.file? path with
    | none => .error (hashMismatch "database dump hash verification failed")
    | some data =>
      if some (lib.sha256 data) = manifest.databaseDumpSha256.get dump.1 then .ok ()
      else .error (hashMismatch "database dump hash verification failed")

/-- mirrors backup.py:182-188, for one object -/
def verifyObject (dir : BackupDir) (item : BackupObject) : Except Failure Unit :=
  match safeRelativePath item.archivePath with
  | .error e => .error e
  | .ok path =>
    match dir.files.file? path with
    | none => .error (hashMismatch "object size verification failed")
    | some data =>
      if data.length ≠ item.size then .error (hashMismatch "object size verification failed")
      else if lib.sha256 data ≠ item.sha256 then
        .error (hashMismatch "object hash verification failed")
      else
        match safeObjectKey item.key with
        | .error e => .error e
        | .ok _ => .ok ()

/-- mirrors backup.py:158-189 -/
def verifyManifest (dir : BackupDir) : Except Failure BackupManifest :=
  if ¬ dir.inRoot then
    .error (.backup ⟨"backup_path_outside_root", "backup path is outside the configured root"⟩)
  else
    match dir.manifest with
    | none => .error (manifestInvalid "backup manifest is invalid")
    | some manifest =>
      match checkAll (verifyDump lib dir manifest) manifest.databaseDumps.entries with
      | .error e => .error e
      | .ok () =>
        match checkAll (verifyObject lib dir) manifest.objects with
        | .error e => .error e
        | .ok () => .ok manifest

/-! ## What was verified -/

theorem checkAll_ok_iff {α ε : Type} {check : α → Except ε Unit} :
    ∀ {as : List α}, checkAll check as = .ok () ↔ ∀ a ∈ as, check a = .ok ()
  | [] => by simp [checkAll]
  | a :: as => by
    have ih : checkAll check as = .ok () ↔ ∀ a ∈ as, check a = .ok () := checkAll_ok_iff
    cases h : check a <;> simp [checkAll, h, ih]

/-- The bytes at a relative path of a backup. -/
def BackupDir.bytes (dir : BackupDir) (relative : String) : Option Bytes :=
  dir.files.file? (parts relative)

/-- A path below the directory that `_safe_relative_path` lets pass. -/
def SafeRelative (relative : String) : Prop :=
  ¬ (startsWith relative "/" ∨ hasBackslash relative) ∧ parts relative ≠ [] ∧ ".." ∉ parts relative

/-- A key that `_safe_object_key` lets pass. -/
def SafeKey (key : String) : Prop :=
  ¬ (key = "" ∨ startsWith key "/" ∨ hasBackslash key) ∧ ".." ∉ parts key

instance (relative : String) : Decidable (SafeRelative relative) := inferInstanceAs (Decidable (_ ∧ _))

instance (key : String) : Decidable (SafeKey key) := inferInstanceAs (Decidable (_ ∧ _))

theorem safeRelativePath_ok_iff {relative : String} {path : List String} :
    safeRelativePath relative = .ok path ↔ SafeRelative relative ∧ path = parts relative := by
  unfold safeRelativePath SafeRelative
  by_cases h : startsWith relative "/" ∨ hasBackslash relative
  · simp [h]
  · by_cases h' : parts relative = [] ∨ ".." ∈ parts relative
    · rw [if_neg h, if_pos h']
      simp only [reduceCtorEq, false_iff, not_and]
      rintro ⟨-, hne, hdots⟩
      exact absurd h' (not_or.mpr ⟨hne, hdots⟩)
    · rw [if_neg h, if_neg h', Except.ok.injEq]
      obtain ⟨hne, hdots⟩ := not_or.mp h'
      exact ⟨fun hp => ⟨⟨h, hne, hdots⟩, hp.symm⟩, fun hp => hp.2.symm⟩

theorem safeObjectKey_ok_iff {key : String} {path : List String} :
    safeObjectKey key = .ok path ↔ SafeKey key ∧ path = parts key := by
  -- a part is neither empty nor `.`
  have hparts : (∃ p ∈ parts key, p = "" ∨ p = "." ∨ p = "..") ↔ ".." ∈ parts key := by
    constructor
    · rintro ⟨p, hp, rfl | rfl | rfl⟩
      · exact absurd rfl (parts_names hp).ne
      · exact absurd rfl (parts_names hp).dot
      · exact hp
    · exact fun h => ⟨_, h, .inr (.inr rfl)⟩
  unfold safeObjectKey SafeKey
  by_cases h : key = "" ∨ startsWith key "/" ∨ hasBackslash key
  · simp [h]
  · by_cases h' : ".." ∈ parts key
    · rw [if_neg h, if_pos (hparts.mpr h')]
      simp [h']
    · rw [if_neg h, if_neg (mt hparts.mp h'), Except.ok.injEq]
      exact ⟨fun hp => ⟨⟨h, h'⟩, hp.symm⟩, fun hp => hp.2.symm⟩

/-- The manifest's dump of a role is there with the hash noted. -/
structure VerifiedDump (dir : BackupDir) (manifest : BackupManifest) (role name : String) (data : Bytes) :
    Prop where
  path : SafeRelative name
  bytes : dir.bytes name = some data
  hash : manifest.databaseDumpSha256.get role = some (lib.sha256 data)

/-- An object's archive is there with the size and the hash noted. -/
structure VerifiedObject (dir : BackupDir) (item : BackupObject) (data : Bytes) : Prop where
  path : SafeRelative item.archivePath
  bytes : dir.bytes item.archivePath = some data
  size : data.length = item.size
  hash : lib.sha256 data = item.sha256
  key : SafeKey item.key

theorem verifyDump_ok_iff {dir : BackupDir} {manifest : BackupManifest} {role name : String} :
    verifyDump lib dir manifest (role, name) = .ok () ↔
      ∃ data, VerifiedDump lib dir manifest role name data := by
  unfold verifyDump
  cases hp : safeRelativePath name with
  | error e =>
    simp only [reduceCtorEq, false_iff]
    rintro ⟨data, h⟩
    rw [safeRelativePath_ok_iff.mpr ⟨h.path, rfl⟩] at hp
    cases hp
  | ok path =>
    obtain ⟨hsafe, rfl⟩ := safeRelativePath_ok_iff.mp hp
    cases hf : dir.files.file? (parts name) with
    | none =>
      simp only [hf, reduceCtorEq, false_iff]
      rintro ⟨data, h⟩
      have hb := h.bytes
      rw [BackupDir.bytes, hf] at hb
      cases hb
    | some data =>
      simp only [hf]
      split
      · rename_i hh
        exact iff_of_true rfl ⟨data, hsafe, hf, hh.symm⟩
      · rename_i hh
        simp only [reduceCtorEq, false_iff]
        rintro ⟨data', h⟩
        have hb := h.bytes
        rw [BackupDir.bytes, hf, Option.some.injEq] at hb
        rw [← hb] at h
        exact hh h.hash.symm

theorem verifyObject_ok_iff {dir : BackupDir} {item : BackupObject} :
    verifyObject lib dir item = .ok () ↔ ∃ data, VerifiedObject lib dir item data := by
  unfold verifyObject
  cases hp : safeRelativePath item.archivePath with
  | error e =>
    simp only [reduceCtorEq, false_iff]
    rintro ⟨data, h⟩
    rw [safeRelativePath_ok_iff.mpr ⟨h.path, rfl⟩] at hp
    cases hp
  | ok path =>
    obtain ⟨hsafe, rfl⟩ := safeRelativePath_ok_iff.mp hp
    cases hf : dir.files.file? (parts item.archivePath) with
    | none =>
      simp only [hf, reduceCtorEq, false_iff]
      rintro ⟨data, h⟩
      have hb := h.bytes
      rw [BackupDir.bytes, hf] at hb
      cases hb
    | some data =>
      have hunique : ∀ data', VerifiedObject lib dir item data' → data' = data := fun data' h => by
        have hb := h.bytes
        rw [BackupDir.bytes, hf, Option.some.injEq] at hb
        exact hb.symm
      simp only [hf]
      constructor
      · intro h
        split at h
        · cases h
        · rename_i hsize
          split at h
          · cases h
          · rename_i hhash
            cases hk : safeObjectKey item.key with
            | error e =>
              rw [hk] at h
              cases h
            | ok key =>
              exact ⟨data, hsafe, hf, not_not.mp hsize, not_not.mp hhash,
                (safeObjectKey_ok_iff.mp hk).1⟩
      · rintro ⟨data', h⟩
        obtain rfl := hunique data' h
        rw [if_neg (not_not.mpr h.size), if_neg (not_not.mpr h.hash),
          safeObjectKey_ok_iff.mpr ⟨h.key, rfl⟩]

/-- A backup is verified exactly when it lies below its root, has a manifest, and
every dump and every object the manifest lists is there as noted. -/
theorem verify_ok_iff {dir : BackupDir} {manifest : BackupManifest} :
    verifyManifest lib dir = .ok manifest ↔
      dir.inRoot = true ∧ dir.manifest = some manifest ∧
      (∀ role name, manifest.databaseDumps.get role = some name →
        ∃ data, VerifiedDump lib dir manifest role name data) ∧
      ∀ item ∈ manifest.objects, ∃ data, VerifiedObject lib dir item data := by
  have hdumps : checkAll (verifyDump lib dir manifest) manifest.databaseDumps.entries = .ok () ↔
      ∀ role name, manifest.databaseDumps.get role = some name →
        ∃ data, VerifiedDump lib dir manifest role name data := by
    simp only [checkAll_ok_iff, Prod.forall, Dict.mem_iff_get, verifyDump_ok_iff]
  have hobjects : checkAll (verifyObject lib dir) manifest.objects = .ok () ↔
      ∀ item ∈ manifest.objects, ∃ data, VerifiedObject lib dir item data := by
    simp only [checkAll_ok_iff, verifyObject_ok_iff]
  rw [← hdumps, ← hobjects]
  unfold verifyManifest
  by_cases hroot : dir.inRoot = true
  · cases hm : dir.manifest with
    | none => simp [hroot]
    | some m =>
      simp only [hroot, not_true_eq_false, if_false, true_and, Option.some.injEq]
      constructor
      · intro h
        split at h
        · cases h
        · rename_i hd
          split at h
          · cases h
          · rename_i ho
            cases h
            exact ⟨rfl, hd, ho⟩
      · rintro ⟨rfl, hd, ho⟩
        rw [hd, ho]
  · simp [hroot]

/-! ## Examples -/

/-- The standard library on what the examples below ask it. -/
def StdLib.sample : StdLib where
  urlsplit url :=
    if url = "postgresql://u:p@a/d" then
      some ⟨"postgresql", some "a", .ok none, some "u", some "p", "/d"⟩
    else if url = "postgresql://u:p@b/d" then
      some ⟨"postgresql", some "b", .ok none, some "u", some "p", "/d"⟩
    else none
  unquote s := s
  casefold s := s
  sha256 data :=
    if data = [] then "e3b0c44298fc1c149afbf4c8996fb92427ae41e4649b934ca495991b7852b855"
    else if data = [0] then "6e340b9cffb37a989ca544e6bb780a2c78901d3fb33738768511a30617afa01d"
    else ""

end BidScope.L9
