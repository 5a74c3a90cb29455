import BidScope.L9Storage.Restore

/-!
# What is validated before a restore writes

**Law.** A restore that ends with an error of validation has run no restore
command and left the target object root as it was.

**Where it fails.** Two checks come after commands: a checkpoint dump that the
manifest does not name is found missing once the application's is restored, and
an object key whose path is empty (`.`, `./.`) passes `_safe_object_key`, its
parts being none, and is refused once the databases are restored.

**Results.**
* `validates_first_iff`: for a request, the law holds whatever the databases and
  the tools do exactly when the preflight refuses it or neither check can be
  reached with a failure.
-/
namespace BidScope.L9
open BidScope.L1

variable {lib : StdLib} {req : RestoreRequest} {checked : Checked} {tools : RestoreTools}

/-- An unsafe path or key, an invalid manifest or a role without a dump; a hash;
a target URL; a database or an object root that is not empty. -/
def validationCodes : List String :=
  ["backup_manifest_invalid", "backup_manifest_hash_mismatch", "restore_database_url_invalid",
    "restore_target_database_not_empty", "restore_target_object_root_not_empty"]

def Failure.IsValidation : Failure → Prop
  | .backup error => error.code ∈ validationCodes
  | .raised => False

instance : DecidablePred Failure.IsValidation
  | .backup error => inferInstanceAs (Decidable (error.code ∈ validationCodes))
  | .raised => inferInstanceAs (Decidable False)

/-- Whatever the databases and tools do, an error of validation leaves no trace. -/
def ValidatesFirst (lib : StdLib) (req : RestoreRequest) : Prop :=
  ∀ tools e, (restore lib tools req).2 = .error e → e.IsValidation →
    (restore lib tools req).1 = ⟨[], req.targetObjectRoot⟩

/-- Two databases are to be restored and the manifest names only the first dump. -/
def SecondDumpMissing (lib : StdLib) (c : Checked) : Prop :=
  databaseIdentity lib c.targetApp ≠ databaseIdentity lib c.targetCheckpoint ∧
    (c.manifest.databaseDumps.get "application").isSome ∧
    c.manifest.databaseDumps.get "checkpoint" = none

/-- Every database can be restored, and some object's key has no path, the paths
before it being such that they can all be files. -/
def KeyWithoutPath (lib : StdLib) (c : Checked) : Prop :=
  (∀ t ∈ (c.targets lib).entries, (c.manifest.databaseDumps.get t.2.2.name).isSome) ∧
    ∃ start item rest, c.manifest.objects = start ++ item :: rest ∧ parts item.key = [] ∧
      (∀ x ∈ start, parts x.key ≠ []) ∧
      ∀ x ∈ start, ∀ y ∈ start, parts x.key <+: parts y.key → parts x.key = parts y.key

/-! ## Errors that are not of validation -/

theorem failure_not_validation (e : ToolError) : ¬ e.failure.IsValidation := by
  cases e <;> decide +kernel

theorem restoreFailure_not_validation (e : ToolError) : ¬ e.restoreFailure.IsValidation := by
  cases e <;> decide +kernel

theorem checkRevision_not_validation {manifest : BackupManifest} {actual : String} :
    ∀ {roles : List Role} {revisions : Dict String String} {e : Failure},
      checkRevision manifest actual roles revisions = .error e → ¬ e.IsValidation
  | [], _, _, h => by cases h
  | role :: roles, revisions, e, h => by
    unfold checkRevision at h
    split at h
    · cases h
      decide +kernel
    · exact checkRevision_not_validation h

theorem checkRevisions_not_validation :
    ∀ {targets : List (Identity × DbParts × Role)} {revisions : Dict String String} {e : Failure},
      checkRevisions lib tools checked targets revisions = .error e → ¬ e.IsValidation
  | [], _, _, h => by cases h
  | (_, parts, role) :: targets, revisions, e, h => by
    unfold checkRevisions at h
    cases hr : tools.currentRevision parts with
    | error te =>
      simp only [hr, Except.error.injEq] at h
      exact h ▸ failure_not_validation te
    | ok actual =>
      simp only [hr] at h
      split at h
      · rename_i e' he
        cases h
        exact checkRevision_not_validation he
      · exact checkRevisions_not_validation h

/-! ## The law -/

/-- Paths that can all be files, as the condition says it and as the tree has it. -/
theorem escapes_empty_iff {dir : BackupDir} {items : List BackupObject} :
    Escapes dir .empty items ↔
      ∃ start item rest, items = start ++ item :: rest ∧ parts item.key = [] ∧
        (∀ x ∈ start, parts x.key ≠ []) ∧
        ∀ x ∈ start, ∀ y ∈ start, parts x.key <+: parts y.key → parts x.key = parts y.key := by
  simp [Escapes, FileTree.putAll_isSome_iff, placed]

/-- Without the two late checks, errors of validation come before anything else. -/
theorem no_trace (h : preflight lib req = .ok checked) (hdump : ¬ SecondDumpMissing lib checked)
    (hkey : ¬ KeyWithoutPath lib checked) {e : Failure} (hres : (restore lib tools req).2 = .error e)
    (hval : e.IsValidation) : (restore lib tools req).1 = ⟨[], req.targetObjectRoot⟩ := by
  cases hempty : checkAll (checkEmpty tools) (checked.targets lib).entries with
  | error e => simp only [restore, h, hempty]
  | ok u =>
    rw [restore_unrefused h hempty] at hres ⊢
    have hsafe := safeDumps_of_preflight h
    cases hdb : restoreDatabases tools checked.manifest (checked.targets lib).entries [] [] with
    | mk commands r =>
      cases r with
      | error e' =>
        simp only [hdb, Except.error.injEq] at hres ⊢
        subst hres
        rcases restoreDatabases_refused hsafe hdb with
          ⟨te, rfl⟩ | ⟨start, target, rest, htargets, hnamed, hmissing, hfirst⟩
        · exact absurd hval (restoreFailure_not_validation te)
        · cases start with
          | nil => rw [hfirst rfl]
          | cons t start =>
            -- a target before the one without a dump: the application's
            refine absurd ?_ hdump
            rw [targets_entries] at htargets
            split at htargets
            · simp at htargets
            · rename_i hne
              simp only [List.cons_append, List.cons.injEq] at htargets
              obtain ⟨rfl, htargets⟩ := htargets
              have happ := hnamed _ (List.mem_cons_self ..)
              cases start with
              | nil =>
                simp only [List.nil_append, List.cons.injEq] at htargets
                obtain ⟨rfl, -⟩ := htargets
                exact ⟨hne, happ, hmissing⟩
              | cons t' start => simp at htargets
      | ok u =>
        refine absurd hval ?_
        simp only [hdb, restoreContents] at hres
        cases hobj : restoreObjects lib req.backupDir req.targetObjectRoot.mkdir
            checked.manifest.objects with
        | mk tree r =>
          simp only [hobj] at hres
          cases r with
          | error e' =>
            simp only [Except.error.injEq] at hres
            subst hres
            intro hval
            have hne : e' ≠ .raised := by
              rintro rfl
              exact hval
            have hesc := (restoreObjects_escapes_iff req.targetObjectRoot.mkdir
              (objects_of_preflight h)).mp ⟨by rw [hobj], hne⟩
            rw [(preflight_ok h).2, escapes_empty_iff] at hesc
            have hnamed := (restoreDatabases_done hsafe
              (by simpa using targets_nodup checked) hdb).1
            exact hkey ⟨hnamed, hesc.2⟩
          | ok u =>
            simp only at hres
            split at hres
            · rename_i e' he
              cases hres
              exact checkRevisions_not_validation he
            · cases hres

theorem checkEmpty_succeed (revision : String) (targets : List (Identity × DbParts × Role)) :
    checkAll (checkEmpty (.succeed revision)) targets = .ok () :=
  checkAll_ok_iff.mpr fun _ _ => rfl

/-- With tools that succeed, a missing second dump is found after a command. -/
theorem command_before_missing (h : preflight lib req = .ok checked)
    (hdump : SecondDumpMissing lib checked) : ¬ ValidatesFirst lib req := by
  intro hlaw
  obtain ⟨hne, happ, hmissing⟩ := hdump
  obtain ⟨name, hname⟩ := Option.isSome_iff_exists.mp happ
  have hsafe := safeDumps_of_preflight h "application" name hname
  have hdb : restoreDatabases (.succeed "") checked.manifest (checked.targets lib).entries [] [] =
      ([⟨checked.targetApp, parts name⟩], .error missingDump) := by
    rw [targets_entries, if_neg hne]
    simp [restoreDatabases, Role.name, hname, hmissing, safeRelativePath_ok_iff.mpr ⟨hsafe, rfl⟩,
      RestoreTools.succeed]
  have hrun := restore_unrefused h (checkEmpty_succeed "" _)
  rw [hdb] at hrun
  have := hlaw (.succeed "") missingDump (by rw [hrun]) (by decide +kernel)
  rw [hrun] at this
  simp at this

/-- With tools that succeed, a key without a path is found after the commands. -/
theorem command_before_key (h : preflight lib req = .ok checked) (hkey : KeyWithoutPath lib checked) :
    ¬ ValidatesFirst lib req := by
  intro hlaw
  obtain ⟨hnamed, hesc⟩ := hkey
  have hsafe := safeDumps_of_preflight h
  have htools : ∀ parts, (RestoreTools.succeed "").pgRestore parts = .ok () := fun _ => rfl
  have hok := restoreDatabases_all_named hsafe htools [] [] hnamed
  cases hdb : restoreDatabases (.succeed "") checked.manifest (checked.targets lib).entries [] [] with
  | mk commands r =>
    rw [hdb] at hok
    cases hok
    have hcommands := (restoreDatabases_done hsafe (by simpa using targets_nodup checked) hdb).2
    have hesc' := (restoreObjects_escapes_iff .empty (objects_of_preflight h)).mpr
      ⟨rfl, escapes_empty_iff.mpr hesc⟩
    have hrun := restore_unrefused h (checkEmpty_succeed "" _)
    rw [hdb] at hrun
    simp only [restoreContents, (preflight_ok h).2] at hrun
    cases hobj : restoreObjects lib req.backupDir .empty checked.manifest.objects with
    | mk tree r =>
      rw [hobj] at hesc' hrun
      obtain ⟨hr, -⟩ := hesc'
      cases hr
      have := hlaw (.succeed "") keyEscapes (by rw [hrun]) (by decide +kernel)
      rw [hrun] at this
      simp only [Effects.mk.injEq] at this
      -- the application's command at least
      obtain ⟨name, hname⟩ : ∃ name, checked.manifest.databaseDumps.get "application" = some name := by
        refine Option.isSome_iff_exists.mp (hnamed
          (databaseIdentity lib checked.targetApp, checked.targetApp, .application) ?_)
        rw [targets_entries]
        split <;> simp
      rw [hcommands, targets_entries] at this
      split at this <;> simp [commandOf, Role.name, hname] at this

/-- A restore validates before it writes, whatever databases and tools do, exactly
when its preflight fails or neither of the late checks can fail. -/
theorem validates_first_iff (lib : StdLib) (req : RestoreRequest) :
    ValidatesFirst lib req ↔
      ∀ c, preflight lib req = .ok c → ¬ SecondDumpMissing lib c ∧ ¬ KeyWithoutPath lib c := by
  constructor
  · exact fun hlaw c h => ⟨fun hd => command_before_missing h hd hlaw, fun hk =>
      command_before_key h hk hlaw⟩
  · intro hcond tools e hres hval
    cases h : preflight lib req with
    | error e' => simp only [restore, h]
    | ok c =>
      obtain ⟨hd, hk⟩ := hcond c h
      exact no_trace h hd hk hres hval

/-! ## A run -/

/-- Only the application's dump is there and named. -/
def applicationOnly : BackupManifest where
  backupId := "b"
  migrationRevisions := .ofList [("application", "r")]
  databaseDumps := .ofList [("application", "a.dump")]
  databaseDumpSha256 := .ofList [("application", StdLib.sample.sha256 [])]
  objects := []

def applicationOnlyRequest : RestoreRequest where
  backupDir := ⟨true, some applicationOnly, (FileTree.empty.put ["a.dump"] []).getD .empty⟩
  targetDatabaseUrl := "postgresql://u:p@a/d"
  targetCheckpointDatabaseUrl := "postgresql://u:p@b/d"
  targetObjectRoot := .missing
  confirmed := true

theorem application_only_checked :
    preflight .sample applicationOnlyRequest =
      .ok ⟨applicationOnly, ⟨"a", "5432", "u", "p", "d"⟩, ⟨"b", "5432", "u", "p", "d"⟩⟩ := by
  decide +kernel

/-- The application's database is restored, and then the checkpoint dump is missing. -/
theorem restored_before_validated : ¬ ValidatesFirst .sample applicationOnlyRequest :=
  command_before_missing application_only_checked ⟨by decide +kernel, by decide +kernel, by decide +kernel⟩

end BidScope.L9
