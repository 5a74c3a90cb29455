import BidScope.Core.Links
import BidScope.L5Snapshots.Store
import BidScope.L9Storage.Paths

/-!
# Snapshot bundles on disk

`inspect_bundle` of snapshots/adapters.py over a file tree with links: the
manifest at the root of the bundle, the files it declares, and the listing that
looks for files it does not. The two directions are checked apart:

* a declared name is looked up after `_contains_symlink` and `_safe_relative`;
* the listing takes every path below the root that it comes by and that is a
  file, a link to one included, unless its last name is `manifest.json`.

`declaredCheck_passes`, `inspectFiles_valid` and `inspectBundle_valid` say what
either lets through; `inspectBundle_consistent`: an inspection reports a bundle
valid when it names no error.

`Access` is what the file system refuses: a directory without read permission
is passed over by the listing, one without search permission makes `stat` fail
on all that is in it, and so do names that are too long.
-/
namespace BidScope.L9

open BidScope.L1 BidScope.L5

/-! ## The manifest -/

/-- A `SnapshotManifest` with its declared files, name and SHA-256.
mirrors domain/snapshots.py:156-177 -/
structure BundleManifest where
  manifest : SnapshotManifest
  files : Dict String String

/-- An entry of `ValidationError.errors()`. -/
structure FieldError where
  loc : List String
  type : String
  msg : String

/-- What `model_validate` raises; it names at least one error. -/
structure ValidationError where
  errors : List FieldError
  named : errors ≠ []

/-- What the bytes of a manifest hold for `json.loads`. -/
inductive Loaded (Obj : Type) where
  | notJson (error : String)
  | notObject
  | object (raw : Obj)

/-- What `scandir` of a directory gives to `Path.rglob`: the names in it; none,
where it cannot be opened; or an `OSError` while they are read. -/
inductive Scan where
  | names
  | nothing
  | raises
  deriving DecidableEq

/-- What the file system refuses. -/
structure Access where
  scan : List String → Scan := fun _ => .names
  /-- `stat` of the path fails, with an error that `pathlib` does not take for
  the absence of a file -/
  stat : List String → Bool := fun _ => false
  /-- and `lstat` -/
  lstat : List String → Bool := fun _ => false

/-- Nothing is refused. -/
structure Access.Granted (acc : Access) : Prop where
  scan : ∀ p, acc.scan p = .names
  stat : ∀ p, acc.stat p = false
  lstat : ∀ p, acc.lstat p = false

/-- What `inspect_bundle` takes from the libraries, from `SnapshotManifest` and
from the file system. -/
structure BundleLib (Obj : Type) where
  /-- `hashlib.sha256(…).hexdigest()` -/
  sha256 : Bytes → String
  lower : String → String
  loads : Bytes → Loaded Obj
  /-- `raw.get("bundle_id")`, where that is a string -/
  bundleId : Obj → Option String
  /-- `SnapshotManifest.model_validate` -/
  validate : Obj → Except ValidationError BundleManifest
  /-- the text of the `OSError` that the path raises -/
  osError : List String → String
  access : Access := {}

variable {Obj : Type} (lib : BundleLib Obj)

/-- `needle in text` -/
def within (needle text : String) : Bool := decide (needle.toList <:+: text.toList)

/-- Parts of a message, one of which names the violation, and its code.
mirrors snapshots/adapters.py:91-110 -/
def valueErrorCodes : List (List String × String) :=
  [(["requires a data_contract"], "missing_data_contract"),
    (["review_status must be approved"], "authorization_not_approved"),
    (["legacy admission register"], "legacy_schema_not_allowed"),
    (["schema_version 2"], "invalid_data_contract"),
    (["source=synthetic_demo", "synthetic_demo bundles"], "source_capture_mismatch"),
    (["HTTPS", "example.invalid"], "invalid_source_url"),
    (["timezone-aware"], "invalid_timestamp"),
    (["SHA-256"], "invalid_file_hash")]

/-- mirrors snapshots/adapters.py:86-118 -/
def errorCode (e : FieldError) : String :=
  if e.type = "value_error" then
    match valueErrorCodes.find? fun row => row.1.any (within · e.msg) with
    | some row => row.2
    | none => if within "official" (lib.lower e.msg) then "invalid_source_url" else "invalid_manifest_field"
  else if e.type = "missing" then "missing_manifest_field"
  else if within "enum" e.type then "invalid_enum_value"
  else "invalid_manifest_field"

/-- mirrors snapshots/adapters.py:76-120 -/
def convertManifestErrors (error : ValidationError) : List InspectionError :=
  error.errors.map fun e =>
    let loc := joinWith "." e.loc
    ⟨errorCode lib e, loc ++ ": " ++ e.msg, if loc = "" then none else some loc⟩

/-! ## Declared names -/

variable (acc : Access) (d : Disk Bytes) (root : List String)

def belowRoot (path : List String) : Option (List String) :=
  if root.isPrefixOf path then some (path.drop root.length) else none

/-- `raw_path.relative_to(base).parts` of `raw_path = base / candidate`; a name
with a leading slash replaces the base, and two slashes are a root of their own. -/
def relativeParts (candidate : String) : Option (List String) :=
  match candidate.toList with
  | '/' :: '/' :: '/' :: _ => belowRoot root (parts candidate)
  | '/' :: '/' :: _ => none
  | '/' :: _ => belowRoot root (parts candidate)
  | _ => some (parts candidate)

/-- `is_symlink` of one path after the other; `none` is an `OSError`. -/
def anyLink : List (List String) → Option Bool
  | [] => some false
  | q :: qs =>
    if acc.lstat q then none
    else if Disk.isLink (d.lstat q) then some true
    else anyLink qs

/-- mirrors snapshots/adapters.py:60-73 -/
def containsSymlink (candidate : String) : Option Bool :=
  match relativeParts root candidate with
  | none => some false
  | some ps => anyLink acc d ((ps.inits.filter (· ≠ [])).map (root ++ ·))

/-- The candidate starts with a slash. -/
def isAbsolute (candidate : String) : Bool := candidate.toList.head? = some '/'

/-- The outer `none` is the `RuntimeError` of `resolve` on a loop of links.
mirrors snapshots/adapters.py:45-57 -/
def safeRelative (candidate : String) : Option (Option (List String)) :=
  if ".." ∈ segments candidate ∨ isAbsolute candidate then some none
  else
    match d.realpath (root ++ parts candidate), d.realpath root with
    | some resolved, some base => some (if base.isPrefixOf resolved then some resolved else none)
    | _, _ => none

/-- What the loop over the declared files notes for one of them. -/
structure Check where
  name : String
  actual : Option String
  error : Option InspectionError

/-- A check that fails before the file is read. -/
def failed (name code message : String) : Check := ⟨name, none, some ⟨code, message ++ name, some name⟩⟩

def invalidFileType (name : String) : Check :=
  failed name "invalid_file_type" "declared file must be a regular file, got: "

/-- `none` is an exception: a loop of links, or an `OSError` of `is_symlink` or
`exists`. mirrors snapshots/adapters.py:203-249 -/
def declaredCheck (name expected : String) : Option Check :=
  match containsSymlink lib.access d root name with
  | none => none
  | some true => some (invalidFileType name)
  | some false =>
    match safeRelative d root name with
    | none => none
    | some none => some (failed name "invalid_path" "declared file escapes bundle: ")
    | some (some target) =>
      if lib.access.stat target then none
      else
        match d.stat target with
        | none => some (failed name "missing_file" "declared file missing: ")
        | some (.file (.regular none)) =>
          let message := "could not read declared file " ++ name ++ ": " ++ lib.osError target
          some ⟨name, none, some ⟨"file_read_error", message, some name⟩⟩
        | some (.file (.regular (some bytes))) =>
          let actual := lib.sha256 bytes
          if lib.lower actual ≠ lib.lower expected then
            some ⟨name, some actual, some ⟨"snapshot_integrity_error", "hash mismatch for " ++ name, some name⟩⟩
          else some ⟨name, some actual, none⟩
        | some _ => some (invalidFileType name)

/-! ## The bundle -/

/-- The name of the manifest, and the one name the listing passes over. -/
def manifestName : String := "manifest.json"

/-- `path.name` -/
def lastName (path : List String) : String := path.getLast?.getD ""

/-- The order of paths: by their parts. -/
def sortsBefore (p q : List String) : Bool := !q.lex p (· < ·)

/-- Each directory from the root down to the path gives its names. -/
def comesBy (p : List String) : Bool :=
  (p.drop root.length).dropLast.inits.all fun q => acc.scan (root ++ q) = .names

/-- `bundle_path.rglob("*")`: a directory that cannot be opened is passed over. -/
def listing : List (List String) := (d.below root).filter (comesBy acc root)

/-- The path that enumerating the bundle fails at: `is_file`, or a directory
whose names cannot be read. -/
def enumerationError : Option (List String) :=
  (root :: listing acc d root).find? fun p => acc.stat p || d.tree.isDir p && acc.scan p = .raises

/-- mirrors snapshots/adapters.py:191-193 -/
def payloadFiles : List (List String) :=
  ((listing acc d root).filter fun p => d.isFile p && lastName p ≠ manifestName).mergeSort sortsBefore

def unexpectedFile (payload : List String) : InspectionError :=
  ⟨"unexpected_file", "undeclared payload file: " ++ lastName payload, some (lastName payload)⟩

/-- The errors of both loops.
mirrors snapshots/adapters.py:251-260 -/
def fileErrors (checks : List Check) (targets : List (Option (List String))) : List InspectionError :=
  checks.filterMap (·.error) ++ ((payloadFiles acc d root).filter fun p => some p ∉ targets).map unexpectedFile

/-- mirrors snapshots/adapters.py:262-271 -/
def concluded (m : BundleManifest) (manifestSha256 : String) (checks : List Check)
    (errors : List InspectionError) : InspectionResult where
  valid := errors.isEmpty
  bundleId := some m.manifest.bundleId
  errors := errors
  actualHashes := checks.filterMap fun c => c.actual.map fun hash => (c.name, hash)
  manifestSha256 := some manifestSha256
  manifest := if errors.isEmpty then some m.manifest else none

/-- A result that quarantines the bundle. -/
def quarantined (errors : List InspectionError) (manifestSha256 bundleId : Option String) : InspectionResult where
  valid := false
  bundleId := bundleId
  errors := errors
  actualHashes := []
  manifestSha256 := manifestSha256
  manifest := none

/-- mirrors snapshots/adapters.py:188-271 -/
def inspectFiles (m : BundleManifest) (manifestSha256 : String) : Option InspectionResult :=
  match enumerationError lib.access d root with
  | some p =>
    some (quarantined [⟨"bundle_read_error", "could not enumerate bundle: " ++ lib.osError p, none⟩]
      (some manifestSha256) (some m.manifest.bundleId))
  | none => do
    let checks ← m.files.entries.mapM fun e => declaredCheck lib d root e.1 e.2
    let targets ← m.files.keys.mapM (safeRelative d root)
    return concluded m manifestSha256 checks (fileErrors lib.access d root checks targets)

/-- `read_bytes()`: a directory or a special node cannot be read. -/
def readBytes : Option (Entry (Leaf Bytes)) → Option Bytes
  | some (.file (.regular content)) => content
  | _ => none

/-- `none` is an exception: a `RuntimeError` over a loop of links, or an
`OSError` of `exists` or `is_symlink`.
mirrors snapshots/adapters.py:123-271 -/
def inspectBundle (bundlePath : List String) : Option InspectionResult := do
  let root ← d.realpath bundlePath
  let manifestFile := root ++ [manifestName]
  if lib.access.stat manifestFile then
    none
  else if (d.stat manifestFile).isNone then
    return quarantined [⟨"missing_manifest", "manifest.json not found", none⟩] none none
  else if lib.access.lstat manifestFile then
    none
  else if Disk.isLink (d.lstat manifestFile) then
    return quarantined [⟨"invalid_file_type", "manifest.json must be a regular file", none⟩] none none
  else
    match readBytes (d.stat manifestFile) with
    | none =>
      return quarantined [⟨"manifest_read_error", "could not read manifest.json: " ++ lib.osError manifestFile, none⟩]
        none none
    | some bytes =>
      match lib.loads bytes with
      | .notJson error =>
        return quarantined [⟨"invalid_manifest", "manifest.json is not valid JSON: " ++ error, none⟩]
          (some (lib.sha256 bytes)) none
      | .notObject =>
        return quarantined [⟨"invalid_manifest", "manifest.json must be a JSON object", none⟩]
          (some (lib.sha256 bytes)) none
      | .object raw =>
        match lib.validate raw with
        | .error error =>
          return quarantined (convertManifestErrors lib error) (some (lib.sha256 bytes)) (lib.bundleId raw)
        | .ok m => inspectFiles lib d root m (lib.sha256 bytes)

/-! ## What a check lets through -/

variable {lib acc d root} {name expected : String}

/-- The name goes down from the root to a file with the declared hash. -/
structure Verified (lib : BundleLib Obj) (d : Disk Bytes) (root : List String) (name expected : String) : Prop where
  down : ".." ∉ segments name
  relative : ¬ isAbsolute name = true
  file : ∃ bytes, d.node (root ++ parts name) = some (.file (.regular (some bytes))) ∧
    lib.lower (lib.sha256 bytes) = lib.lower expected

/-- The file system lets the name be looked up. -/
structure LookedUp (acc : Access) (root : List String) (name : String) : Prop where
  lstat : ∀ q, q <+: parts name → q ≠ [] → acc.lstat (root ++ q) = false
  stat : acc.stat (root ++ parts name) = false

theorem Access.Granted.lookedUp (h : acc.Granted) : LookedUp acc root name :=
  ⟨fun _ _ _ => h.lstat _, h.stat _⟩

theorem parts_ordinary (h : ".." ∉ segments name) : ∀ s ∈ parts name, Ordinary s := fun _ hs =>
  ⟨(parts_names hs).ne, (parts_names hs).dot, fun hup => h (hup ▸ (List.mem_filter.mp hs).1)⟩

theorem relativeParts_relative (h : ¬ isAbsolute name = true) : relativeParts root name = some (parts name) := by
  unfold isAbsolute at h
  unfold relativeParts
  split
  · next heq => exact absurd (by rw [heq]; rfl) h
  · next heq => exact absurd (by rw [heq]; rfl) h
  · next heq => exact absurd (by rw [heq]; rfl) h
  · rfl

/-- `lstat` on every step of a way without links finds no link, and conversely. -/
theorem noLink_iff (hroot : d.Plain root) : ∀ ps : List String, (∀ s ∈ ps, Ordinary s) →
    ((∀ q, q <+: ps → q ≠ [] → Disk.isLink (d.lstat (root ++ q)) = false) ↔ d.Plain (root ++ ps)) := by
  intro ps
  induction ps using List.reverseRecOn with
  | nil =>
    intro _
    rw [List.append_nil]
    exact iff_of_true (fun q hq hne => absurd (List.prefix_nil.mp hq) hne) hroot
  | append_singleton ps s ih =>
    intro hnames
    have hs : Ordinary s := hnames s (by simp)
    have hinit := ih fun x hx => hnames x (List.mem_append_left _ hx)
    rw [← List.append_assoc]
    constructor
    · intro h
      have hplain := hinit.mp fun q hq => h q (hq.trans (List.prefix_append ps [s]))
      have hlast := h (ps ++ [s]) (List.prefix_refl _) (by simp)
      rw [← List.append_assoc, Disk.lstat_of_plain hplain hs] at hlast
      exact hplain.snoc hs hlast
    · intro h q hq hne
      have hplain : d.Plain (root ++ ps) := h.of_isPrefix (List.prefix_append _ _)
      rcases List.prefix_concat_iff.mp hq with rfl | hq
      · rw [← List.append_assoc, Disk.lstat_of_plain hplain hs]
        exact h.links _ (List.prefix_refl _)
      · exact hinit.mpr hplain q hq hne

theorem anyLink_false : ∀ {qs : List (List String)}, anyLink acc d qs = some false ↔
    ∀ q ∈ qs, acc.lstat q = false ∧ Disk.isLink (d.lstat q) = false
  | [] => by simp [anyLink]
  | q :: qs => by
    rw [anyLink, List.forall_mem_cons]
    by_cases hrefused : acc.lstat q = true
    · simp [hrefused]
    · by_cases hlink : Disk.isLink (d.lstat q) = true
      · simp [hrefused, hlink]
      · simp only [hrefused, hlink, if_false, anyLink_false, Bool.false_eq_true, and_self, true_and]

theorem containsSymlink_iff (hroot : d.Plain root) (hup : ".." ∉ segments name) (hrel : ¬ isAbsolute name = true) :
    containsSymlink acc d root name = some false ↔
      d.Plain (root ++ parts name) ∧ ∀ q, q <+: parts name → q ≠ [] → acc.lstat (root ++ q) = false := by
  rw [← noLink_iff hroot (parts name) (parts_ordinary hup)]
  simp only [containsSymlink, relativeParts_relative hrel, anyLink_false, List.forall_mem_map, List.mem_filter,
    List.mem_inits, decide_eq_true_eq]
  constructor
  · intro h
    exact ⟨fun q hq hne => (h q ⟨hq, hne⟩).2, fun q hq hne => (h q ⟨hq, hne⟩).1⟩
  · rintro ⟨hlink, hlstat⟩ q ⟨hq, hne⟩
    exact ⟨hlstat q hq hne, hlink q hq hne⟩

theorem safeRelative_plain (hroot : d.Plain root) (hup : ".." ∉ segments name) (hrel : ¬ isAbsolute name = true)
    (hplain : d.Plain (root ++ parts name)) : safeRelative d root name = some (some (root ++ parts name)) := by
  have hbelow : root.isPrefixOf (root ++ parts name) = true :=
    List.isPrefixOf_iff_prefix.mpr (List.prefix_append _ _)
  rw [safeRelative, if_neg (fun h => h.elim hup hrel), Disk.realpath_of_plain hplain, Disk.realpath_of_plain hroot]
  simp only [hbelow, if_true]

theorem safeRelative_refused (h : ".." ∈ segments name ∨ isAbsolute name = true) :
    safeRelative d root name = some none := if_pos h

theorem Verified.plain (h : Verified lib d root name expected) : d.Plain (root ++ parts name) := by
  obtain ⟨bytes, hnode, -⟩ := h.file
  exact Disk.plain_of_node (by rw [hnode]; nofun) (by rw [hnode]; rfl)

/-- A declared file passes exactly when it is there, as declared, and the file
system lets it be looked up. -/
theorem declaredCheck_passes (hroot : d.Plain root) :
    (∃ c, declaredCheck lib d root name expected = some c ∧ c.error = none) ↔
      Verified lib d root name expected ∧ LookedUp lib.access root name := by
  constructor
  · rintro ⟨c, hc, herror⟩
    unfold declaredCheck at hc
    split at hc
    · cases hc
    · obtain rfl := Option.some.inj hc
      cases herror
    · next hlink =>
      by_cases hrefused : ".." ∈ segments name ∨ isAbsolute name = true
      · rw [safeRelative_refused hrefused] at hc
        obtain rfl := Option.some.inj hc
        cases herror
      · obtain ⟨hup, hrel⟩ := not_or.mp hrefused
        obtain ⟨hplain, hlstat⟩ := (containsSymlink_iff hroot hup hrel).mp hlink
        rw [safeRelative_plain hroot hup hrel hplain] at hc
        simp only [Disk.stat_of_plain hplain] at hc
        split at hc
        · cases hc
        · next hstat =>
          have hlooked : LookedUp lib.access root name := ⟨hlstat, Bool.eq_false_of_not_eq_true hstat⟩
          split at hc
          · obtain rfl := Option.some.inj hc
            cases herror
          · obtain rfl := Option.some.inj hc
            cases herror
          · next bytes hnode =>
            split at hc
            · obtain rfl := Option.some.inj hc
              cases herror
            · next hhash => exact ⟨⟨hup, hrel, bytes, hnode, of_not_not hhash⟩, hlooked⟩
          · obtain rfl := Option.some.inj hc
            cases herror
  · rintro ⟨h, hlooked⟩
    obtain ⟨bytes, hnode, hhash⟩ := h.file
    have hlink : containsSymlink lib.access d root name = some false :=
      (containsSymlink_iff hroot h.down h.relative).mpr ⟨h.plain, hlooked.lstat⟩
    refine ⟨⟨name, some (lib.sha256 bytes), none⟩, ?_, rfl⟩
    rw [declaredCheck, hlink]
    simp only [safeRelative_plain hroot h.down h.relative h.plain, hlooked.stat, Disk.stat_of_plain h.plain, hnode,
      hhash, ne_eq, not_true_eq_false, if_false, Bool.false_eq_true]

/-! ## What an inspection lets through -/

theorem mapM_some {α β : Type} {f : α → Option β} : ∀ {l : List α} {r : List β},
    l.mapM f = some r ↔ l.map f = r.map some
  | [], r => by cases r <;> simp
  | a :: l, r => by
    cases ha : f a with
    | none => cases r <;> simp [List.mapM_cons, ha]
    | some b =>
      cases hl : l.mapM f with
      | none =>
        have hno : ∀ r' : List β, l.map f ≠ r'.map some := fun r' h => by
          rw [mapM_some.mpr h] at hl
          cases hl
        cases r <;> simp [List.mapM_cons, ha, hl, hno]
      | some bs =>
        have hbs := mapM_some.mp hl
        cases r with
        | nil => simp [List.mapM_cons, ha, hl]
        | cons b' r' =>
          have hinj : bs.map some = r'.map some ↔ bs = r' := List.map_inj_right fun _ _ => Option.some.inj
          simp [List.mapM_cons, ha, hl, hbs, hinj]

theorem mem_mapM {α β : Type} {f : α → Option β} {l : List α} {r : List β} (h : l.mapM f = some r) {b : β} :
    b ∈ r ↔ ∃ a ∈ l, f a = some b := by
  rw [← List.mem_map (f := f), mapM_some.mp h, List.mem_map]
  simp

theorem mapM_exists {α β : Type} {f : α → Option β} : ∀ {l : List α}, (∀ a ∈ l, ∃ b, f a = some b) →
    ∃ r, l.mapM f = some r
  | [], _ => ⟨[], rfl⟩
  | a :: l, h => by
    obtain ⟨b, hb⟩ := h a (List.mem_cons_self ..)
    obtain ⟨r, hr⟩ := mapM_exists fun x hx => h x (List.mem_cons_of_mem _ hx)
    exact ⟨b :: r, by simp [List.mapM_cons, hb, hr]⟩

variable {m : BundleManifest} {sha : String} {r : InspectionResult}

theorem Access.Granted.comesBy (h : acc.Granted) (p : List String) : comesBy acc root p = true :=
  List.all_eq_true.mpr fun q _ => decide_eq_true (h.scan (root ++ q))

theorem Access.Granted.enumerationError (h : acc.Granted) : enumerationError acc d root = none := by
  refine List.find?_eq_none.mpr fun p _ => ?_
  rw [h.stat, h.scan]
  simp

theorem mem_payloadFiles {p : List String} : p ∈ payloadFiles acc d root ↔
    p ∈ d.below root ∧ comesBy acc root p = true ∧ d.isFile p = true ∧ lastName p ≠ manifestName := by
  rw [payloadFiles, List.mem_mergeSort, List.mem_filter, listing, List.mem_filter, Bool.and_eq_true,
    decide_eq_true_eq, and_assoc]

/-- Where the bundle can be enumerated, its files are gone through. -/
theorem inspectFiles_spec (henum : enumerationError lib.access d root = none) :
    inspectFiles lib d root m sha = some r ↔
      ∃ checks targets, m.files.entries.mapM (fun e => declaredCheck lib d root e.1 e.2) = some checks ∧
        m.files.keys.mapM (safeRelative d root) = some targets ∧
        r = concluded m sha checks (fileErrors lib.access d root checks targets) := by
  simp only [inspectFiles, henum, bind, Option.bind_eq_some_iff, pure, Option.some.injEq, eq_comm (a := r),
    exists_and_left]

/-- An enumeration that fails quarantines. -/
theorem enumerated_of_valid (h : inspectFiles lib d root m sha = some r) (hvalid : r.valid = true) :
    enumerationError lib.access d root = none := by
  cases henum : enumerationError lib.access d root with
  | none => rfl
  | some p =>
    rw [inspectFiles, henum] at h
    obtain rfl := Option.some.inj h
    cases hvalid

theorem fileErrors_nil {checks : List Check} {targets : List (Option (List String))} :
    fileErrors acc d root checks targets = [] ↔
      (∀ c ∈ checks, c.error = none) ∧ ∀ p ∈ payloadFiles acc d root, some p ∈ targets := by
  simp only [fileErrors, List.append_eq_nil_iff, List.filterMap_eq_nil_iff, List.map_eq_nil_iff,
    List.filter_eq_nil_iff, decide_not, Bool.not_eq_true', decide_eq_false_iff_not, not_not]

/-- A bundle passes when it can be enumerated, every declared file passes and
the listing finds no other file, but for the one name it passes over. -/
theorem inspectFiles_valid (hroot : d.Plain root) :
    (∃ r, inspectFiles lib d root m sha = some r ∧ r.valid = true) ↔
      enumerationError lib.access d root = none ∧
        (∀ e ∈ m.files.entries, Verified lib d root e.1 e.2 ∧ LookedUp lib.access root e.1) ∧
          ∀ p ∈ payloadFiles lib.access d root, ∃ e ∈ m.files.entries, p = root ++ parts e.1 := by
  have htarget : ∀ e : String × String, Verified lib d root e.1 e.2 →
      safeRelative d root e.1 = some (some (root ++ parts e.1)) :=
    fun e h => safeRelative_plain hroot h.down h.relative h.plain
  constructor
  · rintro ⟨r, hr, hvalid⟩
    have henum := enumerated_of_valid hr hvalid
    obtain ⟨checks, targets, hchecks, htargets, rfl⟩ := (inspectFiles_spec henum).mp hr
    obtain ⟨herrors, hlisted⟩ := fileErrors_nil.mp (List.isEmpty_iff.mp hvalid)
    have hverified : ∀ e ∈ m.files.entries,
        Verified lib d root e.1 e.2 ∧ LookedUp lib.access root e.1 := fun e he => by
      obtain ⟨c, hc⟩ : ∃ c, declaredCheck lib d root e.1 e.2 = some c := by
        have hmem : declaredCheck lib d root e.1 e.2 ∈ checks.map some :=
          mapM_some.mp hchecks ▸ List.mem_map_of_mem he
        obtain ⟨c, -, hc⟩ := List.mem_map.mp hmem
        exact ⟨c, hc.symm⟩
      exact (declaredCheck_passes hroot).mp ⟨c, hc, herrors c ((mem_mapM hchecks).mpr ⟨e, he, hc⟩)⟩
    refine ⟨henum, hverified, fun p hp => ?_⟩
    obtain ⟨name, hname, htarget'⟩ := (mem_mapM htargets).mp (hlisted p hp)
    obtain ⟨e, he, rfl⟩ := List.mem_map.mp hname
    exact ⟨e, he, Option.some.inj (Option.some.inj (htarget'.symm.trans (htarget e (hverified e he).1)))⟩
  · rintro ⟨henum, hverified, hlisted⟩
    have hpasses := fun e he => (declaredCheck_passes hroot).mpr (hverified e he)
    obtain ⟨checks, hchecks⟩ := mapM_exists (f := fun e : String × String => declaredCheck lib d root e.1 e.2)
      fun e he => (hpasses e he).imp fun c hc => hc.1
    obtain ⟨targets, htargets⟩ := mapM_exists (l := m.files.keys) (f := safeRelative d root) fun name hname => by
      obtain ⟨e, he, rfl⟩ := List.mem_map.mp hname
      exact ⟨_, htarget e (hverified e he).1⟩
    refine ⟨_, (inspectFiles_spec henum).mpr ⟨checks, targets, hchecks, htargets, rfl⟩, ?_⟩
    refine List.isEmpty_iff.mpr (fileErrors_nil.mpr ⟨fun c hc => ?_, fun p hp => ?_⟩)
    · obtain ⟨e, he, hce⟩ := (mem_mapM hchecks).mp hc
      obtain ⟨c', hc', herror⟩ := hpasses e he
      obtain rfl := Option.some.inj (hce.symm.trans hc')
      exact herror
    · obtain ⟨e, he, rfl⟩ := hlisted p hp
      exact (mem_mapM htargets).mpr ⟨e.1, List.mem_map_of_mem he, htarget e (hverified e he).1⟩

/-- The manifest of the bundle: a file of its own at the root that parses. -/
structure ManifestAt (lib : BundleLib Obj) (d : Disk Bytes) (root : List String) (bytes : Bytes)
    (m : BundleManifest) : Prop where
  node : d.node (root ++ [manifestName]) = some (.file (.regular (some bytes)))
  parses : ∃ raw, lib.loads bytes = .object raw ∧ lib.validate raw = .ok m

/-- The file system lets the manifest be looked at. -/
structure ManifestSeen (acc : Access) (root : List String) : Prop where
  stat : acc.stat (root ++ [manifestName]) = false
  lstat : acc.lstat (root ++ [manifestName]) = false

theorem Access.Granted.manifestSeen (h : acc.Granted) : ManifestSeen acc root := ⟨h.stat _, h.lstat _⟩

theorem manifest_ordinary : Ordinary manifestName := ⟨by decide, by decide, by decide⟩

/-- An inspection gets to the files of a bundle by its manifest only. -/
theorem inspectBundle_valid {path : List String} :
    (∃ r, inspectBundle lib d path = some r ∧ r.valid = true) ↔
      ∃ root m bytes, d.realpath path = some root ∧ ManifestAt lib d root bytes m ∧
        ManifestSeen lib.access root ∧ ∃ r, inspectFiles lib d root m (lib.sha256 bytes) = some r ∧ r.valid = true := by
  constructor
  · rintro ⟨r, hr, hvalid⟩
    obtain ⟨root, hroot, hr⟩ := Option.bind_eq_some_iff.mp hr
    dsimp only at hr
    have hplain := Disk.realpath_plain hroot
    have hlstat := Disk.lstat_of_plain hplain manifest_ordinary
    split at hr
    · cases hr
    · next hseen =>
      split at hr
      · obtain rfl := Option.some.inj hr
        cases hvalid
      · split at hr
        · cases hr
        · next hlseen =>
          have hmanifest : ManifestSeen lib.access root :=
            ⟨Bool.eq_false_of_not_eq_true hseen, Bool.eq_false_of_not_eq_true hlseen⟩
          split at hr
          · obtain rfl := Option.some.inj hr
            cases hvalid
          · next hlink =>
            have hfile : d.Plain (root ++ [manifestName]) :=
              hplain.snoc manifest_ordinary (by rw [← hlstat]; exact Bool.eq_false_of_not_eq_true hlink)
            rw [Disk.stat_of_plain hfile] at hr
            split at hr
            · obtain rfl := Option.some.inj hr
              cases hvalid
            · next bytes hbytes =>
              have hnode : d.node (root ++ [manifestName]) = some (.file (.regular (some bytes))) := by
                unfold readBytes at hbytes
                split at hbytes
                · next hnode => rw [hnode, hbytes]
                · cases hbytes
              split at hr
              · obtain rfl := Option.some.inj hr
                cases hvalid
              · obtain rfl := Option.some.inj hr
                cases hvalid
              · next raw hraw =>
                split at hr
                · obtain rfl := Option.some.inj hr
                  cases hvalid
                · next m hm => exact ⟨root, m, bytes, hroot, ⟨hnode, raw, hraw, hm⟩, hmanifest, r, hr, hvalid⟩
  · rintro ⟨root, m, bytes, hroot, hmanifest, hseen, r, hr, hvalid⟩
    obtain ⟨raw, hraw, hm⟩ := hmanifest.parses
    have hplain := Disk.realpath_plain hroot
    have hlstat := Disk.lstat_of_plain hplain manifest_ordinary
    have hfile : d.Plain (root ++ [manifestName]) :=
      Disk.plain_of_node (by rw [hmanifest.node]; nofun) (by rw [hmanifest.node]; rfl)
    have hstat := Disk.stat_of_plain hfile
    rw [hmanifest.node] at hlstat hstat
    refine ⟨r, ?_, hvalid⟩
    simp only [inspectBundle, hroot, hseen.stat, hseen.lstat, hlstat, hstat, readBytes, Disk.isLink, bind,
      Option.bind_some, Option.isNone_some, Bool.false_eq_true, if_false, hraw, hm, hr]

/-- A result is valid when it names no error, and only then hands on a manifest. -/
structure Consistent (r : InspectionResult) : Prop where
  valid : r.valid = true ↔ r.errors = []
  manifest : r.manifest.isSome = true ↔ r.valid = true

theorem consistent_quarantined {errors : List InspectionError} {hash id : Option String} (h : errors ≠ []) :
    Consistent (quarantined errors hash id) :=
  ⟨iff_of_false Bool.false_ne_true h, Iff.rfl⟩

theorem consistent_concluded {checks : List Check} (errors : List InspectionError) :
    Consistent (concluded m sha checks errors) := by
  cases errors with
  | nil => exact ⟨iff_of_true rfl rfl, iff_of_true rfl rfl⟩
  | cons e errors => exact ⟨iff_of_false Bool.false_ne_true (List.cons_ne_nil _ _), Iff.rfl⟩

theorem inspectFiles_consistent (h : inspectFiles lib d root m sha = some r) : Consistent r := by
  cases henum : enumerationError lib.access d root with
  | some p =>
    rw [inspectFiles, henum] at h
    obtain rfl := Option.some.inj h
    exact consistent_quarantined (List.cons_ne_nil _ _)
  | none =>
    obtain ⟨checks, targets, -, -, rfl⟩ := (inspectFiles_spec henum).mp h
    exact consistent_concluded _

theorem inspectBundle_consistent {path : List String} (h : inspectBundle lib d path = some r) : Consistent r := by
  obtain ⟨root, -, h⟩ := Option.bind_eq_some_iff.mp h
  dsimp only at h
  split at h
  · cases h
  · split at h
    · obtain rfl := Option.some.inj h
      exact consistent_quarantined (List.cons_ne_nil _ _)
    · split at h
      · cases h
      · split at h
        · obtain rfl := Option.some.inj h
          exact consistent_quarantined (List.cons_ne_nil _ _)
        · split at h
          · obtain rfl := Option.some.inj h
            exact consistent_quarantined (List.cons_ne_nil _ _)
          · split at h
            · obtain rfl := Option.some.inj h
              exact consistent_quarantined (List.cons_ne_nil _ _)
            · obtain rfl := Option.some.inj h
              exact consistent_quarantined (List.cons_ne_nil _ _)
            · split at h
              · next error _ =>
                obtain rfl := Option.some.inj h
                exact consistent_quarantined fun hnil => error.named (List.map_eq_nil_iff.mp hnil)
              · exact inspectFiles_consistent h

end BidScope.L9
