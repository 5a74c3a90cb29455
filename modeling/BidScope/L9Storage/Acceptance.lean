import BidScope.L9Storage.Bundles

/-!
# Which bundles are accepted

A bundle is `Complete` when its declared files are exactly the files below the
root, but for the root manifest, each reached inside the bundle over no link
and with its declared hash.

**Acceptance (`acceptance_iff`).** `inspect_bundle` accepts the complete bundles
and no others, unless the bundle is of one of two kinds.

* `Overlooked`: all it declares is as declared and what it does not declare is
  named `manifest.json`, below the root, or lies in a directory that cannot be
  listed; the listing leaves the first out by their name, at every depth, and
  passes over the others. `nested_manifest_accepted` has the least of either.
* `Barred`: it is complete and a declared name has a step `..`, which
  `_safe_relative` refuses wherever it leads, or the file system refuses a look.

A link to a file counts as a file, as `Path.is_file` has it, and so an
undeclared one is refused.
-/
namespace BidScope.L9

open BidScope.L1 BidScope.L5

variable {Obj : Type} (lib : BundleLib Obj) (d : Disk Bytes) (root : List String) (m : BundleManifest)

/-! ## Complete bundles -/

/-- Where the steps lead from `done` below the root, through directories and
never above the root. -/
def goesTo : List String → List String → Option (List String)
  | done, [] => some done
  | done, s :: rest =>
    if d.tree.isDir (root ++ done) then
      if s = ".." then (if done = [] then none else goesTo done.dropLast rest)
      else goesTo (done ++ [s]) rest
    else none

/-- The path below the root that a declared name stands for, if it is reached
without leaving the root. -/
def reaches (name : String) : Option (List String) :=
  if isAbsolute name then none else goesTo d root [] (parts name)

/-- The manifest declares the path. -/
def Declares (p : List String) : Prop := ∃ name ∈ m.files.keys, reaches d root name = some p

/-- A file stands at the path below the root. -/
def FileBelow (p : List String) : Prop := root ++ p ∈ d.below root ∧ d.isFile (root ++ p) = true

/-- The name reaches a file of its own with the hash. -/
def Intact (name hash : String) : Prop :=
  ∃ p bytes, reaches d root name = some p ∧ d.node (root ++ p) = some (.file (.regular (some bytes))) ∧
    lib.lower (lib.sha256 bytes) = lib.lower hash

structure Complete : Prop where
  exact : ∀ p, Declares d root m p ↔ FileBelow d root p ∧ p ≠ [manifestName]
  intact : ∀ e ∈ m.files.entries, Intact lib d root e.1 e.2

/-- The file system refuses no look that the inspection takes. -/
structure Examined : Prop where
  manifest : ManifestSeen lib.access root
  listing : enumerationError lib.access d root = none
  declared : ∀ name ∈ m.files.keys, LookedUp lib.access root name

/-- All that is declared is as declared, by names that only go down, and what is
not is named like the manifest or not come by. -/
structure Covered : Prop where
  examined : Examined lib d root m
  intact : ∀ e ∈ m.files.entries, Intact lib d root e.1 e.2
  down : ∀ name ∈ m.files.keys, ".." ∉ segments name
  listed : ∀ p, FileBelow d root p → comesBy lib.access root (root ++ p) = true →
    lastName p ≠ manifestName → Declares d root m p

/-- Of a covered bundle a file below the root is not declared, or the manifest
declares itself. -/
structure Overlooked : Prop extends Covered lib d root m where
  astray : (∃ p, FileBelow d root p ∧ p ≠ [manifestName] ∧ ¬ Declares d root m p) ∨ Declares d root m [manifestName]

/-- A complete bundle with a name that steps up, or one the file system does not
let be examined. -/
structure Barred : Prop where
  barred : (∃ name ∈ m.files.keys, ".." ∈ segments name) ∨ ¬ Examined lib d root m
  complete : Complete lib d root m

/-! ## Where names lead -/

variable {lib d root m} {name hash : String} {p : List String} {bytes : Bytes}

theorem goesTo_down : ∀ (ps done : List String), ".." ∉ ps → goesTo d root done ps = some p → p = done ++ ps
  | [], done, _, h => by
    obtain rfl := Option.some.inj h
    exact (List.append_nil done).symm
  | s :: rest, done, hup, h => by
    obtain ⟨hs, hrest⟩ := List.ne_and_not_mem_of_not_mem_cons hup
    unfold goesTo at h
    split at h
    · rw [if_neg (Ne.symm hs)] at h
      have heq := goesTo_down rest (done ++ [s]) hrest h
      rwa [List.append_assoc] at heq
    · cases h

theorem goesTo_node : ∀ (ps done : List String), ".." ∉ ps → d.node (root ++ done ++ ps) ≠ none →
    goesTo d root done ps = some (done ++ ps)
  | [], done, _, _ => by rw [List.append_nil]; rfl
  | s :: rest, done, hup, hnode => by
    obtain ⟨hs, hrest⟩ := List.ne_and_not_mem_of_not_mem_cons hup
    have hdir : d.tree.isDir (root ++ done) = true :=
      FileTree.isDir_iff.mpr (FileTree.dir_of_below (s :: rest) (List.cons_ne_nil _ _) hnode)
    rw [goesTo, if_pos hdir, if_neg (Ne.symm hs), goesTo_node rest (done ++ [s]) hrest (by simpa using hnode),
      List.append_assoc]
    rfl

theorem up_parts : ".." ∈ parts name ↔ ".." ∈ segments name := by
  rw [parts, List.mem_filter]
  exact and_iff_left (by decide)

theorem relative_of_reaches (h : reaches d root name = some p) :
    ¬ isAbsolute name = true ∧ goesTo d root [] (parts name) = some p := by
  unfold reaches at h
  split at h
  · cases h
  · next hrel => exact ⟨hrel, h⟩

theorem reaches_down (hup : ".." ∉ segments name) (h : reaches d root name = some p) : p = parts name :=
  goesTo_down (parts name) [] (fun hmem => hup (up_parts.mp hmem)) (relative_of_reaches h).2

theorem Verified.reaches (h : Verified lib d root name hash) : reaches d root name = some (parts name) := by
  obtain ⟨bytes, hnode, -⟩ := h.file
  rw [BidScope.L9.reaches, if_neg h.relative]
  refine goesTo_node (parts name) [] (fun hmem => h.down (up_parts.mp hmem)) ?_
  rw [List.append_nil, hnode]
  nofun

/-- The check of a declared file asks for more than the claim: no step up. -/
theorem verified_iff : Verified lib d root name hash ↔ Intact lib d root name hash ∧ ".." ∉ segments name := by
  constructor
  · intro h
    obtain ⟨bytes, hnode, hhash⟩ := h.file
    exact ⟨⟨parts name, bytes, h.reaches, hnode, hhash⟩, h.down⟩
  · rintro ⟨⟨p, bytes, hreach, hnode, hhash⟩, hup⟩
    obtain rfl := reaches_down hup hreach
    exact ⟨hup, (relative_of_reaches hreach).1, bytes, hnode, hhash⟩

/-! ## The listing -/

theorem lastName_append (hp : p ≠ []) : lastName (root ++ p) = lastName p := by
  rw [lastName, lastName, List.getLast?_append_of_ne_nil _ hp]

theorem fileBelow_ne (h : FileBelow d root p) : p ≠ [] := by
  rintro rfl
  exact (Disk.mem_below.mp h.1).2.1 (List.append_nil root)

theorem mem_payloadFiles_below :
    root ++ p ∈ payloadFiles lib.access d root ↔
      FileBelow d root p ∧ comesBy lib.access root (root ++ p) = true ∧ lastName p ≠ manifestName := by
  rw [mem_payloadFiles]
  constructor
  · rintro ⟨hbelow, hcomes, hfile, hname⟩
    have h : FileBelow d root p := ⟨hbelow, hfile⟩
    exact ⟨h, hcomes, by rwa [lastName_append (fileBelow_ne h)] at hname⟩
  · rintro ⟨h, hcomes, hname⟩
    exact ⟨h.1, hcomes, h.2, by rwa [lastName_append (fileBelow_ne h)]⟩

/-- What a name reaches with its hash stands below the root. -/
theorem Intact.fileBelow (h : Intact lib d root name hash) (hroot : d.node root = some .dir) :
    ∃ p, reaches d root name = some p ∧ FileBelow d root p := by
  obtain ⟨p, bytes, hreach, hnode, -⟩ := h
  have hplain : d.Plain (root ++ p) := Disk.plain_of_node (by rw [hnode]; nofun) (by rw [hnode]; rfl)
  refine ⟨p, hreach, Disk.mem_below.mpr ⟨List.prefix_append _ _, fun heq => ?_, by rw [hnode]; nofun⟩, ?_⟩
  · rw [heq, hroot] at hnode
    cases hnode
  · rw [Disk.isFile, Disk.stat_of_plain hplain, hnode]

theorem ManifestAt.dir (h : ManifestAt lib d root bytes m) : d.node root = some .dir :=
  FileTree.dir_of_snoc (s := manifestName) (by rw [show d.tree.node _ = _ from h.node]; nofun)

/-- A bundle whose manifest parses passes when it is covered. -/
theorem inspectFiles_covered {sha : String} (hroot : d.Plain root) :
    (ManifestSeen lib.access root ∧ ∃ r, inspectFiles lib d root m sha = some r ∧ r.valid = true) ↔
      Covered lib d root m := by
  rw [inspectFiles_valid hroot]
  constructor
  · rintro ⟨hseen, henum, hverified, hlisted⟩
    refine ⟨⟨hseen, henum, fun name hname => ?_⟩, fun e he => (verified_iff.mp (hverified e he).1).1,
      fun name hname => ?_, fun p hp hcomes hname => ?_⟩
    · obtain ⟨e, he, rfl⟩ := List.mem_map.mp hname
      exact (hverified e he).2
    · obtain ⟨e, he, rfl⟩ := List.mem_map.mp hname
      exact (hverified e he).1.down
    · obtain ⟨e, he, heq⟩ := hlisted _ (mem_payloadFiles_below.mpr ⟨hp, hcomes, hname⟩)
      refine ⟨e.1, List.mem_map_of_mem he, ?_⟩
      rw [(hverified e he).1.reaches, List.append_cancel_left heq]
  · intro h
    have hverified : ∀ e ∈ m.files.entries, Verified lib d root e.1 e.2 ∧ LookedUp lib.access root e.1 := fun e he =>
      have hmem := List.mem_map_of_mem he
      ⟨verified_iff.mpr ⟨h.intact e he, h.down e.1 hmem⟩, h.examined.declared e.1 hmem⟩
    refine ⟨h.examined.manifest, h.examined.listing, hverified, fun q hq => ?_⟩
    obtain ⟨p, rfl⟩ := (Disk.mem_below.mp (mem_payloadFiles.mp hq).1).1
    obtain ⟨hp, hcomes, hname⟩ := mem_payloadFiles_below.mp hq
    obtain ⟨name, hmem, hreach⟩ := h.listed p hp hcomes hname
    obtain ⟨e, he, rfl⟩ := List.mem_map.mp hmem
    exact ⟨e, he, by rw [reaches_down (h.down e.1 hmem) hreach]⟩

/-! ## Acceptance -/

/-- `inspect_bundle` reports the bundle at the path valid. -/
def ReportedValid (lib : BundleLib Obj) (d : Disk Bytes) (path : List String) : Prop :=
  ∃ r, inspectBundle lib d path = some r ∧ r.valid = true

/-- The path is that of a complete bundle. -/
def Acceptable (lib : BundleLib Obj) (d : Disk Bytes) (path : List String) : Prop :=
  ∃ root m bytes, d.realpath path = some root ∧ ManifestAt lib d root bytes m ∧ Complete lib d root m

theorem ManifestAt.unique {m' : BundleManifest} {bytes' : Bytes} (h : ManifestAt lib d root bytes m)
    (h' : ManifestAt lib d root bytes' m') : bytes' = bytes ∧ m' = m := by
  have hnode := h'.node.symm.trans h.node
  obtain rfl : bytes' = bytes := by simpa using hnode
  obtain ⟨raw, hraw, hm⟩ := h.parses
  obtain ⟨raw', hraw', hm'⟩ := h'.parses
  obtain rfl : raw' = raw := by simpa using hraw'.symm.trans hraw
  exact ⟨rfl, Except.ok.inj (hm'.symm.trans hm)⟩

theorem Complete.listed (h : Complete lib d root m) (hp : FileBelow d root p) (hname : lastName p ≠ manifestName) :
    Declares d root m p := by
  refine (h.exact p).mpr ⟨hp, ?_⟩
  rintro rfl
  exact hname rfl

/-- A covered bundle lacks completeness by an overlooked file only. -/
theorem Covered.complete_iff (h : Covered lib d root m) (hroot : d.node root = some .dir) :
    Complete lib d root m ↔ ¬ Overlooked lib d root m := by
  constructor
  · intro hc ho
    rcases ho.astray with ⟨p, hp, hne, hno⟩ | hself
    · exact hno ((hc.exact p).mpr ⟨hp, hne⟩)
    · exact ((hc.exact _).mp hself).2 rfl
  · intro ho
    obtain ⟨hfiles, hself⟩ := not_or.mp fun hastray => ho ⟨h, hastray⟩
    refine ⟨fun p => ⟨?_, ?_⟩, h.intact⟩
    · rintro ⟨name, hname, hreach⟩
      refine ⟨?_, fun heq => hself ⟨name, hname, heq ▸ hreach⟩⟩
      obtain ⟨e, he, rfl⟩ := List.mem_map.mp hname
      obtain ⟨q, hq, hbelow⟩ := (h.intact e he).fileBelow hroot
      rwa [Option.some.inj (hreach.symm.trans hq)]
    · rintro ⟨hp, hne⟩
      by_contra hno
      exact hfiles ⟨p, hp, hne, hno⟩

theorem covered_iff_complete (hroot : d.node root = some .dir) :
    (Covered lib d root m ↔ Complete lib d root m) ↔ ¬ Overlooked lib d root m ∧ ¬ Barred lib d root m := by
  constructor
  · intro h
    refine ⟨fun ho => (ho.toCovered.complete_iff hroot).mp (h.mp ho.toCovered) ho, fun hs => ?_⟩
    have hcovered := h.mpr hs.complete
    rcases hs.barred with ⟨name, hname, hup⟩ | hrefused
    · exact hcovered.down name hname hup
    · exact hrefused hcovered.examined
  · rintro ⟨ho, hs⟩
    refine ⟨fun h => (h.complete_iff hroot).mpr ho, fun h => ⟨?_, h.intact, fun name hname hup => ?_, ?_⟩⟩
    · by_contra hrefused
      exact hs ⟨.inr hrefused, h⟩
    · exact hs ⟨.inl ⟨name, hname, hup⟩, h⟩
    · exact fun p hp _ hname => h.listed hp hname

/-- **Acceptance.** `inspect_bundle` reports a bundle valid if and only if it is
complete, exactly when no file is overlooked and no complete bundle is barred. -/
theorem acceptance_iff (lib : BundleLib Obj) (d : Disk Bytes) (path : List String) :
    (ReportedValid lib d path ↔ Acceptable lib d path) ↔
      ∀ root m bytes, d.realpath path = some root → ManifestAt lib d root bytes m →
        ¬ Overlooked lib d root m ∧ ¬ Barred lib d root m := by
  have hvalid : ReportedValid lib d path ↔ ∃ root m bytes, d.realpath path = some root ∧
      ManifestAt lib d root bytes m ∧ Covered lib d root m := by
    refine inspectBundle_valid.trans ?_
    constructor
    · rintro ⟨root, m, bytes, hroot, hm, hr⟩
      exact ⟨root, m, bytes, hroot, hm, (inspectFiles_covered (Disk.realpath_plain hroot)).mp hr⟩
    · rintro ⟨root, m, bytes, hroot, hm, hcovered⟩
      exact ⟨root, m, bytes, hroot, hm, (inspectFiles_covered (Disk.realpath_plain hroot)).mpr hcovered⟩
  rw [hvalid]
  by_cases hmanifest : ∃ root m bytes, d.realpath path = some root ∧ ManifestAt lib d root bytes m
  · obtain ⟨root, m, bytes, hroot, hm⟩ := hmanifest
    -- the path has one root, and that one manifest
    have hunique : ∀ {P : List String → BundleManifest → Prop},
        (∃ root m bytes, d.realpath path = some root ∧ ManifestAt lib d root bytes m ∧ P root m) ↔ P root m := by
      intro P
      constructor
      · rintro ⟨root', m', bytes', hroot', hm', h⟩
        obtain rfl := Option.some.inj (hroot'.symm.trans hroot)
        obtain ⟨rfl, rfl⟩ := hm.unique hm'
        exact h
      · exact fun h => ⟨root, m, bytes, hroot, hm, h⟩
    have hkinds : (∀ root' m' bytes', d.realpath path = some root' → ManifestAt lib d root' bytes' m' →
        ¬ Overlooked lib d root' m' ∧ ¬ Barred lib d root' m') ↔
        ¬ Overlooked lib d root m ∧ ¬ Barred lib d root m := by
      constructor
      · exact fun h => h root m bytes hroot hm
      · intro h root' m' bytes' hroot' hm'
        obtain rfl := Option.some.inj (hroot'.symm.trans hroot)
        obtain ⟨rfl, rfl⟩ := hm.unique hm'
        exact h
    rw [Acceptable, hunique, hunique, hkinds]
    exact covered_iff_complete hm.dir
  · have hno : ∀ {P : List String → BundleManifest → Prop},
        ¬ ∃ root m bytes, d.realpath path = some root ∧ ManifestAt lib d root bytes m ∧ P root m :=
      fun ⟨root, m, bytes, hroot, hm, _⟩ => hmanifest ⟨root, m, bytes, hroot, hm⟩
    exact iff_of_true (iff_of_false hno hno) fun root m bytes hroot hm => absurd ⟨root, m, bytes, hroot, hm⟩ hmanifest

/-! ## Overlooked files -/

/-- A covered bundle that overlooks a file is reported valid. -/
theorem Overlooked.accepted {path : List String} (hroot : d.realpath path = some root)
    (hm : ManifestAt lib d root bytes m) (h : Overlooked lib d root m) :
    ReportedValid lib d path ∧ ¬ Acceptable lib d path := by
  refine ⟨inspectBundle_valid.mpr ⟨root, m, bytes, hroot, hm, ?_⟩, ?_⟩
  · exact (inspectFiles_covered (Disk.realpath_plain hroot)).mpr h.toCovered
  · rintro ⟨root', m', bytes', hroot', hm', hcomplete⟩
    obtain rfl := Option.some.inj (hroot'.symm.trans hroot)
    obtain ⟨-, rfl⟩ := hm.unique hm'
    exact (h.toCovered.complete_iff hm.dir).mp hcomplete h

/-- A bundle with one declared file, and a file `stray` in a directory of it. -/
def strayEntries (stray : String) : Dict (List String) (Entry (Leaf Bytes)) := .ofList [
  (["b"], .dir), (["b", "manifest.json"], .file (.regular (some [1]))),
  (["b", "a.txt"], .file (.regular (some [2]))),
  (["b", "sub"], .dir), (["b", "sub", stray], .file (.regular (some [3])))]

theorem nested_dirs : ∀ e ∈ (strayEntries "manifest.json").entries,
    e.1.dropLast = [] ∨ (strayEntries "manifest.json").get e.1.dropLast = some .dir := by decide

theorem nested_names : ∀ e ∈ (strayEntries "manifest.json").entries, ∀ s ∈ e.1, Ordinary s := by decide

/-- The second `manifest.json` is below the root. -/
def nestedDisk : Disk Bytes := .ofDict (strayEntries "manifest.json") (by decide) nested_dirs nested_names

theorem sealed_dirs : ∀ e ∈ (strayEntries "b.txt").entries,
    e.1.dropLast = [] ∨ (strayEntries "b.txt").get e.1.dropLast = some .dir := by decide

theorem sealed_names : ∀ e ∈ (strayEntries "b.txt").entries, ∀ s ∈ e.1, Ordinary s := by decide

def sealedDisk : Disk Bytes := .ofDict (strayEntries "b.txt") (by decide) sealed_dirs sealed_names

def strayManifest : BundleManifest where
  manifest := {
    bundleId := "demo-1", source := .syntheticDemo, captureKind := .syntheticDemo, schemaVersion := 1
    sourceUrls := [], retrievedAt := ⟨0, 0⟩, retrievalOutcome := "ok", parserVersion := "1", payload := "" }
  files := .ofList [("a.txt", "hash of a.txt")]

def strayLib (access : Access) : BundleLib Unit where
  sha256 bytes := if bytes = [2] then "hash of a.txt" else "another hash"
  lower s := s
  loads _ := .object ()
  bundleId _ := some "demo-1"
  validate _ := .ok strayManifest
  osError _ := "permission denied"
  access := access

/-- `sub` may be entered but not read. -/
def sealedAccess : Access where
  scan p := if p = ["b", "sub"] then .nothing else .names

theorem nested_overlooked : Overlooked (strayLib {}) nestedDisk ["b"] strayManifest where
  examined := ⟨⟨rfl, rfl⟩, by decide, fun _ _ => ⟨fun _ _ _ => rfl, rfl⟩⟩
  intact e he := by
    obtain rfl := List.mem_singleton.mp he
    exact ⟨["a.txt"], [2], by decide, by decide, by decide⟩
  down name hname := by
    obtain rfl := List.mem_singleton.mp hname
    decide
  listed p hp _ hname := by
    have hmem := hp.1
    rw [show nestedDisk.below ["b"] = [["b", "manifest.json"], ["b", "a.txt"], ["b", "sub"],
      ["b", "sub", "manifest.json"]] by decide] at hmem
    simp only [List.singleton_append, List.mem_cons, List.cons.injEq, true_and, List.not_mem_nil, or_false] at hmem
    rcases hmem with rfl | rfl | rfl | rfl
    · exact absurd rfl hname
    · exact ⟨"a.txt", by decide, by decide⟩
    · exact absurd hp.2 (by decide)
    · exact absurd rfl hname
  astray := by
    refine Or.inl ⟨["sub", "manifest.json"], ⟨by decide, by decide⟩, by decide, ?_⟩
    rintro ⟨name, hname, hreach⟩
    obtain rfl := List.mem_singleton.mp hname
    exact absurd hreach (by decide)

theorem sealed_overlooked : Overlooked (strayLib sealedAccess) sealedDisk ["b"] strayManifest where
  examined := ⟨⟨rfl, rfl⟩, by decide, fun _ _ => ⟨fun _ _ _ => rfl, rfl⟩⟩
  intact e he := by
    obtain rfl := List.mem_singleton.mp he
    exact ⟨["a.txt"], [2], by decide, by decide, by decide⟩
  down name hname := by
    obtain rfl := List.mem_singleton.mp hname
    decide
  listed p hp hcomes hname := by
    have hmem := hp.1
    rw [show sealedDisk.below ["b"] = [["b", "manifest.json"], ["b", "a.txt"], ["b", "sub"],
      ["b", "sub", "b.txt"]] by decide] at hmem
    simp only [List.singleton_append, List.mem_cons, List.cons.injEq, true_and, List.not_mem_nil, or_false] at hmem
    rcases hmem with rfl | rfl | rfl | rfl
    · exact absurd rfl hname
    · exact ⟨"a.txt", by decide, by decide⟩
    · exact absurd hp.2 (by decide)
    · exact absurd hcomes (by decide)
  astray := by
    refine Or.inl ⟨["sub", "b.txt"], ⟨by decide, by decide⟩, by decide, ?_⟩
    rintro ⟨name, hname, hreach⟩
    obtain rfl := List.mem_singleton.mp hname
    exact absurd hreach (by decide)

theorem stray_manifestAt (access : Access) :
    ManifestAt (strayLib access) nestedDisk ["b"] [1] strayManifest ∧
      ManifestAt (strayLib access) sealedDisk ["b"] [1] strayManifest :=
  ⟨⟨by decide, (), rfl, rfl⟩, ⟨by decide, (), rfl, rfl⟩⟩

/-- An undeclared `sub/manifest.json` is accepted, and so is an undeclared file of
any name in a directory that cannot be listed. -/
theorem nested_manifest_accepted :
    (ReportedValid (strayLib {}) nestedDisk ["b"] ∧ ¬ Acceptable (strayLib {}) nestedDisk ["b"]) ∧
      ReportedValid (strayLib sealedAccess) sealedDisk ["b"] ∧
        ¬ Acceptable (strayLib sealedAccess) sealedDisk ["b"] :=
  ⟨nested_overlooked.accepted (by decide) (stray_manifestAt _).1,
    sealed_overlooked.accepted (by decide) (stray_manifestAt _).2⟩

end BidScope.L9
