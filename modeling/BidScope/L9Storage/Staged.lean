import BidScope.L9Storage.Acceptance
import BidScope.L9Storage.Materializer

/-!
# Bundles staged and published

The temporary directory of a materialized page, from its two files to its rename.

* `Pair`: a directory of a manifest and a response. `Pair.reportedValid`: an
  inspection finds the same of it wherever it stands. `Pair.declared`: it is
  valid when its manifest declares the response.
* `fill_spec`, `stage_spec`: what the block leaves behind, whatever fails in it.
* `fill_works`: nothing fails of itself.
-/
namespace BidScope.L9.Authorized

open BidScope.L1 BidScope.L5

variable {Obj : Type} {lib : BundleLib Obj} {d d' : Disk Bytes} {dir dir' path path' : List String}
  {manifest response : Bytes}

/-! ## A directory of two files -/

/-- Nothing stands in the directory but the two files. -/
structure Pair (d : Disk Bytes) (dir : List String) (manifest response : Option Bytes) : Prop where
  isDir : d.node dir = some .dir
  manifest : d.node (dir ++ [manifestName]) = some (.file (.regular manifest))
  response : d.node (dir ++ [responseName]) = some (.file (.regular response))
  only : ∀ r, r ≠ [] → r ≠ [manifestName] → r ≠ [responseName] → d.node (dir ++ r) = none

theorem response_ordinary : Ordinary responseName := ⟨by decide, by decide, by decide⟩

section
variable {mc rc : Option Bytes}

theorem Pair.node_eq (h : Pair d dir mc rc) (h' : Pair d' dir' mc rc) (r : List String) :
    d'.node (dir' ++ r) = d.node (dir ++ r) := by
  by_cases hnil : r = []
  · rw [hnil, List.append_nil, List.append_nil, h.isDir, h'.isDir]
  · by_cases hm : r = [manifestName]
    · rw [hm, h.manifest, h'.manifest]
    · by_cases hr : r = [responseName]
      · rw [hr, h.response, h'.response]
      · rw [h.only r hnil hm hr, h'.only r hnil hm hr]

theorem isFile_of_node (hfile : d.node path = some (.file (.regular mc))) : d.isFile path = true := by
  have hplain : d.Plain path := Disk.plain_of_node (by rw [hfile]; nofun) (by rw [hfile]; rfl)
  rw [Disk.isFile, Disk.stat_of_plain hplain, hfile]

theorem Pair.mem_below (h : Pair d dir mc rc) {p : List String} :
    p ∈ d.below dir ↔ p = dir ++ [manifestName] ∨ p = dir ++ [responseName] := by
  rw [Disk.mem_below]
  constructor
  · rintro ⟨⟨r, rfl⟩, hne, hnode⟩
    have hr : r ≠ [] := fun hnil => hne (by rw [hnil, List.append_nil])
    by_cases hm : r = [manifestName]
    · exact .inl (by rw [hm])
    · by_cases hresp : r = [responseName]
      · exact .inr (by rw [hresp])
      · exact absurd (h.only r hr hm hresp) hnode
  · rintro (rfl | rfl)
    · exact ⟨List.prefix_append _ _, by simp, by rw [h.manifest]; nofun⟩
    · exact ⟨List.prefix_append _ _, by simp, by rw [h.response]; nofun⟩

/-- The listing of a pair finds its response. -/
theorem Pair.mem_payloadFiles (h : Pair d dir mc rc) {acc : Access} (hg : acc.Granted) {p : List String} :
    p ∈ payloadFiles acc d dir ↔ p = dir ++ [responseName] := by
  rw [BidScope.L9.mem_payloadFiles, h.mem_below]
  constructor
  · rintro ⟨rfl | rfl, -, -, hname⟩
    · exact absurd (by simp [lastName]) hname
    · rfl
  · rintro rfl
    refine ⟨.inr rfl, hg.comesBy _, isFile_of_node h.response, ?_⟩
    simp only [lastName, List.getLast?_append, List.getLast?_singleton, Option.some_or, Option.getD_some]
    decide

theorem Pair.verified (h : Pair d dir mc rc) (h' : Pair d' dir' mc rc) {name expected : String}
    (hv : Verified lib d dir name expected) : Verified lib d' dir' name expected := by
  obtain ⟨bytes, hnode, hhash⟩ := hv.file
  exact ⟨hv.down, hv.relative, bytes, by rw [h.node_eq h', hnode], hhash⟩

/-- A pair is valid wherever it stands. -/
theorem Pair.reportedValid (h : Pair d dir mc rc) (h' : Pair d' dir' mc rc) (hg : lib.access.Granted)
    (hpath : d.realpath path = some dir) (hpath' : d'.realpath path' = some dir') (hv : ReportedValid lib d path) :
    ReportedValid lib d' path' := by
  obtain ⟨root, m, bytes, hroot, hmanifest, -, hfiles⟩ := inspectBundle_valid.mp hv
  obtain rfl := Option.some.inj (hroot.symm.trans hpath)
  obtain ⟨-, hverified, hlisted⟩ := (inspectFiles_valid (Disk.realpath_plain hpath)).mp hfiles
  refine inspectBundle_valid.mpr ⟨dir', m, bytes, hpath', ⟨?_, hmanifest.parses⟩, hg.manifestSeen,
    (inspectFiles_valid (Disk.realpath_plain hpath')).mpr ⟨hg.enumerationError, fun e he =>
      ⟨h.verified h' (hverified e he).1, hg.lookedUp⟩, ?_⟩⟩
  · rw [h.node_eq h', hmanifest.node]
  · intro p hp
    obtain ⟨e, he, heq⟩ := hlisted (root ++ [responseName]) ((h.mem_payloadFiles hg).mpr rfl)
    refine ⟨e, he, ?_⟩
    rw [(h'.mem_payloadFiles hg).mp hp, ← List.append_cancel_left heq]

/-- Both files of a valid pair can be read. -/
theorem Pair.readable (h : Pair d dir mc rc) (hg : lib.access.Granted) (hpath : d.realpath path = some dir)
    (hv : ReportedValid lib d path) : mc.isSome = true ∧ rc.isSome = true := by
  obtain ⟨root, m, bytes, hroot, hmanifest, -, hfiles⟩ := inspectBundle_valid.mp hv
  obtain rfl := Option.some.inj (hroot.symm.trans hpath)
  obtain ⟨-, hverified, hlisted⟩ := (inspectFiles_valid (Disk.realpath_plain hpath)).mp hfiles
  constructor
  · have heq := h.manifest.symm.trans hmanifest.node
    simp only [Option.some.injEq, Entry.file.injEq, Leaf.regular.injEq] at heq
    rw [heq]
    rfl
  · obtain ⟨e, he, heq⟩ := hlisted (root ++ [responseName]) ((h.mem_payloadFiles hg).mpr rfl)
    obtain ⟨content, hnode, -⟩ := (hverified e he).1.file
    rw [← heq, h.response] at hnode
    simp only [Option.some.injEq, Entry.file.injEq, Leaf.regular.injEq] at hnode
    rw [hnode]
    rfl

end

/-! ## The temporary directory -/

variable {mlib : MaterializeLib} {m : Materializer} {sys : System} {mc rc : Option Bytes}

theorem fileSize_of_node {bytes : Bytes} (hfile : d.node path = some (.file (.regular (some bytes)))) :
    fileSize mlib d path = bytes.length := by
  have hplain : d.Plain path := Disk.plain_of_node (by rw [hfile]; nofun) (by rw [hfile]; rfl)
  rw [fileSize, Disk.stat_of_plain hplain, hfile]

theorem Pair.totalBytes_eq (h : Pair d dir (some manifest) (some response)) :
    totalBytes mlib d dir = manifest.length + response.length := by
  have hnodup : (d.below dir).Nodup := d.tree.entries.distinct.filter _
  have hne : dir ++ [manifestName] ≠ dir ++ [responseName] := by
    simp only [ne_eq, List.append_cancel_left_eq, List.cons.injEq, and_true]
    decide
  have hperm : ((d.below dir).filter d.isFile).Perm [dir ++ [manifestName], dir ++ [responseName]] := by
    refine (List.perm_ext_iff_of_nodup (hnodup.filter _) (by simpa using hne)).mpr fun p => ?_
    rw [List.mem_filter, h.mem_below, List.mem_cons, List.mem_singleton]
    refine and_iff_left_of_imp ?_
    rintro (rfl | rfl)
    · exact isFile_of_node h.manifest
    · exact isFile_of_node h.response
  rw [totalBytes, (hperm.map _).sum_nat]
  simp [fileSize_of_node h.manifest, fileSize_of_node h.response]

theorem writeBytes_other {call : Call} {bytes : Bytes} {ok : Bool} {q : List String} (hq : q ≠ path)
    (h : writeBytes sys call d path bytes = (d', ok)) : d'.node q = d.node q := by
  unfold writeBytes at h
  split at h
  · split at h
    · cases h
      rfl
    · next part _ =>
      cases h
      cases hw : d.write path (.regular (some part)) with
      | none => rfl
      | some d' =>
        show d'.node q = _
        rw [Disk.node_write hw, if_neg hq]
  · split at h
    · cases h
      rfl
    · next hw =>
      cases h
      rw [Disk.node_write hw, if_neg hq]

theorem writeBytes_true {call : Call} {bytes : Bytes} (h : writeBytes sys call d path bytes = (d', true)) :
    d'.node path = some (.file (.regular (if sys.readable call then some bytes else none))) := by
  unfold writeBytes at h
  split at h
  · split at h <;> cases h
  · split at h
    · cases h
    · next hw =>
      cases h
      rw [Disk.node_write hw, if_pos rfl]

/-- An inspection that lets through reports the bundle valid. -/
theorem reportedValid_of_passes {inspection : InspectionResult} (h : inspectBundle lib d path = some inspection)
    (hpass : ¬ (inspection.valid = false ∨ inspection.manifest = none)) : ReportedValid lib d path := by
  refine ⟨inspection, h, ?_⟩
  rw [not_or, Bool.not_eq_false] at hpass
  exact hpass.1

/-- Both files written into an empty directory. -/
theorem pair_of_writes {d₁ d₂ : Disk Bytes} (hdir : d.node dir = some .dir)
    (hempty : ∀ r, r ≠ [] → d.node (dir ++ r) = none)
    (hw₁ : writeBytes sys .writeResponse d (dir ++ [responseName]) response = (d₁, true))
    (hw₂ : writeBytes sys .writeManifest d₁ (dir ++ [manifestName]) manifest = (d₂, true)) :
    Pair d₂ dir (if sys.readable .writeManifest then some manifest else none)
      (if sys.readable .writeResponse then some response else none) := by
  have hnames : dir ++ [responseName] ≠ dir ++ [manifestName] := by
    simp only [ne_eq, List.append_cancel_left_eq, List.cons.injEq, and_true]
    decide
  refine ⟨?_, writeBytes_true hw₂, ?_, fun r hr hm hresp => ?_⟩
  · rw [writeBytes_other (by simp) hw₂, writeBytes_other (by simp) hw₁, hdir]
  · rw [writeBytes_other hnames hw₂, writeBytes_true hw₁]
  · rw [writeBytes_other (by simpa using hm) hw₂, writeBytes_other (by simpa using hresp) hw₁, hempty r hr]

/-- Filling stays in the directory, and what it lets through are the two files. -/
theorem fill_spec {out : Except Raised Unit} (h : fill mlib m sys d path dir manifest response = (d', out))
    (hdir : d.node dir = some .dir) (hempty : ∀ r, r ≠ [] → d.node (dir ++ r) = none) :
    (∀ q, ¬ dir <+: q → d'.node q = d.node q) ∧
      (out = .ok () → totalBytes mlib d' dir ≤ m.maxBundleBytes ∧ ReportedValid (bundleLib mlib) d' path ∧
        Pair d' dir (if sys.readable .writeManifest then some manifest else none)
          (if sys.readable .writeResponse then some response else none)) := by
  have hne : ∀ (name : String) (q : List String), ¬ dir <+: q → q ≠ dir ++ [name] := fun name q hq heq =>
    hq (heq ▸ List.prefix_append _ _)
  unfold fill at h
  split at h
  · next hw =>
    cases h
    exact ⟨fun q hq => writeBytes_other (hne _ q hq) hw, nofun⟩
  · next d₁ hw₁ =>
    have hd₁ : ∀ q, ¬ dir <+: q → d₁.node q = d.node q := fun q hq => writeBytes_other (hne _ q hq) hw₁
    split at h
    · next hw =>
      cases h
      exact ⟨fun q hq => (writeBytes_other (hne _ q hq) hw).trans (hd₁ q hq), nofun⟩
    · next d₂ hw₂ =>
      have hd₂ : ∀ q, ¬ dir <+: q → d₂.node q = d.node q := fun q hq =>
        (writeBytes_other (hne _ q hq) hw₂).trans (hd₁ q hq)
      have hpair := pair_of_writes hdir hempty hw₁ hw₂
      split at h
      · cases h
        exact ⟨hd₂, nofun⟩
      · split at h
        · cases h
          exact ⟨hd₂, nofun⟩
        · next hsmall =>
          split at h
          · cases h
            exact ⟨hd₂, nofun⟩
          · next inspection hinspect =>
            split at h
            · cases h
              exact ⟨hd₂, nofun⟩
            · next hpass =>
              cases h
              exact ⟨hd₂, fun _ => ⟨Nat.le_of_not_lt hsmall, reportedValid_of_passes hinspect hpass, hpair⟩⟩

/-- Only an inspection that reports the bundle valid lets through. -/
theorem passes_iff : (∃ inspection, inspectBundle lib d path = some inspection ∧
    ¬ (inspection.valid = false ∨ inspection.manifest = none)) ↔ ReportedValid lib d path := by
  constructor
  · rintro ⟨inspection, h, hpass⟩
    exact reportedValid_of_passes h hpass
  · rintro ⟨inspection, h, hvalid⟩
    have hsome := (inspectBundle_consistent h).manifest.mpr hvalid
    refine ⟨inspection, h, ?_⟩
    rintro (hfalse | hnone)
    · rw [hvalid] at hfalse
      cases hfalse
    · rw [hnone] at hsome
      cases hsome

/-! ## Staging and publishing -/

variable {root : List String} {name bundleId : String}

theorem Pair.moved (h : Pair d dir mc rc) (hmove : ∀ r, d'.node (dir' ++ r) = d.node (dir ++ r)) :
    Pair d' dir' mc rc := by
  refine ⟨?_, ?_, ?_, fun r hr hm hresp => ?_⟩
  · have hself := hmove []
    rw [List.append_nil, List.append_nil] at hself
    rw [hself, h.isDir]
  · rw [hmove, h.manifest]
  · rw [hmove, h.response]
  · rw [hmove, h.only r hr hm hresp]

/-- Nothing that stood has changed when only a new name was used. -/
theorem kept_of_new (hnew : d.node dir = none) (h : ∀ q, ¬ dir <+: q → d'.node q = d.node q) (q : List String)
    (hq : d.node q ≠ none) : d'.node q = d.node q := by
  refine h q ?_
  rintro ⟨r, rfl⟩
  exact hq (FileTree.node_of_prefix_none hnew r)

/-- What is left of a temporary directory that was given up. -/
structure Undone (sys : System) (d d' : Disk Bytes) (dir : List String) : Prop where
  outside : ∀ q, ¬ dir <+: q → d'.node q = d.node q
  removed : sys.removes = true → ∀ r, d'.node (dir ++ r) = none

/-- A bundle put where nothing stood. -/
structure Published (mlib : MaterializeLib) (m : Materializer) (d d' : Disk Bytes) (path dir : List String)
    (manifest response : Bytes) : Prop where
  new : d.node dir = none
  outside : ∀ q, ¬ dir <+: q → d'.node q = d.node q
  pair : Pair d' dir (some manifest) (some response)
  small : totalBytes mlib d' dir ≤ m.maxBundleBytes
  valid : ReportedValid (bundleLib mlib) d' path

theorem undone_cleanUp {d₁ : Disk Bytes} (hdir : dir ≠ []) (h : ∀ q, ¬ dir <+: q → d'.node q = d₁.node q) :
    Undone sys d₁ (if sys.removes then d'.removeTree dir else d') dir := by
  cases hremoves : sys.removes with
  | false => exact ⟨h, fun htrue => by rw [hremoves] at htrue; cases htrue⟩
  | true =>
    refine ⟨fun q hq => ?_, fun _ r => ?_⟩
    · rw [if_pos rfl, Disk.node_removeTree hdir, if_neg hq, h q hq]
    · rw [if_pos rfl, Disk.node_removeTree hdir, if_pos (List.prefix_append _ _)]

variable {out : Except Raised Unit}

/-- On a disk where the temporary directory was just made. -/
theorem stage_spec {d₀ : Disk Bytes} (hroot : d₀.resolve m.stagingRoot = some root) (hname : Ordinary name)
    (hid : Ordinary bundleId) (hne : name ≠ bundleId) (hmk : d₀.mkdir (root ++ [name]) = some d)
    (h : stage mlib m sys d root name bundleId manifest response = (d', out)) :
    ((∃ e, out = .error e) ∧ Undone sys d₀ d' (root ++ [name])) ∨
      (out = .ok () ∧ Published mlib m d₀ d' (m.stagingRoot ++ [bundleId]) (root ++ [bundleId]) manifest response) := by
  have hnew : d₀.node (root ++ [name]) = none := Disk.mkdir_free hmk
  have hmade := Disk.node_mkdir hmk
  have hempty : ∀ r, r ≠ [] → d.node ((root ++ [name]) ++ r) = none := fun r hr => by
    rw [hmade, if_neg fun heq => hr (List.append_right_eq_self.mp heq)]
    exact FileTree.node_of_prefix_none hnew r
  have hoff : ∀ q, ¬ root ++ [name] <+: q → d.node q = d₀.node q := fun q hq => by
    rw [hmade, if_neg]
    rintro rfl
    exact hq (List.prefix_refl _)
  have htmp : root ++ [name] ≠ [] := by simp
  unfold stage at h
  dsimp only at h
  rcases hfill : fill mlib m sys d (m.stagingRoot ++ [name]) (root ++ [name]) manifest response with ⟨d₂, filled⟩
  obtain ⟨houtside, hpassed⟩ := fill_spec hfill (by rw [hmade, if_pos rfl]) hempty
  have hd₂ : ∀ q, ¬ root ++ [name] <+: q → d₂.node q = d₀.node q := fun q hq => (houtside q hq).trans (hoff q hq)
  have hundone : Undone sys d₀ (if sys.removes then d₂.removeTree (root ++ [name]) else d₂) (root ++ [name]) :=
    undone_cleanUp htmp hd₂
  rw [hfill] at h
  cases filled with
  | error e =>
    cases h
    exact .inl ⟨⟨e, rfl⟩, hundone⟩
  | ok _ =>
    obtain ⟨hsmall, hvalid, hpair⟩ := hpassed rfl
    dsimp only at h
    split at h
    · cases h
      exact .inl ⟨⟨_, rfl⟩, hundone⟩
    · split at h
      · cases h
        exact .inl ⟨⟨_, rfl⟩, hundone⟩
      · next hmove =>
        cases h
        have hfree := Disk.move_free hmove
        rw [hd₂ _ (FileTree.not_prefix_sibling hne)] at hfree
        have hmoved : ∀ r, d'.node ((root ++ [bundleId]) ++ r) = d₂.node ((root ++ [name]) ++ r) := fun r => by
          rw [Disk.node_move hmove, if_pos (List.prefix_append _ _), List.drop_left]
        have hoff' : ∀ q, ¬ root ++ [bundleId] <+: q → d'.node q = d₀.node q := fun q hq => by
          rw [Disk.node_move hmove, if_neg hq]
          split
          · next htmp =>
            obtain ⟨r, rfl⟩ := htmp
            exact (FileTree.node_of_prefix_none hnew r).symm
          · next htmp => exact hd₂ q htmp
        have hpath : d₂.realpath (m.stagingRoot ++ [name]) = some (root ++ [name]) :=
          Disk.realpath_snoc (Disk.resolve_mono (kept_of_new hnew hd₂) hroot) hname (by rw [hpair.isDir]; rfl)
        -- what passed the inspection could be read
        obtain ⟨hm, hr⟩ := hpair.readable (bundleLib_granted mlib) hpath hvalid
        have hboth : Pair d₂ (root ++ [name]) (some manifest) (some response) := by
          rwa [if_pos (by simpa using hm), if_pos (by simpa using hr)] at hpair
        have hpair' := hboth.moved hmoved
        have hpath' : d'.realpath (m.stagingRoot ++ [bundleId]) = some (root ++ [bundleId]) :=
          Disk.realpath_snoc (Disk.resolve_mono (kept_of_new hfree hoff') hroot) hid (by rw [hpair'.isDir]; rfl)
        refine .inr ⟨rfl, hfree, hoff', hpair', ?_,
          hboth.reportedValid hpair' (bundleLib_granted mlib) hpath hpath' hvalid⟩
        rw [hpair'.totalBytes_eq, ← @Pair.totalBytes_eq d₂ _ _ _ mlib hboth]
        exact hsmall

theorem ordinary_of_length {s : String} (h : 2 < s.length) : Ordinary s := by
  refine ⟨?_, ?_, ?_⟩
  all_goals
    rintro rfl
    revert h
    decide

theorem length_temporaryName : (temporaryName sys bundleId).length = bundleId.length + sys.suffix.length + 2 := by
  simp only [temporaryName, String.length_append]
  have hdot : ".".length = 1 := rfl
  omega

/-! ## What it takes to publish -/

/-- No call of the system fails. -/
def System.Works (sys : System) : Prop := ∀ call, sys.fails call = false

/-- The manifest is one that an inspection reads, and declares the response and nothing else. -/
def Declares (lib : BundleLib Obj) (manifest response : Bytes) : Prop :=
  ∃ raw bundle, lib.loads manifest = .object raw ∧ lib.validate raw = .ok bundle ∧
    ∃ hash, bundle.files.entries = [(responseName, hash)] ∧ lib.lower (lib.sha256 response) = lib.lower hash

theorem parts_responseName : parts responseName = [responseName] := by decide

theorem Pair.declared (h : Pair d dir (some manifest) (some response)) (hg : lib.access.Granted)
    (hpath : d.realpath path = some dir) (hdeclares : Declares lib manifest response) : ReportedValid lib d path := by
  obtain ⟨raw, bundle, hraw, hbundle, hash, hfiles, hhash⟩ := hdeclares
  have hverified : Verified lib d dir responseName hash :=
    ⟨by decide, by decide, response, by rw [parts_responseName, h.response], hhash⟩
  refine inspectBundle_valid.mpr ⟨dir, bundle, manifest, hpath, ⟨h.manifest, raw, hraw, hbundle⟩, hg.manifestSeen,
    (inspectFiles_valid (Disk.realpath_plain hpath)).mpr ⟨hg.enumerationError, fun e he => ?_, fun p hp => ?_⟩⟩
  · rw [hfiles, List.mem_singleton] at he
    rw [he]
    exact ⟨hverified, hg.lookedUp⟩
  · refine ⟨(responseName, hash), by rw [hfiles]; exact List.mem_singleton_self _, ?_⟩
    rw [parts_responseName]
    exact (h.mem_payloadFiles hg).mp hp

theorem writeBytes_works {call : Call} (bytes : Bytes) (hworks : sys.Works) (hreads : sys.readable call = true)
    (hdir : d.node dir = some .dir) (hfree : d.node (dir ++ [name]) ≠ some .dir) (hname : Ordinary name) :
    ∃ d', writeBytes sys call d (dir ++ [name]) bytes = (d', true) := by
  obtain ⟨d', hd'⟩ := Disk.write_of_dir hdir hfree hname (.regular (some bytes))
  exact ⟨d', by rw [writeBytes, hworks, if_neg Bool.false_ne_true, hreads, if_pos rfl, hd']⟩

/-- An empty directory is filled, when nothing fails. -/
theorem fill_works (hworks : sys.Works) (hreads : ∀ call, sys.readable call = true) (hdir : d.node dir = some .dir)
    (hempty : ∀ r, r ≠ [] → d.node (dir ++ r) = none)
    (hpath : ∀ d' : Disk Bytes, (∀ q, d.node q ≠ none → d'.node q = d.node q) → d'.realpath path = some dir)
    (hsmall : manifest.length + response.length ≤ m.maxBundleBytes)
    (hdeclares : Declares (bundleLib mlib) manifest response) :
    ∃ d', fill mlib m sys d path dir manifest response = (d', .ok ()) ∧
      Pair d' dir (some manifest) (some response) ∧ ∀ q, ¬ dir <+: q → d'.node q = d.node q := by
  obtain ⟨d₁, hw₁⟩ := writeBytes_works response hworks (hreads .writeResponse) hdir
    (by rw [hempty _ (List.cons_ne_nil _ _)]; nofun) response_ordinary
  have hdir₁ : d₁.node dir = some .dir := by rw [writeBytes_other (by simp) hw₁, hdir]
  have hfree₁ : d₁.node (dir ++ [manifestName]) ≠ some .dir := by
    rw [writeBytes_other (by simp; decide) hw₁, hempty _ (List.cons_ne_nil _ _)]
    nofun
  obtain ⟨d₂, hw₂⟩ := writeBytes_works manifest hworks (hreads .writeManifest) hdir₁ hfree₁ manifest_ordinary
  have hpair := pair_of_writes hdir hempty hw₁ hw₂
  rw [hreads, hreads, if_pos rfl, if_pos rfl] at hpair
  have hkept : ∀ q, d.node q ≠ none → d₂.node q = d.node q := fun q hq => by
    have hm : q ≠ dir ++ [manifestName] := fun heq => hq (by rw [heq, hempty _ (List.cons_ne_nil _ _)])
    have hr : q ≠ dir ++ [responseName] := fun heq => hq (by rw [heq, hempty _ (List.cons_ne_nil _ _)])
    rw [writeBytes_other hm hw₂, writeBytes_other hr hw₁]
  obtain ⟨inspection, hinspect, hpass⟩ :=
    passes_iff.mpr (hpair.declared (bundleLib_granted mlib) (hpath d₂ hkept) hdeclares)
  have htotal : ¬ m.maxBundleBytes < totalBytes mlib d₂ dir := by
    rw [hpair.totalBytes_eq]
    exact Nat.not_lt.mpr hsmall
  have hfill : fill mlib m sys d path dir manifest response = (d₂, .ok ()) := by
    unfold fill
    simp only [hw₁, hw₂, hworks .sizes, Bool.false_eq_true, if_false, if_neg htotal, hinspect, if_neg hpass]
  exact ⟨d₂, hfill, hpair, (fill_spec hfill hdir hempty).1⟩

end BidScope.L9.Authorized
