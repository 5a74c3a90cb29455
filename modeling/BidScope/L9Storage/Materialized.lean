import BidScope.L9Storage.Staged

/-!
# One bundle a page

What `materialize` keeps to on any disk, whatever the system does
(`materialize_law`):

* the bundle is one for the request, under every limit and on every disk;
* a second call returns it again and changes nothing;
* a target that is there is left as it is, and returned only when it is a real
  directory within the limit, accepted, with the bytes that would be written;
* a call that fails leaves what stood and the place of the target, and no
  temporary directory where that can be removed;
* a bundle that is returned is accepted, and read back it is the same.

`materialize_works`: a page that is prepared is published when nothing fails.
-/
namespace BidScope.L9.Authorized

open BidScope.L1 BidScope.L5
open Json (Data)

variable {Obj : Type} {lib : BundleLib Obj} {d d' : Disk Bytes} {path : List String} {manifest response : Bytes}
  {mlib : MaterializeLib} {m : Materializer} {sys : System} {name bundleId : String}

/-! ## An existing bundle -/

variable {p : Prepared} {root : List String}

/-- The target is a directory of its own, small enough, accepted, and holds the
bytes that would be written. -/
structure Reusable (mlib : MaterializeLib) (m : Materializer) (d : Disk Bytes) (p : Prepared) (response : Bytes) :
    Prop where
  real : Disk.isLink (d.lstat (m.target p.bundleId)) = false
  isDir : d.stat (m.target p.bundleId) = some .dir
  small : ∃ resolved, d.realpath (m.target p.bundleId) = some resolved ∧
    totalBytes mlib d resolved ≤ m.maxBundleBytes
  accepted : ReportedValid (bundleLib mlib) d (m.target p.bundleId)
  manifest : readBytes (d.stat (m.target p.bundleId ++ [manifestName])) = some (manifestBytes mlib p.manifest)
  response : readBytes (d.stat (m.target p.bundleId ++ [responseName])) = some response

theorem identical_ok : identical d path manifest response = .ok () ↔
    readBytes (d.stat (path ++ [manifestName])) = some manifest ∧
      readBytes (d.stat (path ++ [responseName])) = some response := by
  unfold identical
  cases hm : readBytes (d.stat (path ++ [manifestName])) with
  | none => exact iff_of_false nofun (fun h => by cases h.1)
  | some stored =>
    by_cases hstored : stored = manifest
    · cases hr : readBytes (d.stat (path ++ [responseName])) with
      | none => simp [hstored, readError, quarantine]
      | some stored' => by_cases hresponse : stored' = response <;> simp [hstored, hresponse, notIdentical, quarantine]
    · simp [hstored, notIdentical, quarantine]

theorem identical_error {e : Raised} (h : identical d path manifest response = .error e) : ∃ q, e = .quarantine q := by
  unfold identical at h
  repeat' split at h
  all_goals first
    | exact ⟨_, (Except.error.inj h).symm⟩
    | cases h

theorem reuse_ok {b : MaterializedBundle} (h : reuseExisting mlib m sys d p response = .ok b) :
    Reusable mlib m d p response ∧ b = bundleOf mlib m p response := by
  unfold reuseExisting at h
  dsimp only at h
  split at h
  · cases h
  · next hdir =>
    rw [not_or, Bool.not_eq_true, not_not] at hdir
    split at h
    · next hroot hresolved =>
      split at h
      · cases h
      · split at h
        · cases h
        · split at h
          · cases h
          · next hsmall =>
            split at h
            · cases h
            · next inspection hinspect =>
              split at h
              · cases h
              · next hpass =>
                split at h
                · cases h
                · next hsame =>
                  obtain ⟨hmanifest, hresponse⟩ := identical_ok.mp hsame
                  exact ⟨⟨hdir.1, hdir.2, ⟨_, hresolved, Nat.le_of_not_lt hsmall⟩,
                    reportedValid_of_passes hinspect hpass, hmanifest, hresponse⟩, (Except.ok.inj h).symm⟩
    · cases h

theorem target_real (hroot : d.resolve m.stagingRoot = some root) (hs : Ordinary p.bundleId)
    (hreal : Disk.isLink (d.lstat (m.target p.bundleId)) = false) :
    d.realpath (m.target p.bundleId) = some (root ++ [p.bundleId]) := by
  rw [Materializer.target, Disk.lstat_snoc hroot hs] at hreal
  exact Disk.realpath_snoc hroot hs hreal

theorem Reusable.resolves (hroot : d.resolve m.stagingRoot = some root) (hs : Ordinary p.bundleId)
    (h : Reusable mlib m d p response) : d.resolve (m.target p.bundleId) = some (root ++ [p.bundleId]) := by
  have hreal := h.real
  have hdir := h.isDir
  rw [Materializer.target, Disk.lstat_snoc hroot hs] at hreal
  rw [Materializer.target, Disk.stat_snoc hroot hs hreal] at hdir
  exact Disk.resolve_snoc hroot hs hdir

theorem reuse_of (hroot : d.resolve m.stagingRoot = some root) (hs : Ordinary p.bundleId)
    (hsizes : sys.fails .sizes = false) (h : Reusable mlib m d p response) :
    reuseExisting mlib m sys d p response = .ok (bundleOf mlib m p response) := by
  obtain ⟨resolved, hresolved, hsmall⟩ := h.small
  obtain rfl := Option.some.inj (hresolved.symm.trans (target_real hroot hs h.real))
  obtain ⟨inspection, hinspect, hpass⟩ := passes_iff.mpr h.accepted
  have hprefix : root.isPrefixOf (root ++ [p.bundleId]) = true :=
    List.isPrefixOf_iff_prefix.mpr (List.prefix_append _ _)
  have hdir : ¬ (Disk.isLink (d.lstat (m.target p.bundleId)) = true ∨ d.stat (m.target p.bundleId) ≠ some .dir) := by
    rw [h.real, h.isDir]
    simp
  unfold reuseExisting
  simp only [if_neg hdir, Disk.resolve_realpath hroot, hresolved, hprefix, hsizes, Bool.true_eq_false,
    Bool.false_eq_true, if_false, if_neg (Nat.not_lt.mpr hsmall), hinspect, if_neg hpass,
    identical_ok.mpr ⟨h.manifest, h.response⟩]

/-- A target that is not reused quarantines the page, or its inspection raises. -/
theorem reuse_error (hroot : d.resolve m.stagingRoot = some root) (hs : Ordinary p.bundleId) {e : Raised}
    (h : reuseExisting mlib m sys d p response = .error e) :
    (∃ q, e = .quarantine q) ∨ inspectBundle (bundleLib mlib) d (m.target p.bundleId) = none := by
  unfold reuseExisting at h
  dsimp only at h
  split at h
  · exact .inl ⟨_, (Except.error.inj h).symm⟩
  · next hdir =>
    rw [not_or, Bool.not_eq_true] at hdir
    simp only [Disk.resolve_realpath hroot, target_real hroot hs hdir.1] at h
    split at h
    · exact .inl ⟨_, (Except.error.inj h).symm⟩
    · split at h
      · exact .inl ⟨_, (Except.error.inj h).symm⟩
      · split at h
        · exact .inl ⟨_, (Except.error.inj h).symm⟩
        · split at h
          · next hnone => exact .inr hnone
          · split at h
            · exact .inl ⟨_, (Except.error.inj h).symm⟩
            · split at h
              · next hsame =>
                obtain rfl := Except.error.inj h
                exact .inl (identical_error hsame)
              · cases h

/-- What one call does behind the staging root. -/
inductive Placed (mlib : MaterializeLib) (m : Materializer) (sys : System) (d : Disk Bytes) (root : List String)
    (p : Prepared) (response : Bytes) : Disk Bytes → Except Raised MaterializedBundle → Prop where
  | raised : Placed mlib m sys d root p response d (.error .osError)
  | existing (there : (d.stat (m.target p.bundleId)).isSome = true) :
    Placed mlib m sys d root p response d (reuseExisting mlib m sys d p response)
  | undone (e : Raised) (d' : Disk Bytes) (new : d.node (root ++ [temporaryName sys p.bundleId]) = none)
    (undone : Undone sys d d' (root ++ [temporaryName sys p.bundleId])) :
    Placed mlib m sys d root p response d' (.error e)
  | published (d' : Disk Bytes) (published : Published mlib m d d' (m.target p.bundleId) (root ++ [p.bundleId])
      (manifestBytes mlib p.manifest) response) :
    Placed mlib m sys d root p response d' (.ok ⟨m.target p.bundleId, p.manifest, p.bundleId, p.responseSha256⟩)

theorem place_cases (hroot : d.resolve m.stagingRoot = some root) (hid : 2 < p.bundleId.length)
    {out : Except Raised MaterializedBundle} (h : place mlib m sys d root p response = (d', out)) :
    Placed mlib m sys d root p response d' out := by
  have hlen := @length_temporaryName sys p.bundleId
  have hname : Ordinary (temporaryName sys p.bundleId) := ordinary_of_length (by omega)
  have hne : temporaryName sys p.bundleId ≠ p.bundleId := fun heq => by rw [heq] at hlen; omega
  unfold place at h
  split at h
  · cases h
    exact .raised
  · split at h
    · next hthere =>
      cases h
      exact .existing hthere
    · split at h
      · cases h
        exact .raised
      · split at h
        · cases h
          exact .raised
        · next hmk =>
          split at h
          · next hstage =>
            cases h
            rcases stage_spec hroot hname (ordinary_of_length hid) hne hmk hstage with ⟨-, hundone⟩ | ⟨hok, -⟩
            · exact .undone _ _ (Disk.mkdir_free hmk) hundone
            · cases hok
          · next hstage =>
            cases h
            rcases stage_spec hroot hname (ordinary_of_length hid) hne hmk hstage with ⟨⟨e, he⟩, -⟩ | ⟨-, hpublished⟩
            · cases he
            · exact .published _ hpublished

/-! ## What is prepared -/

variable {r : Request} {n n' : Nat} {d₁ : Disk Bytes}

/-- Who and what the bundle is, before the disk is touched. -/
structure Described (mlib : MaterializeLib) (r : Request) (p : Prepared) : Prop where
  named : ∃ hash, p.bundleId = "ccgp-live-" ++ hash
  bundleId : p.manifest.bundleId = p.bundleId
  responseSha256 : p.responseSha256 = mlib.sha256 r.page.responseBytes
  urls : ∀ u ∈ p.manifest.sourceUrls, ∃ s, mlib.url s = .ok u

theorem exists_of_forall₂ {α β : Type} {f : α → β → Prop} : ∀ {as : List α} {bs : List β}, List.Forall₂ f as bs →
    ∀ b ∈ bs, ∃ a, f a b
  | _, _, .nil, _, hb => by cases hb
  | _, _, .cons hab hrest, b, hb => by
    rcases List.mem_cons.mp hb with rfl | hb
    · exact ⟨_, hab⟩
    · exact exists_of_forall₂ hrest b hb

theorem describe_ok {contract : SourceContract} {extra : Dict String String}
    (h : describe mlib r contract extra = .ok p) : Described mlib r p := by
  unfold describe at h
  dsimp only at h
  split at h
  · cases h
  · next metadata _ =>
    split at h
    · cases h
    · next manifest hmanifest =>
      cases h
      have hgives := ManifestInput.validate_ok hmanifest
      obtain ⟨raws, -, hurls⟩ := hgives.sourceUrls
      exact ⟨⟨_, rfl⟩, (Checked.ok.inj hgives.bundleId).symm, rfl, exists_of_forall₂ hurls⟩

theorem prepare_ok (h : prepare mlib n r = .ok p) : ∃ contract extra, r.dataContract = some contract ∧
    safeExtraMetadata mlib r.extraMetadata = .ok extra ∧ describe mlib r contract extra = .ok p := by
  unfold prepare at h
  split at h
  · cases h
  · next contract hcontract =>
    split at h
    · cases h
    · split at h
      · cases h
      · split at h
        · cases h
        · split at h
          · cases h
          · split at h
            · cases h
            · split at h
              · cases h
              · next extra hextra => exact ⟨contract, extra, hcontract, hextra, h⟩

/-- What is prepared does not depend on the limit. -/
theorem prepare_unique {p' : Prepared} (h : prepare mlib n r = .ok p) (h' : prepare mlib n' r = .ok p') : p' = p := by
  obtain ⟨contract, extra, hcontract, hextra, hp⟩ := prepare_ok h
  obtain ⟨contract', extra', hcontract', hextra', hp'⟩ := prepare_ok h'
  obtain rfl := Option.some.inj (hcontract.symm.trans hcontract')
  obtain rfl := Except.ok.inj (hextra.symm.trans hextra')
  exact Except.ok.inj (hp'.symm.trans hp)

theorem prepare_described (h : prepare mlib n r = .ok p) : Described mlib r p := by
  obtain ⟨contract, extra, -, -, hp⟩ := prepare_ok h
  exact describe_ok hp

theorem Described.length (h : Described mlib r p) : 2 < p.bundleId.length := by
  obtain ⟨hash, hid⟩ := h.named
  rw [hid, String.length_append]
  have hprefix : "ccgp-live-".length = 10 := rfl
  omega

/-! ## One call -/

/-- What a call of `materialize` does. -/
inductive Materialized (mlib : MaterializeLib) (m : Materializer) (sys : System) (d : Disk Bytes) (r : Request) :
    Disk Bytes → Except Raised MaterializedBundle → Prop where
  | refused (q : Quarantine) (h : prepare mlib m.maxBundleBytes r = .error q) :
    Materialized mlib m sys d r d (.error (.quarantine q))
  | raised : Materialized mlib m sys d r d (.error .osError)
  | placed (p : Prepared) (h : prepare mlib m.maxBundleBytes r = .ok p) (d₁ : Disk Bytes) (root : List String)
    (grown : Disk.Grown d d₁ m.stagingRoot root) (d' : Disk Bytes) (out : Except Raised MaterializedBundle)
    (placed : Placed mlib m sys d₁ root p r.page.responseBytes d' out) : Materialized mlib m sys d r d' out

theorem materialize_cases {out : Except Raised MaterializedBundle} (h : materialize mlib m sys d r = (d', out)) :
    Materialized mlib m sys d r d' out := by
  unfold materialize at h
  split at h
  · next q hq =>
    cases h
    exact .refused q hq
  · next p hp =>
    split at h
    · cases h
      exact .raised
    · split at h
      · cases h
        exact .raised
      · next d₁ hmade =>
        obtain ⟨root, hgrown⟩ := Disk.makeDirs_spec m.names hmade
        rw [hgrown.leads] at h
        exact .placed p hp d₁ root hgrown d' out (place_cases hgrown.leads (prepare_described hp).length h)

/-- A bundle just published would be reused. -/
theorem Published.reusable (hroot : d.resolve m.stagingRoot = some root) (hid : Ordinary p.bundleId)
    (h : Published mlib m d d' (m.target p.bundleId) (root ++ [p.bundleId]) (manifestBytes mlib p.manifest) response) :
    d'.resolve m.stagingRoot = some root ∧ Reusable mlib m d' p response := by
  have hroot' : d'.resolve m.stagingRoot = some root := Disk.resolve_mono (kept_of_new h.new h.outside) hroot
  have htarget := Disk.resolve_snoc hroot' hid h.pair.isDir
  have hlink : Disk.isLink (d'.node (root ++ [p.bundleId])) = false := by rw [h.pair.isDir]; rfl
  refine ⟨hroot', ?_, ?_, ⟨_, Disk.realpath_snoc hroot' hid hlink, h.small⟩, h.valid, ?_, ?_⟩
  · rw [Materializer.target, Disk.lstat_snoc hroot' hid, hlink]
  · rw [Materializer.target, Disk.stat_snoc hroot' hid hlink, h.pair.isDir]
  · rw [Materializer.target, Disk.stat_snoc htarget manifest_ordinary (by rw [h.pair.manifest]; rfl), h.pair.manifest]
    rfl
  · rw [Materializer.target, Disk.stat_snoc htarget response_ordinary (by rw [h.pair.response]; rfl), h.pair.response]
    rfl

/-- A bundle that is returned stands where it would be reused. -/
theorem materialize_ok {b : MaterializedBundle} (h : materialize mlib m sys d r = (d', .ok b)) :
    ∃ p root, prepare mlib m.maxBundleBytes r = .ok p ∧ d'.resolve m.stagingRoot = some root ∧
      Reusable mlib m d' p r.page.responseBytes ∧ b = bundleOf mlib m p r.page.responseBytes := by
  cases materialize_cases h with
  | placed p hp d₁ root hgrown _ _ hplaced =>
    have hdescribed := prepare_described hp
    generalize hout : Except.ok b = out at hplaced
    cases hplaced with
    | raised => cases hout
    | existing there =>
      obtain ⟨hreusable, hb⟩ := reuse_ok hout.symm
      exact ⟨p, root, hp, hgrown.leads, hreusable, hb⟩
    | undone e _ _ _ => cases hout
    | published _ hpublished =>
      obtain ⟨hroot, hreusable⟩ := hpublished.reusable hgrown.leads (ordinary_of_length hdescribed.length)
      refine ⟨p, root, hp, hroot, hreusable, ?_⟩
      rw [Except.ok.inj hout, bundleOf, hdescribed.bundleId, hdescribed.responseSha256]

/-- A target that is there is inspected, and the disk stays as it is. -/
theorem materialize_existing (hp : prepare mlib m.maxBundleBytes r = .ok p)
    (hroot : d.resolve m.stagingRoot = some root) (hthere : (d.stat (m.target p.bundleId)).isSome = true) :
    (materialize mlib m sys d r).1 = d ∧
      (sys.Works → (materialize mlib m sys d r).2 = reuseExisting mlib m sys d p r.page.responseBytes) := by
  unfold materialize
  simp only [hp, Disk.makeDirs_of_resolve hroot, hroot, place, hthere, if_true]
  constructor
  · split
    · rfl
    · split <;> rfl
  · intro hworks
    rw [if_neg (by rw [hworks]; exact Bool.false_ne_true), if_neg (by rw [hworks]; exact Bool.false_ne_true)]

/-! ## Failures -/

/-- A call that fails leaves what stood, the target's place, and, when the
temporary directory can be removed, all that is below the staging root. -/
structure Spared (m : Materializer) (sys : System) (d d' : Disk Bytes) (bundleId : String) : Prop where
  kept : ∀ q, d.node q ≠ none → d'.node q = d.node q
  target : ∀ root, d'.resolve m.stagingRoot = some root → ∀ r,
    d'.node (root ++ bundleId :: r) = d.node (root ++ bundleId :: r)
  clean : sys.removes = true → ∀ root, d'.resolve m.stagingRoot = some root → ∀ r, r ≠ [] →
    d'.node (root ++ r) = d.node (root ++ r)

theorem spared_refl : Spared m sys d d bundleId := ⟨fun _ _ => rfl, fun _ _ _ => rfl, fun _ _ _ _ _ => rfl⟩

theorem spared_of_grown (h : Disk.Grown d d' m.stagingRoot root) : Spared m sys d d' bundleId := by
  refine ⟨h.kept, fun root' hroot r => ?_, fun _ root' hroot r hr => ?_⟩
  · obtain rfl := Option.some.inj (hroot.symm.trans h.leads)
    exact h.beneath _ (List.cons_ne_nil _ _)
  · obtain rfl := Option.some.inj (hroot.symm.trans h.leads)
    exact h.beneath r hr

theorem spared_of_undone (hgrown : Disk.Grown d d₁ m.stagingRoot root)
    (hnew : d₁.node (root ++ [name]) = none) (hne : name ≠ bundleId) (h : Undone sys d₁ d' (root ++ [name])) :
    Spared m sys d d' bundleId := by
  have hkept := kept_of_new hnew h.outside
  have hroot : d'.resolve m.stagingRoot = some root := Disk.resolve_mono hkept hgrown.leads
  refine ⟨fun q hq => ?_, fun root' hroot' r => ?_, fun hremoves root' hroot' r hr => ?_⟩
  · have hq₁ := hgrown.kept q hq
    rw [hkept q (by rw [hq₁]; exact hq), hq₁]
  · obtain rfl := Option.some.inj (hroot'.symm.trans hroot)
    rw [h.outside _ (FileTree.not_prefix_sibling hne), hgrown.beneath _ (List.cons_ne_nil _ _)]
  · obtain rfl := Option.some.inj (hroot'.symm.trans hroot)
    rw [← hgrown.beneath r hr]
    by_cases htmp : root' ++ [name] <+: root' ++ r
    · obtain ⟨rest, hrest⟩ := htmp
      rw [← hrest, h.removed hremoves]
      exact (FileTree.node_of_prefix_none hnew rest).symm
    · exact h.outside _ htmp

theorem materialize_failed {e : Raised} (hp : prepare mlib m.maxBundleBytes r = .ok p)
    (h : materialize mlib m sys d r = (d', .error e)) : Spared m sys d d' p.bundleId := by
  cases materialize_cases h with
  | refused q hq => exact spared_refl
  | raised => exact spared_refl
  | placed p' hp' d₁ root hgrown _ _ hplaced =>
    obtain rfl := prepare_unique hp hp'
    generalize hout : Except.error e = out at hplaced
    cases hplaced with
    | raised => exact spared_of_grown hgrown
    | existing there => exact spared_of_grown hgrown
    | undone e _ hnew hundone =>
      refine spared_of_undone hgrown hnew (fun heq => ?_) hundone
      have hlen := @length_temporaryName sys p'.bundleId
      rw [heq] at hlen
      omega
    | published _ hpublished => cases hout

/-! ## Read back -/

/-- The manifest of a bundle, read and validated once more. -/
def reparse (mlib : MaterializeLib) (bytes : Bytes) : Option SnapshotManifest :=
  match loads mlib bytes with
  | .object raw =>
    match SnapshotManifest.ofJson mlib.toPydanticLib raw with
    | .ok n => some n
    | .wrong _ _ => none
  | _ => none

theorem loads_canonical (manifest : SnapshotManifest) :
    loads mlib (manifestBytes mlib manifest) = .object (manifest.dump mlib.toPydanticLib).sorted.json := by
  rw [loads, manifestBytes, Json.decodeUtf8_utf8, Option.bind_some, Json.parse_canonical]
  rw [SnapshotManifest.dump, Data.sorted, Data.json]

/-- The manifest of an accepted bundle is validated once more. -/
theorem reparse_accepted (hroot : d.resolve path = some root) {bytes : Bytes}
    (hbytes : readBytes (d.stat (path ++ [manifestName])) = some bytes)
    (hvalid : ReportedValid (bundleLib mlib) d path) : ∃ n, reparse mlib bytes = some n := by
  obtain ⟨root', bundle, bytes', hpath, hmanifest, -⟩ := inspectBundle_valid.mp hvalid
  obtain rfl := Option.some.inj (hpath.symm.trans (Disk.resolve_realpath hroot))
  rw [Disk.stat_snoc hroot manifest_ordinary (by rw [hmanifest.node]; rfl), hmanifest.node] at hbytes
  obtain rfl := Option.some.inj hbytes
  obtain ⟨raw, hraw, hm⟩ := hmanifest.parses
  have hloads : loads mlib bytes' = .object raw := hraw
  have hmodel : modelValidate mlib raw = .ok bundle := hm
  unfold modelValidate at hmodel
  cases hn : SnapshotManifest.ofJson mlib.toPydanticLib raw with
  | ok n => exact ⟨n, by rw [reparse, hloads]; simp only [hn]⟩
  | wrong e es =>
    rw [hn] at hmodel
    cases hmodel

theorem reparse_same (hlib : mlib.toPydanticLib.Lawful) (hdescribed : Described mlib r p) {n : SnapshotManifest}
    (hexact : p.manifest.Exact) (h : reparse mlib (manifestBytes mlib p.manifest) = some n) : p.manifest.Same n := by
  rw [reparse, loads_canonical] at h
  dsimp only at h
  split at h
  · next hn =>
    cases h
    exact SnapshotManifest.reparsed hlib hdescribed.urls hexact hn
  · cases h

/-! ## The law -/

/-- What a call of `materialize` keeps to, on any disk and whatever the system does. -/
structure Law (mlib : MaterializeLib) (m : Materializer) (sys : System) (d : Disk Bytes) (r : Request) : Prop where
  /-- the bundle is one for the request, on every disk and under every limit -/
  identified : ∀ b, (materialize mlib m sys d r).2 = .ok b → ∀ m' sys' d' b',
    (materialize mlib m' sys' d' r).2 = .ok b' →
      b'.bundleId = b.bundleId ∧ b'.manifest = b.manifest ∧ b'.responseSha256 = b.responseSha256
  again : ∀ b, (materialize mlib m sys d r).2 = .ok b → ∀ sys',
    (materialize mlib m sys' (materialize mlib m sys d r).1 r).1 = (materialize mlib m sys d r).1 ∧
      (sys'.Works → (materialize mlib m sys' (materialize mlib m sys d r).1 r).2 = .ok b)
  existing : ∀ p, prepare mlib m.maxBundleBytes r = .ok p → (d.stat (m.target p.bundleId)).isSome = true →
    (materialize mlib m sys d r).1 = d ∧
      (sys.Works → ((∃ b, (materialize mlib m sys d r).2 = .ok b) ↔ Reusable mlib m d p r.page.responseBytes)) ∧
      (sys.Works → ¬ Reusable mlib m d p r.page.responseBytes →
        (∃ q, (materialize mlib m sys d r).2 = .error (.quarantine q)) ∨
          inspectBundle (bundleLib mlib) d (m.target p.bundleId) = none)
  refused : ∀ q, prepare mlib m.maxBundleBytes r = .error q → materialize mlib m sys d r = (d, .error (.quarantine q))
  failed : ∀ p e, prepare mlib m.maxBundleBytes r = .ok p → (materialize mlib m sys d r).2 = .error e →
    Spared m sys d (materialize mlib m sys d r).1 p.bundleId
  accepted : ∀ b, (materialize mlib m sys d r).2 = .ok b →
    ReportedValid (bundleLib mlib) (materialize mlib m sys d r).1 b.path ∧
      ∃ bytes n, readBytes ((materialize mlib m sys d r).1.stat (b.path ++ [manifestName])) = some bytes ∧
        reparse mlib bytes = some n ∧ (b.manifest.Exact → b.manifest.Same n)

theorem materialize_identified {m' : Materializer} {sys' : System} {d'' : Disk Bytes} {b b' : MaterializedBundle}
    (h : materialize mlib m sys d r = (d', .ok b)) (h' : (materialize mlib m' sys' d₁ r) = (d'', .ok b')) :
    b'.bundleId = b.bundleId ∧ b'.manifest = b.manifest ∧ b'.responseSha256 = b.responseSha256 := by
  obtain ⟨p, -, hp, -, -, rfl⟩ := materialize_ok h
  obtain ⟨p', -, hp', -, -, rfl⟩ := materialize_ok h'
  obtain rfl := prepare_unique hp hp'
  exact ⟨rfl, rfl, rfl⟩

theorem materialize_again {b : MaterializedBundle} (h : materialize mlib m sys d r = (d', .ok b)) (sys' : System) :
    (materialize mlib m sys' d' r).1 = d' ∧ (sys'.Works → (materialize mlib m sys' d' r).2 = .ok b) := by
  obtain ⟨p, root, hp, hroot, hreusable, rfl⟩ := materialize_ok h
  have hthere : (d'.stat (m.target p.bundleId)).isSome = true := by rw [hreusable.isDir]; rfl
  obtain ⟨hsame, hout⟩ := @materialize_existing d' mlib m sys' p root r hp hroot hthere
  refine ⟨hsame, fun hworks => ?_⟩
  rw [hout hworks]
  exact reuse_of hroot (ordinary_of_length (prepare_described hp).length) (hworks _) hreusable

theorem materialize_accepted (hlib : mlib.toPydanticLib.Lawful) {b : MaterializedBundle}
    (h : materialize mlib m sys d r = (d', .ok b)) : ReportedValid (bundleLib mlib) d' b.path ∧
      ∃ bytes n, readBytes (d'.stat (b.path ++ [manifestName])) = some bytes ∧
        reparse mlib bytes = some n ∧ (b.manifest.Exact → b.manifest.Same n) := by
  obtain ⟨p, root, hp, hroot, hreusable, rfl⟩ := materialize_ok h
  have hdescribed := prepare_described hp
  have hid := ordinary_of_length hdescribed.length
  obtain ⟨n, hn⟩ := reparse_accepted (hreusable.resolves hroot hid) hreusable.manifest hreusable.accepted
  exact ⟨hreusable.accepted, _, n, hreusable.manifest, hn, fun hexact => reparse_same hlib hdescribed hexact hn⟩

/-- **One bundle a request**: it keeps to its id, stays as it was put, is reused
only as what would be written, and comes back from its JSON form. -/
theorem materialize_law (mlib : MaterializeLib) (hlib : mlib.toPydanticLib.Lawful) (m : Materializer) (sys : System)
    (d : Disk Bytes) (r : Request) : Law mlib m sys d r := by
  refine ⟨fun b hb m' sys' d' b' hb' => ?_, fun b hb sys' => ?_, fun p hp hthere => ?_, fun q hq => ?_,
    fun p e hp he => ?_, fun b hb => ?_⟩
  · exact materialize_identified (Prod.ext rfl hb) (Prod.ext rfl hb')
  · exact materialize_again (Prod.ext rfl hb) sys'
  · obtain ⟨root, hroot⟩ := Disk.resolve_of_stat hthere
    have hid := ordinary_of_length (prepare_described hp).length
    obtain ⟨hsame, hout⟩ := @materialize_existing d mlib m sys p root r hp hroot hthere
    refine ⟨hsame, fun hworks => ?_, fun hworks hno => ?_⟩
    · rw [hout hworks]
      exact ⟨fun ⟨b, hb⟩ => (reuse_ok hb).1, fun h => ⟨_, reuse_of hroot hid (hworks _) h⟩⟩
    · rw [hout hworks]
      cases hreuse : reuseExisting mlib m sys d p r.page.responseBytes with
      | ok b => exact absurd (reuse_ok hreuse).1 hno
      | error e =>
        rcases reuse_error hroot hid hreuse with ⟨q, rfl⟩ | hnone
        · exact .inl ⟨q, rfl⟩
        · exact .inr hnone
  · unfold materialize
    rw [hq]
  · exact materialize_failed hp (Prod.ext rfl he)
  · exact materialize_accepted hlib (Prod.ext rfl hb)

/-! ## Publishing -/

/-- A page that is prepared is published, when nothing fails and nothing stands in the way. -/
theorem materialize_works (hp : prepare mlib m.maxBundleBytes r = .ok p) (hworks : sys.Works)
    (hreads : ∀ call, sys.readable call = true) (hmade : d.makeDirs m.stagingRoot = some d₁)
    (hroot : d₁.resolve m.stagingRoot = some root)
    (hnew : d₁.node (root ++ [temporaryName sys p.bundleId]) = none) (hfree : d₁.node (root ++ [p.bundleId]) = none)
    (hsmall : (manifestBytes mlib p.manifest).length + r.page.responseBytes.length ≤ m.maxBundleBytes)
    (hdeclares : Declares (bundleLib mlib) (manifestBytes mlib p.manifest) r.page.responseBytes) :
    ∃ d' b, materialize mlib m sys d r = (d', .ok b) ∧ b.bundleId = p.bundleId := by
  have hlong := (prepare_described hp).length
  have hlen := @length_temporaryName sys p.bundleId
  have hid := ordinary_of_length hlong
  have hname : Ordinary (temporaryName sys p.bundleId) := ordinary_of_length (by omega)
  have hne : temporaryName sys p.bundleId ≠ p.bundleId := fun heq => by rw [heq] at hlen; omega
  have hrootDir := (Disk.resolve_eq_some.mp hroot).2
  obtain ⟨d₂, hmk⟩ := Disk.mkdir_of_dir hrootDir hnew hname
  have hmk' := Disk.node_mkdir hmk
  have hempty : ∀ r, r ≠ [] → d₂.node ((root ++ [temporaryName sys p.bundleId]) ++ r) = none := fun r hr => by
    rw [hmk', if_neg fun heq => hr (List.append_right_eq_self.mp heq)]
    exact FileTree.node_of_prefix_none hnew r
  have hoff : ∀ q, ¬ root ++ [temporaryName sys p.bundleId] <+: q → d₂.node q = d₁.node q := fun q hq => by
    rw [hmk', if_neg]
    rintro rfl
    exact hq (List.prefix_refl _)
  have hdir₂ : d₂.node (root ++ [temporaryName sys p.bundleId]) = some .dir := by rw [hmk', if_pos rfl]
  have hpath : ∀ d' : Disk Bytes, (∀ q, d₂.node q ≠ none → d'.node q = d₂.node q) →
      d'.realpath (m.stagingRoot ++ [temporaryName sys p.bundleId]) =
        some (root ++ [temporaryName sys p.bundleId]) := by
    intro d' hkept
    have hdir : d'.node (root ++ [temporaryName sys p.bundleId]) = some .dir := by
      rw [hkept _ (by rw [hdir₂]; nofun), hdir₂]
    exact Disk.realpath_snoc (Disk.resolve_mono hkept (Disk.resolve_mono (kept_of_new hnew hoff) hroot)) hname
      (by rw [hdir]; rfl)
  obtain ⟨d₃, hfill, hpair, hoff₃⟩ := fill_works hworks hreads hdir₂ hempty hpath hsmall hdeclares
  have hroot₃ : d₃.node root = some .dir := by
    have hout : ¬ root ++ [temporaryName sys p.bundleId] <+: root := fun h => by
      have hle := h.length_le
      rw [List.length_append] at hle
      exact absurd hle (by simp)
    rw [hoff₃ _ hout, hoff _ hout, hrootDir]
  have hfree₃ : d₃.node (root ++ [p.bundleId]) = none := by
    rw [hoff₃ _ (FileTree.not_prefix_sibling hne), hoff _ (FileTree.not_prefix_sibling hne), hfree]
  obtain ⟨d₄, hmove⟩ := Disk.move_of_dir hroot₃ hpair.isDir hfree₃ hid hne
  have hthere : d₁.stat (m.target p.bundleId) = none := by
    rw [Materializer.target, Disk.stat_snoc hroot hid (by rw [hfree]; rfl), hfree]
  refine ⟨d₄, ⟨m.target p.bundleId, p.manifest, p.bundleId, p.responseSha256⟩, ?_, rfl⟩
  unfold materialize
  simp only [hp, hworks _, Bool.false_eq_true, if_false, hmade, hroot, place, hthere, Option.isSome_none, hmk, stage,
    hfill, hmove]

theorem modelValidate_ok {raw : Json Json.Number} {n : SnapshotManifest}
    (h : SnapshotManifest.ofJson mlib.toPydanticLib raw = .ok n) : modelValidate mlib raw = .ok (n.toBundle mlib) := by
  unfold modelValidate
  rw [h]

/-- A manifest is one that an inspection reads when its JSON form is. -/
theorem declares_of_read {manifest n : SnapshotManifest} {response : Bytes} {hash : String}
    (hread : SnapshotManifest.ofJson mlib.toPydanticLib (manifest.dump mlib.toPydanticLib).sorted.json = .ok n)
    (hfiles : n.files.entries = [(responseName, hash)]) (hhash : mlib.lower (mlib.sha256 response) = mlib.lower hash) :
    Declares (bundleLib mlib) (manifestBytes mlib manifest) response := by
  have hloads : (bundleLib mlib).loads = loads mlib := rfl
  have hvalidate : (bundleLib mlib).validate = modelValidate mlib := rfl
  refine ⟨(manifest.dump mlib.toPydanticLib).sorted.json, n.toBundle mlib, ?_, ?_, hash, hfiles, hhash⟩
  · rw [hloads]
    exact loads_canonical manifest
  · rw [hvalidate]
    exact modelValidate_ok hread

/-- The manifest of a bundle that is reused is within the limit. -/
theorem Reusable.length_le {response : Bytes} (hroot : d.resolve m.stagingRoot = some root) (hid : Ordinary p.bundleId)
    (h : Reusable mlib m d p response) : (manifestBytes mlib p.manifest).length ≤ m.maxBundleBytes := by
  obtain ⟨resolved, hresolved, hsmall⟩ := h.small
  obtain rfl := Option.some.inj (hresolved.symm.trans (target_real hroot hid h.real))
  obtain ⟨root', bundle, bytes, hpath, hmanifest, -⟩ := inspectBundle_valid.mp h.accepted
  obtain rfl := Option.some.inj (hpath.symm.trans hresolved)
  have hbytes := h.manifest
  rw [Disk.stat_snoc (h.resolves hroot hid) manifest_ordinary (by rw [hmanifest.node]; rfl), hmanifest.node] at hbytes
  obtain rfl := Option.some.inj hbytes
  have hmem : (root ++ [p.bundleId]) ++ [manifestName] ∈ (d.below (root ++ [p.bundleId])).filter d.isFile := by
    rw [List.mem_filter, Disk.mem_below]
    exact ⟨⟨List.prefix_append _ _, by simp, by rw [hmanifest.node]; nofun⟩, isFile_of_node hmanifest.node⟩
  obtain ⟨before, after, hsplit⟩ := List.append_of_mem hmem
  rw [totalBytes, hsplit, List.map_append, List.sum_append_nat, List.map_cons, List.sum_cons,
    fileSize_of_node hmanifest.node] at hsmall
  omega

/-! ## What the id also depends on, and what is not reused -/

def newYear : Datetime := ⟨1767225600000000, 0⟩

def frontPage : Url where
  text := "https://www.ccgp.gov.cn/"
  host := some "www.ccgp.gov.cn"
  scheme := "https"
  port := some 443
  username := none
  password := none
  query := none
  fragment := none

/-- The strings of the manifests below. -/
def strings : List String :=
  ["1", "a", "b", "c", "o", "r", "x", "ok", "items", "ccgp-v1", "response.json", "operator_note",
    "https://www.ccgp.gov.cn/",
    "4f53cda18c2baa0c0354bb5f9a3ecbe5ed12ab4d8e11ba873c2f11161202b945",
    "ccgp-live-4fce7396a5d7828ee1bbef8228893a3ac1847b5b6a561fc32e14ef7e570d14d1",
    "ccgp-live-2dc6a3662a494bc19f3bb86f584783a3716b02a466ce567c951e239e2b4ead0b",
    "e18cba7cc3687e5706b9e7d3820083f297fad22c9d19242ca573c9237f61061f",
    "ccgp-live-6848e1ae539c1335e54e722301a43fe6dc0b353dfffe9fd84fc57c5738e681bf"]

/-- The libraries on what the two requests below give them. -/
def smallLib : MaterializeLib where
  str v := match strings.find? fun s => jsonText v = some (Json.units s) with
    | some s => .ok s
    | none => .wrong ⟨[], "string_type", ""⟩ []
  int v := match v with
    | .num (.int n) => .ok n
    | _ => .wrong ⟨[], "int_type", ""⟩ []
  datetime v := if jsonText v = some (Json.units "2026-01-01T00:00:00Z") then .ok (.aware newYear)
    else .wrong ⟨[], "datetime_type", ""⟩ []
  url s := if s = "https://www.ccgp.gov.cn/" then .ok frontPage else .wrong ⟨[], "url_parsing", ""⟩ []
  timeText t := if t = newYear then "2026-01-01T00:00:00Z" else ""
  text _ _ := ""
  keyName _ := ""
  netloc _ := .ok "www.ccgp.gov.cn"
  casefold s := s
  strip s := s
  repr s := s
  sha256 bytes := match bytes.length with
    | 2 => "4f53cda18c2baa0c0354bb5f9a3ecbe5ed12ab4d8e11ba873c2f11161202b945"
    | 769 => "4fce7396a5d7828ee1bbef8228893a3ac1847b5b6a561fc32e14ef7e570d14d1"
    | 788 => "2dc6a3662a494bc19f3bb86f584783a3716b02a466ce567c951e239e2b4ead0b"
    | _ => ""
  lower s := s
  urlsplit _ := some ⟨"https", some "www.ccgp.gov.cn", none, none, none, "", ""⟩
  isoformat t := if t = newYear then "2026-01-01T00:00:00+00:00" else ""
  loadsOther _ := .notObject
  osError _ := ""
  size _ := 0

def smallContract : SourceContract where
  contractVersion := "ccgp-v1"
  authorizationRef := "a"
  dataOwner := "o"
  regions := ["r"]
  categories := ["c"]
  reviewStatus := .approved
  reviewedAt := some newYear
  updateSla := .weekly
  retentionDays := 1

def smallRequest (extra : List (Option String × PyValue)) : Request where
  page :=
    { cursorBefore := none, nextCursor := none, items := [], responseBytes := [91, 93],
      responseSha256 := "4f53cda18c2baa0c0354bb5f9a3ecbe5ed12ab4d8e11ba873c2f11161202b945",
      retrievedAt := .aware newYear, statusCode := 200, sourceUrl := "https://www.ccgp.gov.cn/",
      responseItemsField := "items", noticeFieldMap := .empty }
  batchId := "b"
  dataContract := some smallContract
  retrievalOutcome := "ok"
  parserVersion := "1"
  extraMetadata := extra

theorem small_lawful : smallLib.toPydanticLib.Lawful where
  str s t h := by
    dsimp only [smallLib] at h
    split at h
    · next t' hfind =>
      have hfound := List.find?_some hfind
      have htext : some (Json.units s) = some (Json.units t') := of_decide_eq_true hfound
      rw [← Checked.ok.inj h]
      exact (Json.units_injective (Option.some.inj htext)).symm
    · cases h
  int n k h := by
    exact (Checked.ok.inj h).symm
  datetime t q _ h := by
    dsimp only [smallLib] at h
    by_cases ht : t = newYear
    · have htext : jsonText (Json.str (Json.units "2026-01-01T00:00:00Z")) = some (Json.units "2026-01-01T00:00:00Z") :=
        rfl
      rw [if_pos ht, if_pos htext] at h
      rw [← Checked.ok.inj h, ht]
    · have htext : jsonText (Json.str (Json.units "")) ≠ some (Json.units "2026-01-01T00:00:00Z") := by decide
      rw [if_neg ht, if_neg htext] at h
      cases h
  url s u v hu hv := by
    dsimp only [smallLib] at hu hv
    split at hu
    · obtain rfl := Checked.ok.inj hu
      exact (Checked.ok.inj hv).symm
    · cases hu

def roomy : Materializer := ⟨["s"], by decide, 1000, by decide⟩

def cramped : Materializer := ⟨["s"], by decide, 100, by decide⟩

def working : System := ⟨fun _ => false, "t", fun _ => none, fun _ => true, true⟩

def emptyDisk : Disk Bytes := .ofDict .empty rfl nofun nofun

theorem materialize_law_small : Law smallLib roomy working emptyDisk (smallRequest []) :=
  materialize_law smallLib small_lawful roomy working emptyDisk (smallRequest [])

/-- The request is prepared with the id and a manifest of the size, which, read back, declares the response. -/
def preparedAs (id : String) (size : Nat) (out : Except Quarantine Prepared) : Bool :=
  match out with
  | .ok p =>
    match SnapshotManifest.ofJson smallLib.toPydanticLib (p.manifest.dump smallLib.toPydanticLib).sorted.json with
    | .ok n => decide (p.bundleId = id) && decide ((manifestBytes smallLib p.manifest).length = size) &&
      decide (n.files.entries = [(responseName, "4f53cda18c2baa0c0354bb5f9a3ecbe5ed12ab4d8e11ba873c2f11161202b945")])
    | .wrong _ _ => false
  | .error _ => false

theorem declares_of_preparedAs {id : String} {size : Nat} {out : Except Quarantine Prepared}
    (h : preparedAs id size out = true) :
    ∃ p, out = .ok p ∧ p.bundleId = id ∧ (manifestBytes smallLib p.manifest).length = size ∧
      Declares (bundleLib smallLib) (manifestBytes smallLib p.manifest) [91, 93] := by
  cases out with
  | error q => cases h
  | ok p =>
    unfold preparedAs at h
    dsimp only at h
    split at h
    · next n hn =>
      simp only [Bool.and_eq_true, decide_eq_true_eq] at h
      obtain ⟨⟨hid, hsize⟩, hfiles⟩ := h
      exact ⟨p, rfl, hid, hsize, declares_of_read hn hfiles rfl⟩
    · cases h

/-- Such a request is published on an empty disk. -/
theorem published_small {id : String} {size : Nat} {extra : List (Option String × PyValue)}
    (h : preparedAs id size (prepare smallLib 1000 (smallRequest extra)) = true) (hsize : size ≤ 998) :
    ∃ d b, materialize smallLib roomy working emptyDisk (smallRequest extra) = (d, .ok b) ∧ b.bundleId = id := by
  obtain ⟨p, hp, rfl, rfl, hdeclares⟩ := declares_of_preparedAs h
  obtain ⟨d, hmade⟩ : ∃ d, emptyDisk.makeDirs roomy.stagingRoot = some d := Option.isSome_iff_exists.mp (by decide)
  obtain ⟨root, hgrown⟩ := Disk.makeDirs_spec roomy.names hmade
  have hempty : ∀ s : String, d.node (root ++ [s]) = none := fun s => by
    rw [hgrown.beneath _ (List.cons_ne_nil _ _), Disk.node, FileTree.node_of_ne (by simp)]
    rfl
  exact materialize_works (m := roomy) hp (fun _ => rfl) (fun _ => rfl) hmade hgrown.leads (hempty _) (hempty _)
    (by show _ + 2 ≤ 1000; omega) hdeclares

theorem small_prepared : preparedAs "ccgp-live-4fce7396a5d7828ee1bbef8228893a3ac1847b5b6a561fc32e14ef7e570d14d1" 886
    (prepare smallLib 1000 (smallRequest [])) = true := by decide +kernel

theorem noted_prepared : preparedAs "ccgp-live-2dc6a3662a494bc19f3bb86f584783a3716b02a466ce567c951e239e2b4ead0b" 905
    (prepare smallLib 1000 (smallRequest [(some "operator_note", .str "x")])) = true := by decide +kernel

/-- One page and batch, two notes, two ids; and a bundle that is there, accepted
and as it would be written, is not returned under a limit below its size. -/
theorem notes_and_limit_matter : ∃ d b d' b',
    materialize smallLib roomy working emptyDisk (smallRequest []) = (d, .ok b) ∧
    materialize smallLib roomy working emptyDisk (smallRequest [(some "operator_note", .str "x")]) = (d', .ok b') ∧
    b.bundleId ≠ b'.bundleId ∧
    ReportedValid (bundleLib smallLib) d b.path ∧
    readBytes (d.stat (b.path ++ [manifestName])) = some (manifestBytes smallLib b.manifest) ∧
    readBytes (d.stat (b.path ++ [responseName])) = some [91, 93] ∧
    ∀ d'' b'', materialize smallLib cramped working d (smallRequest []) ≠ (d'', .ok b'') := by
  obtain ⟨d, b, hb, hid⟩ := published_small small_prepared (by decide)
  obtain ⟨d', b', hb', hid'⟩ := published_small noted_prepared (by decide)
  have hne : b.bundleId ≠ b'.bundleId := by simp [hid, hid']
  obtain ⟨p, root, hp, hroot, hreusable, rfl⟩ := materialize_ok hb
  refine ⟨d, _, d', b', hb, hb', hne, hreusable.accepted, hreusable.manifest, hreusable.response, ?_⟩
  intro d'' b'' hb''
  obtain ⟨p', root', hp', hroot', hreusable', -⟩ := materialize_ok hb''
  obtain ⟨p₀, hp₀, -, hsize, -⟩ := declares_of_preparedAs small_prepared
  obtain rfl := prepare_unique hp₀ hp'
  have hle := hreusable'.length_le hroot' (ordinary_of_length (prepare_described hp').length)
  have hlimit : cramped.maxBundleBytes = 100 := rfl
  omega

end BidScope.L9.Authorized
