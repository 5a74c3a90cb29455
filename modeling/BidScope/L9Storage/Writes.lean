import BidScope.L9Storage.Objects

/-!
# Writing a local object, call by call

`LocalObjectStore.put_bytes` on an operating system that may fail at every
call, and whose `write` may store fewer bytes than it is given and return how
many. The calls are those of the source: the parent directory, a temporary file
in it, one `os.write`, `os.close` and `os.replace`, and the clean-up where one
of them raises. The count that `os.write` returns is not looked at.

**Law (`CompleteOrAbsent`).** A put that returns has stored all bytes under the
key; one that raises leaves the key as it was and, if the clean-up succeeds, no
file more than before.

* `putBytesOn_whole`: where no call fails and the write is whole, this is the
  put of `LocalObjectStore` as one step.
* `completeOrAbsent_iff`: the law fails exactly for a write that stores too few
  bytes while all other calls succeed, and where the temporary file has the name
  of the key itself and cannot be removed.
-/
namespace BidScope.L9

/-- What `os.write` does: bytes stored and their number returned, or an error
after some of them. -/
inductive Written where
  | stored (n : Nat)
  | failed (n : Nat)
  deriving DecidableEq

/-- How the calls of one put come out, where the tree does not decide it. -/
structure Os where
  /-- `none`, or how many of the missing directories are there when it fails -/
  mkdir : Option Nat := none
  /-- the random part of the name, `none` where the file cannot be made -/
  mkstemp : Option String
  write : Written
  close : Bool := true
  replace : Bool := true
  /-- `os.path.exists`, which is false where it cannot tell -/
  pathExists : Bool := true
  unlink : Bool := true

/-- Bytes that are in the file when `os.write` is over. -/
def Written.bytes (w : Written) (data : Bytes) : Bytes :=
  match w with
  | .stored n => data.take n
  | .failed n => data.take n

def tempName (random : String) : String := ".tmp-" ++ random

/-- The clean-up; an error of `os.close` is passed over as one of `os.unlink` is.
mirrors delivery/objects.py:40-52 -/
def cleanUp (os : Os) (tmp : List String) (d : Root) : Root :=
  if os.pathExists = true ∧ os.unlink = true then d.remove tmp else d

/-- `os.replace(tmp_path, target)`; a directory is not replaced. -/
def replaceWith (os : Os) (d : Root) (tmp path : List String) (bytes : Bytes) : Option Root :=
  if os.replace = true then (d.remove tmp).write path bytes else none

/-- mirrors delivery/objects.py:35-52, with the parent directory there. -/
def writeThrough (os : Os) (d : Root) (path : List String) (data : Bytes) : Root × Res :=
  match os.mkstemp with
  | none => (d, .raised)
  | some random =>
    let tmp := path.dropLast ++ [tempName random]
    if d.node tmp ≠ none then (d, .raised)
    else
      match d.write tmp (os.write.bytes data) with
      | none => (d, .raised)
      | some d₁ =>
        match os.write with
        | .failed _ => (cleanUp os tmp d₁, .raised)
        | .stored n =>
          if os.close = false then (cleanUp os tmp d₁, .raised)
          else
            match replaceWith os d₁ tmp path (data.take n) with
            | none => (cleanUp os tmp d₁, .raised)
            | some t' => (t', .done)

/-- mirrors delivery/objects.py:30-53. For the root itself the temporary file
lies beside it, and the root is not replaced. -/
def putBytesOn (os : Os) (t : Root) (key : String) (data : Bytes) : Root × Res :=
  match resolve key with
  | none => (t, .raised)
  | some path =>
    match os.mkdir with
    | some made => ((t.mkdirs (path.dropLast.take made)).getD t, .raised)
    | none =>
      match t.mkdirs path.dropLast with
      | none => (t, .raised)
      | some d => if path = [] then (d, .raised) else writeThrough os d path data

/-! ## The law -/

/-- The key is as it was, with its content or without; after a clean-up no file is
there that was not. -/
structure Kept (os : Os) (t t' : Root) (key : String) : Prop where
  content : t'.getBytes key = t.getBytes key
  found : t'.existsKey key = t.existsKey key
  cleaned : os.pathExists = true → os.unlink = true → ∀ q, t'.file? q = t.file? q

structure CompleteOrAbsent (os : Os) (t : Root) (key : String) (data : Bytes) : Prop where
  complete : (putBytesOn os t key data).2 = .done →
    (putBytesOn os t key data).1.getBytes key = .bytes data
  absent : (putBytesOn os t key data).2 ≠ .done → Kept os t (putBytesOn os t key data).1 key

/-- The write returns that it stored fewer bytes than it was given. -/
def Short (os : Os) (data : Bytes) : Prop := ∃ n, os.write = .stored n ∧ n < data.length

/-- The temporary file is made in the directory of the key. -/
structure Opened (os : Os) (t : Root) (key : String) (path : List String) (random : String) : Prop where
  resolved : resolve key = some path
  below : path ≠ []
  mkdir : os.mkdir = none
  parents : ∀ q, q <+: path → q ≠ path → t.file? q = none
  mkstemp : os.mkstemp = some random
  fresh : t.node (path.dropLast ++ [tempName random]) = none

/-- Every call but the write succeeds. -/
def OthersSucceed (os : Os) (t : Root) (key : String) : Prop :=
  ∃ path random, Opened os t key path random ∧ os.close = true ∧ os.replace = true ∧
    t.node path ≠ some .dir

/-- The write, the close or the replacement fails. -/
def Fails (os : Os) : Prop := (∃ n, os.write = .failed n) ∨ os.close = false ∨ os.replace = false

/-- The temporary file has the name of the key, and stays after an error. -/
def Collides (os : Os) (t : Root) (key : String) : Prop :=
  ∃ path random, Opened os t key path random ∧ path = path.dropLast ++ [tempName random] ∧
    Fails os ∧ ¬ (os.pathExists = true ∧ os.unlink = true)

/-! ## What a put leaves -/

variable {os : Os} {t d : Root} {key : String} {data : Bytes} {path tmp : List String}

/-- A tree with the files of another one, but for the temporary file, and the
same at the path. -/
structure Leaves (os : Os) (t t' : Root) (path : List String) : Prop where
  node : t'.node path = t.node path
  cleaned : os.pathExists = true → os.unlink = true → ∀ q, t'.file? q = t.file? q

theorem Leaves.trans {t' t'' : Root} (h : Leaves os t t' path) (h' : Leaves os t' t'' path) :
    Leaves os t t'' path where
  node := h'.node.trans h.node
  cleaned := fun hex hun q => (h'.cleaned hex hun q).trans (h.cleaned hex hun q)

theorem Leaves.refl (os : Os) (t : Root) (path : List String) : Leaves os t t path := ⟨rfl, fun _ _ _ => rfl⟩

/-- The clean-up leaves no more than was there, unless it fails on a file with
the name of the key. -/
theorem leaves_cleanUp {bytes : Bytes} {d₁ : Root} (hfresh : d.node tmp = none)
    (hw : d.write tmp bytes = some d₁)
    (hne : path ≠ tmp ∨ os.pathExists = true ∧ os.unlink = true) :
    Leaves os d (cleanUp os tmp d₁) path := by
  have hfile : (d₁.file? tmp).isSome := by
    rw [FileTree.file_write hw, if_pos rfl]
    rfl
  unfold cleanUp
  split
  · refine ⟨?_, fun _ _ q => ?_⟩
    · rw [FileTree.node_remove hfile, FileTree.node_write hw]
      by_cases hp : path = tmp
      · rw [if_pos hp, hp, hfresh]
      · rw [if_neg hp, if_neg hp]
    · rw [FileTree.file_remove, FileTree.file_write hw]
      by_cases hq : q = tmp
      · rw [if_pos hq, hq, FileTree.file_of_none hfresh]
      · rw [if_neg hq, if_neg hq]
  · rename_i hno
    have hp : path ≠ tmp := hne.resolve_right hno
    exact ⟨by rw [FileTree.node_write hw, if_neg hp], fun hex hun => absurd ⟨hex, hun⟩ hno⟩

/-! ## One write -/

theorem writeThrough_opens (os : Os) (d : Root) (path : List String) (data : Bytes) :
    writeThrough os d path data = (d, .raised) ∨
      ∃ random, os.mkstemp = some random ∧ d.node (path.dropLast ++ [tempName random]) = none := by
  unfold writeThrough
  cases hmks : os.mkstemp with
  | none => exact .inl rfl
  | some random =>
    by_cases hfresh : d.node (path.dropLast ++ [tempName random]) = none
    · exact .inr ⟨random, rfl, hfresh⟩
    · exact .inl (by simp [hfresh])

section Opened

variable {random : String} {d₁ : Root} (hmks : os.mkstemp = some random)
  (hfresh : d.node (path.dropLast ++ [tempName random]) = none)
  (hw : d.write (path.dropLast ++ [tempName random]) (os.write.bytes data) = some d₁)

include hmks hfresh hw

theorem writeThrough_fails (hf : Fails os ∨
    ∀ b, (d₁.remove (path.dropLast ++ [tempName random])).write path b = none) :
    writeThrough os d path data = (cleanUp os (path.dropLast ++ [tempName random]) d₁, .raised) := by
  unfold writeThrough
  rw [hmks]
  simp only [hfresh, hw, ne_eq, not_true_eq_false, if_false]
  cases hwrite : os.write with
  | failed n => rfl
  | stored n =>
    rcases hf with (⟨m, hm⟩ | hclose | hreplace) | hput
    · rw [hwrite] at hm
      cases hm
    · simp [hclose]
    · simp [replaceWith, hreplace]
    · simp [replaceWith, hput]

theorem writeThrough_stored {n : Nat} {t' : Root} (hwrite : os.write = .stored n)
    (hclose : os.close = true) (hreplace : os.replace = true)
    (hput : (d₁.remove (path.dropLast ++ [tempName random])).write path (data.take n) = some t') :
    writeThrough os d path data = (t', .done) := by
  unfold writeThrough
  rw [hmks]
  simp only [hfresh, hw, ne_eq, not_true_eq_false, if_false]
  rw [hwrite]
  simp [hclose, replaceWith, hreplace, hput]

omit hmks in
/-- The temporary file can take the place of the path unless that is a directory. -/
theorem replace_isSome_iff {b : Bytes} (hne : path ≠ []) (hparent : d.node path.dropLast = some .dir) :
    ((d₁.remove (path.dropLast ++ [tempName random])).write path b).isSome ↔ d.node path ≠ some .dir := by
  have hdir : ∀ q, (d₁.remove (path.dropLast ++ [tempName random])).node q = some .dir ↔
      d.node q = some .dir := fun q => by
    rw [FileTree.dir_remove_iff, FileTree.node_write hw]
    split
    · rename_i hq
      rw [hq, hfresh]
      simp
    · rfl
  rw [FileTree.write_isSome_iff, ne_eq, ne_eq, hdir, hdir]
  simp [hne, hparent]

end Opened

/-! ## One put -/

theorem kept_of_leaves {t' : Root} (hres : resolve key = some path) (h : Leaves os t t' path) :
    Kept os t t' key where
  content := by simp only [Root.getBytes, hres, h.node]
  found := by simp only [Root.existsKey, hres, h.node]
  cleaned := h.cleaned

theorem not_prefix_dropLast (h : path ≠ []) (p : List String) (hp : p <+: path.dropLast) : ¬ path <+: p := by
  intro hpath
  have hle := (hpath.trans hp).length_le
  rw [List.length_dropLast] at hle
  have := List.length_pos_iff.mpr h
  omega

/-- Making directories leaves what is not one of them, also where it fails. -/
theorem leaves_made (os : Os) (t : Root) {p : List String} (hp : path = [] ∨ ¬ path <+: p) :
    Leaves os t ((t.mkdirs p).getD t) path := by
  cases hm : t.mkdirs p with
  | none => exact Leaves.refl os t path
  | some t' =>
    refine ⟨?_, fun _ _ q => FileTree.file_mkdirs hm q⟩
    rcases hp with rfl | hp
    · rw [FileTree.node_nil, FileTree.node_nil]
    · rw [Option.getD_some, FileTree.node_mkdirs hm, if_neg hp]

theorem leaves_parent (hne : path ≠ []) (hm : t.mkdirs path.dropLast = some d) : Leaves os t d path := by
  have h : Leaves os t ((t.mkdirs path.dropLast).getD t) path :=
    leaves_made os t (.inr (not_prefix_dropLast hne _ (List.prefix_refl _)))
  rwa [hm] at h

/-- A put ends before the temporary file, or is a write with the parent there. -/
theorem putBytesOn_cases (os : Os) (t : Root) (key : String) (data : Bytes) :
    ((putBytesOn os t key data).2 = .raised ∧ Kept os t (putBytesOn os t key data).1 key) ∨
    ∃ path d, resolve key = some path ∧ path ≠ [] ∧ os.mkdir = none ∧
      t.mkdirs path.dropLast = some d ∧ putBytesOn os t key data = writeThrough os d path data := by
  unfold putBytesOn
  cases hres : resolve key with
  | none => exact .inl ⟨rfl, rfl, rfl, fun _ _ _ => rfl⟩
  | some path =>
    have hside : ∀ p, p <+: path.dropLast → path = [] ∨ ¬ path <+: p := fun p hp =>
      (em (path = [])).imp_right fun hne => not_prefix_dropLast hne p hp
    cases hmk : os.mkdir with
    | some made => exact .inl ⟨rfl, kept_of_leaves hres (leaves_made os t (hside _ (List.take_prefix _ _)))⟩
    | none =>
      have hmade := leaves_made os t (hside path.dropLast (List.prefix_refl _))
      dsimp only
      cases hm : t.mkdirs path.dropLast with
      | none => exact .inl ⟨rfl, kept_of_leaves hres (Leaves.refl os t path)⟩
      | some d =>
        rw [hm] at hmade
        dsimp only
        by_cases hne : path = []
        · rw [if_pos hne]
          exact .inl ⟨rfl, kept_of_leaves hres hmade⟩
        · rw [if_neg hne]
          exact .inr ⟨path, d, rfl, hne, rfl, hm, rfl⟩

/-- Making the parent changes neither the path nor a name beside it. -/
theorem node_beside {p : List String} (hp : p ≠ []) (hparent : p.dropLast = path.dropLast)
    (h : t.mkdirs path.dropLast = some d) : d.node p = t.node p := by
  rw [FileTree.node_mkdirs h, if_neg]
  rw [← hparent]
  exact not_prefix_dropLast hp _ (List.prefix_refl _)

theorem temp_beside (random : String) :
    (path.dropLast ++ [tempName random]).dropLast = path.dropLast := List.dropLast_concat

/-- A put has left the key as it was, or made the temporary file. -/
theorem putBytesOn_opens (os : Os) (t : Root) (key : String) (data : Bytes) :
    ((putBytesOn os t key data).2 = .raised ∧ Kept os t (putBytesOn os t key data).1 key) ∨
    ∃ path random, Opened os t key path random := by
  rcases putBytesOn_cases os t key data with hkept | ⟨path, d, hres, hne, hmk, hm, heq⟩
  · exact .inl hkept
  · rcases writeThrough_opens os d path data with hw | ⟨random, hmks, hfresh⟩
    · rw [heq, hw]
      exact .inl ⟨rfl, kept_of_leaves hres (leaves_parent hne hm)⟩
    · refine .inr ⟨path, random, hres, hne, hmk, fun q hq hqne => ?_, hmks, ?_⟩
      · exact FileTree.mkdirs_isSome_iff.mp (Option.isSome_of_mem hm) q
          ((FileTree.isPrefix_dropLast_iff hne).mpr ⟨hq, hqne⟩)
      · rw [← hfresh, node_beside (by simp) (temp_beside random) hm]

/-- How a put ends that has made the temporary file: with the clean-up, or with
what the write stored under the key. -/
theorem Opened.ends {random : String} (ho : Opened os t key path random) (data : Bytes) :
    ∃ d d₁, Leaves os t d path ∧ d.node (path.dropLast ++ [tempName random]) = none ∧
      d.write (path.dropLast ++ [tempName random]) (os.write.bytes data) = some d₁ ∧
      (((Fails os ∨ t.node path = some .dir) ∧
          putBytesOn os t key data = (cleanUp os (path.dropLast ++ [tempName random]) d₁, .raised)) ∨
        ∃ n t', os.write = .stored n ∧ os.close = true ∧ os.replace = true ∧ t.node path ≠ some .dir ∧
          putBytesOn os t key data = (t', .done) ∧
          ∀ q, t'.file? q = if q = path then some (data.take n) else t.file? q) := by
  obtain ⟨hres, hne, hmk, hparents, hmks, hfresh⟩ := ho
  have hsome : (t.mkdirs path.dropLast).isSome := FileTree.mkdirs_isSome_iff.mpr fun q hq =>
    hparents q ((FileTree.isPrefix_dropLast_iff hne).mp hq).1 ((FileTree.isPrefix_dropLast_iff hne).mp hq).2
  obtain ⟨d, hm⟩ := Option.isSome_iff_exists.mp hsome
  have hparent : d.node path.dropLast = some .dir := by
    rw [FileTree.node_mkdirs hm, if_pos (List.prefix_refl _)]
  have hnode : d.node path = t.node path := node_beside hne rfl hm
  have htemp : d.node (path.dropLast ++ [tempName random]) = none := by
    rw [node_beside (by simp) (temp_beside random) hm, hfresh]
  have hsomew : (d.write (path.dropLast ++ [tempName random]) (os.write.bytes data)).isSome := by
    rw [FileTree.write_isSome_iff, htemp, temp_beside, hparent]
    exact ⟨by simp, by simp, rfl⟩
  obtain ⟨d₁, hw⟩ := Option.isSome_iff_exists.mp hsomew
  have heq : putBytesOn os t key data = writeThrough os d path data := by
    simp [putBytesOn, hres, hmk, hm, hne]
  refine ⟨d, d₁, leaves_parent hne hm, htemp, hw, ?_⟩
  rw [heq]
  by_cases hfails : Fails os
  · exact .inl ⟨.inl hfails, writeThrough_fails hmks htemp hw (.inl hfails)⟩
  by_cases hdir : t.node path = some .dir
  · refine .inl ⟨.inr hdir, writeThrough_fails hmks htemp hw (.inr fun b => ?_)⟩
    rw [← Option.not_isSome_iff_eq_none, replace_isSome_iff htemp hw hne hparent, not_not, hnode, hdir]
  · obtain ⟨hstored, hclose, hreplace⟩ : (∀ n, os.write ≠ .failed n) ∧ os.close = true ∧ os.replace = true := by
      simpa [Fails] using hfails
    cases hwrite : os.write with
    | failed n => exact absurd hwrite (hstored n)
    | stored n =>
      have hput : ((d₁.remove (path.dropLast ++ [tempName random])).write path (data.take n)).isSome :=
        (replace_isSome_iff htemp hw hne hparent).mpr (hnode ▸ hdir)
      obtain ⟨t', ht'⟩ := Option.isSome_iff_exists.mp hput
      refine .inr ⟨n, t', rfl, hclose, hreplace, hdir,
        writeThrough_stored hmks htemp hw hwrite hclose hreplace ht', fun q => ?_⟩
      rw [FileTree.file_write ht', FileTree.file_remove, FileTree.file_write hw]
      by_cases hq : q = path.dropLast ++ [tempName random]
      · rw [if_pos hq, hq, FileTree.file_of_none hfresh]
      · rw [if_neg hq, if_neg hq, FileTree.file_mkdirs hm]

/-! ## When the law holds -/

theorem not_fails {n : Nat} (hwrite : os.write = .stored n) (hclose : os.close = true)
    (hreplace : os.replace = true) : ¬ Fails os := by
  rintro (⟨m, hm⟩ | hc | hr)
  · rw [hwrite] at hm
    cases hm
  · rw [hclose] at hc
    cases hc
  · rw [hreplace] at hr
    cases hr

/-- **A put is complete or absent** unless the write stores too few bytes while
all else succeeds, or the temporary file has the name of the key and stays. -/
theorem completeOrAbsent_iff (os : Os) (t : Root) (key : String) (data : Bytes) :
    CompleteOrAbsent os t key data ↔
      ¬ (Short os data ∧ OthersSucceed os t key) ∧ ¬ Collides os t key := by
  constructor
  · refine fun h => ⟨?_, ?_⟩
    · rintro ⟨⟨n, hwrite, hlt⟩, path, random, ho, hclose, hreplace, hdir⟩
      obtain ⟨d, d₁, -, -, -, ⟨hf | hdir', -⟩ | ⟨n', t', hwrite', -, -, -, heq, hfiles⟩⟩ := ho.ends data
      · exact not_fails hwrite hclose hreplace hf
      · exact hdir hdir'
      · obtain rfl : n = n' := Written.stored.inj (hwrite.symm.trans hwrite')
        have hread := h.complete (by rw [heq])
        have hnode := FileTree.file_iff.mp ((hfiles path).trans (if_pos rfl))
        simp only [heq, Root.getBytes, ho.resolved, hnode, Res.bytes.injEq] at hread
        have hlen := congrArg List.length hread
        rw [List.length_take] at hlen
        omega
    · rintro ⟨path, random, ho, hsame, hfails, hclean⟩
      obtain ⟨d, d₁, hmade, hfresh, hw, ⟨-, heq⟩ | ⟨n, t', hwrite, hclose, hreplace, -⟩⟩ := ho.ends data
      · have hfound := (h.absent (by rw [heq]; simp)).found
        have hthere : d₁.node path = some (.file (os.write.bytes data)) := by
          rw [FileTree.node_write hw, if_pos hsame]
        have hfree : t.node path = none := by
          rw [hsame]
          exact ho.fresh
        rw [heq, cleanUp, if_neg hclean] at hfound
        simp [Root.existsKey, ho.resolved, hthere, hfree] at hfound
      · exact not_fails hwrite hclose hreplace hfails
  · rintro ⟨hshort, hcollides⟩
    rcases putBytesOn_opens os t key data with ⟨hraised, hkept⟩ | ⟨path, random, ho⟩
    · exact ⟨fun hdone => absurd (hraised.symm.trans hdone) (by simp), fun _ => hkept⟩
    obtain ⟨d, d₁, hmade, hfresh, hw, ⟨hends, heq⟩ | ⟨n, t', hwrite, hclose, hreplace, hdir, heq, hfiles⟩⟩ :=
      ho.ends data
    · have hraised : (putBytesOn os t key data).2 = .raised := by rw [heq]
      refine ⟨fun hdone => absurd (hraised.symm.trans hdone) (by simp), fun _ => ?_⟩
      rw [heq]
      refine kept_of_leaves ho.resolved (hmade.trans (leaves_cleanUp hfresh hw ?_))
      by_contra hside
      obtain ⟨hsame, hclean⟩ := not_or.mp hside
      rw [not_not] at hsame
      rcases hends with hfails | hdir
      · exact hcollides ⟨path, random, ho, hsame, hfails, hclean⟩
      · -- the key's own name is free
        have hfree := ho.fresh
        rw [← hsame, hdir] at hfree
        cases hfree
    · refine ⟨fun _ => ?_, fun hnot => absurd (by rw [heq]) hnot⟩
      have hwhole : ¬ n < data.length := fun hlt =>
        hshort ⟨⟨n, hwrite, hlt⟩, path, random, ho, hclose, hreplace, hdir⟩
      have hnode := FileTree.file_iff.mp ((hfiles path).trans (if_pos rfl))
      simp only [heq, Root.getBytes, ho.resolved, hnode]
      rw [List.take_of_length_le (by omega)]

/-- Where no call fails and the write is whole, the put is the put as one step. -/
theorem putBytesOn_whole {random : String} (ho : Opened os t key path random) (hclose : os.close = true)
    (hreplace : os.replace = true) (hwrite : os.write = .stored data.length)
    (hdir : t.node path ≠ some .dir) :
    (putBytesOn os t key data).2 = (t.putBytes key data).2 ∧
      ∀ q, (putBytesOn os t key data).1.file? q = (t.putBytes key data).1.file? q := by
  obtain ⟨d, d₁, -, -, -, ⟨hf | hdir', -⟩ | ⟨n, t', hwrite', -, -, -, heq, hfiles⟩⟩ := ho.ends data
  · exact absurd hf (not_fails hwrite hclose hreplace)
  · exact absurd hdir' hdir
  obtain rfl : data.length = n := Written.stored.inj (hwrite.symm.trans hwrite')
  have hput : (t.put path data).isSome := FileTree.put_isSome_iff.mpr ⟨ho.below, hdir, ho.parents⟩
  obtain ⟨t'', ht''⟩ := Option.isSome_iff_exists.mp hput
  obtain ⟨e, he, hw⟩ := FileTree.put_eq_some ht''
  have hone : t.putBytes key data = (t'', .done) := by
    simp only [Root.putBytes, ho.resolved, he, hw]
  rw [heq, hone]
  refine ⟨rfl, fun q => ?_⟩
  rw [hfiles, FileTree.file_put ht'', List.take_length]

/-! ## A short write -/

/-- Every call succeeds, and the write stores one byte of two. -/
def shortOs : Os where
  mkstemp := some "a"
  write := .stored 1

/-- A put returns, and the object is cut. -/
theorem truncated_published : (putBytesOn shortOs .empty "k" [1, 2]).2 = .done ∧
    (putBytesOn shortOs .empty "k" [1, 2]).1.getBytes "k" = .bytes [1] ∧
    ¬ CompleteOrAbsent shortOs .empty "k" [1, 2] := by
  have hdone : (putBytesOn shortOs .empty "k" [1, 2]).2 = .done := by decide +kernel
  have hread : (putBytesOn shortOs .empty "k" [1, 2]).1.getBytes "k" = .bytes [1] := by decide +kernel
  refine ⟨hdone, hread, fun h => ?_⟩
  have hwhole := h.complete hdone
  rw [hread] at hwhole
  exact absurd hwhole (by decide)

end BidScope.L9
