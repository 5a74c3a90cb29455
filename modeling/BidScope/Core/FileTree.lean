import Mathlib.Data.List.Infix
import BidScope.Core.Dict
import BidScope.Core.Ledger

/-!
# File trees

A directory below which every path is a directory, a file with its bytes, or
not there. Paths are lists of names. What stands below another entry stands
below a directory: that is a field, so no file has entries below it.

* `mkdirs`: a directory with its missing ancestors; it fails where one of them
  is a file. `write`: a file in an existing directory. `put`: both.
* `node_put`: what a put leaves at every path; `put_isSome_iff`: when it succeeds.
* `node_remove`: removing a file leaves the directories.
* `putAll_isSome_iff`: files can be put one after another into an empty
  tree exactly when no path is another with names added, and none is empty.
-/

inductive Entry (β : Type) where
  | dir
  | file (bytes : β)
  deriving DecidableEq

structure FileTree (σ β : Type) [DecidableEq σ] where
  entries : Dict (List σ) (Entry β)
  root : entries.get [] = none
  closed : ∀ p s e, entries.get (p ++ [s]) = some e → p = [] ∨ entries.get p = some .dir

namespace FileTree

variable {σ β : Type} [DecidableEq σ] {t t' : FileTree σ β} {p q : List σ} {b : β}

def node (t : FileTree σ β) (p : List σ) : Option (Entry β) :=
  if p = [] then some .dir else t.entries.get p

def file? (t : FileTree σ β) (p : List σ) : Option β :=
  match t.node p with
  | some (.file b) => some b
  | _ => none

theorem file_iff : t.file? p = some b ↔ t.node p = some (.file b) := by
  unfold file?
  split <;> simp_all

@[simp] theorem node_nil : t.node [] = some .dir := by simp [node]

theorem node_of_ne (h : p ≠ []) : t.node p = t.entries.get p := by simp [node, h]

theorem file_nil : t.file? [] = none := by simp [file?]

theorem file_of_dir (h : t.node p = some .dir) : t.file? p = none := by simp [file?, h]

theorem file_of_none (h : t.node p = none) : t.file? p = none := by simp [file?, h]

theorem dir_of_snoc {s : σ} (h : t.node (p ++ [s]) ≠ none) : t.node p = some .dir := by
  rw [node_of_ne (by simp)] at h
  obtain ⟨e, he⟩ := Option.ne_none_iff_exists'.mp h
  rcases t.closed p s e he with rfl | hd
  · exact node_nil
  · by_cases hp : p = []
    · simp [hp]
    · rwa [node_of_ne hp]

/-- Whatever stands below a path stands below a directory. -/
theorem dir_of_below : ∀ (r : List σ), r ≠ [] → t.node (p ++ r) ≠ none → t.node p = some .dir := by
  intro r
  induction r using List.reverseRecOn with
  | nil => exact fun h _ => absurd rfl h
  | append_singleton r s ih =>
    intro _ h
    rw [← List.append_assoc] at h
    have hr := dir_of_snoc h
    by_cases hn : r = []
    · simpa [hn] using hr
    · exact ih hn (by simp [hr])

theorem dir_of_isPrefix (hq : q <+: p) (hne : q ≠ p) (h : t.node p ≠ none) : t.node q = some .dir := by
  obtain ⟨r, rfl⟩ := hq
  refine dir_of_below r ?_ h
  rintro rfl
  exact hne (List.append_nil q).symm

/-! ## Making directories -/

/-- Each step of the way from `done` down is a directory. -/
def addDirs (d : Dict (List σ) (Entry β)) (done : List σ) : List σ → Dict (List σ) (Entry β)
  | [] => d
  | s :: rest => addDirs (d.set (done ++ [s]) .dir) (done ++ [s]) rest

theorem get_addDirs : ∀ (p : List σ) (d : Dict (List σ) (Entry β)) (done q : List σ),
    (addDirs d done p).get q =
      if done <+: q ∧ q ≠ done ∧ q <+: done ++ p then some .dir else d.get q
  | [], d, done, q => by
    have hno : ¬ (done <+: q ∧ q ≠ done ∧ q <+: done ++ []) := by
      rintro ⟨h₁, h₂, h₃⟩
      rw [List.append_nil] at h₃
      exact h₂ (h₃.eq_of_length (Nat.le_antisymm h₃.length_le h₁.length_le))
    rw [if_neg hno]
    rfl
  | s :: rest, d, done, q => by
    rw [addDirs, get_addDirs rest, Dict.get_set, List.append_assoc, List.singleton_append]
    by_cases hq : done ++ [s] = q
    · subst hq
      simp
    · rw [if_neg hq]
      -- below `done` on the way to `s :: rest` is at or below `done ++ [s]`
      have hiff : (done ++ [s] <+: q ∧ q ≠ done ++ [s] ∧ q <+: done ++ s :: rest) ↔
          done <+: q ∧ q ≠ done ∧ q <+: done ++ s :: rest := by
        constructor
        · rintro ⟨h₁, h₂, h₃⟩
          refine ⟨(List.prefix_append _ _).trans h₁, ?_, h₃⟩
          rintro rfl
          have hlen := h₁.length_le
          rw [List.length_append] at hlen
          exact absurd hlen (by simp)
        · rintro ⟨⟨r, rfl⟩, h₂, h₃⟩
          cases r with
          | nil => simp at h₂
          | cons x r =>
            obtain ⟨rfl, -⟩ := List.cons_prefix_cons.mp ((List.prefix_append_right_inj done).mp h₃)
            exact ⟨⟨r, by simp⟩, Ne.symm hq, h₃⟩
      simp only [hiff]

theorem get_addDirs_root (d : Dict (List σ) (Entry β)) (p q : List σ) :
    (addDirs d [] p).get q = if q ≠ [] ∧ q <+: p then some .dir else d.get q := by
  rw [get_addDirs]
  simp

theorem root_addDirs (t : FileTree σ β) (p : List σ) : (addDirs t.entries [] p).get [] = none := by
  rw [get_addDirs_root]
  simp [t.root]

theorem closed_addDirs (t : FileTree σ β) (p q : List σ) (s : σ) (e : Entry β)
    (hq : (addDirs t.entries [] p).get (q ++ [s]) = some e) :
    q = [] ∨ (addDirs t.entries [] p).get q = some .dir := by
  rw [get_addDirs_root] at hq ⊢
  by_cases hn : q = []
  · exact .inl hn
  · right
    split at hq
    · rename_i hp
      rw [if_pos ⟨hn, (List.prefix_append _ _).trans hp.2⟩]
    · split
      · rfl
      · exact (t.closed q s e hq).resolve_left hn

/-- `path.mkdir(parents=True, exist_ok=True)` -/
def mkdirs (t : FileTree σ β) (p : List σ) : Option (FileTree σ β) :=
  if ∃ q ∈ p.inits, (t.file? q).isSome then none
  else some ⟨addDirs t.entries [] p, root_addDirs t p, closed_addDirs t p⟩

theorem mkdirs_isSome_iff : (t.mkdirs p).isSome ↔ ∀ q, q <+: p → t.file? q = none := by
  unfold mkdirs
  split
  · rename_i h
    obtain ⟨q, hq, hsome⟩ := h
    simp only [Option.isSome_none, Bool.false_eq_true, false_iff, not_forall]
    refine ⟨q, (List.mem_inits q p).mp hq, ?_⟩
    rw [← ne_eq, ← Option.isSome_iff_ne_none]
    exact hsome
  · rename_i h
    simp only [Option.isSome_some, true_iff]
    intro q hq
    by_contra hne
    exact h ⟨q, (List.mem_inits q p).mpr hq, Option.isSome_iff_ne_none.mpr hne⟩

theorem node_mkdirs (h : t.mkdirs p = some t') (q : List σ) :
    t'.node q = if q <+: p then some .dir else t.node q := by
  unfold mkdirs at h
  split at h
  · cases h
  · cases h
    unfold node
    by_cases hq : q = []
    · simp [hq]
    · simp only [hq, if_false, get_addDirs_root, ne_eq, not_false_eq_true, true_and]

theorem file_mkdirs (h : t.mkdirs p = some t') (q : List σ) : t'.file? q = t.file? q := by
  have hsome : (t.mkdirs p).isSome := by rw [h]; rfl
  have hnode := node_mkdirs h q
  by_cases hq : q <+: p
  · rw [if_pos hq] at hnode
    rw [file_of_dir hnode, mkdirs_isSome_iff.mp hsome q hq]
  · rw [if_neg hq] at hnode
    unfold file?
    rw [hnode]

/-! ## Writing and removing files -/

def isDir (t : FileTree σ β) (p : List σ) : Bool :=
  match t.node p with
  | some .dir => true
  | _ => false

theorem isDir_iff : t.isDir p = true ↔ t.node p = some .dir := by
  unfold isDir
  split <;> simp_all

theorem root_set (t : FileTree σ β) (hp : p ≠ []) (e : Entry β) :
    (t.entries.set p e).get [] = none := by
  rw [Dict.get_set_ne _ _ hp, t.root]

theorem closed_set (t : FileTree σ β) (hp : ¬ t.isDir p = true) (hd : t.isDir p.dropLast = true)
    (b : β) (q : List σ) (s : σ) (e : Entry β)
    (hq : (t.entries.set p (.file b)).get (q ++ [s]) = some e) :
    q = [] ∨ (t.entries.set p (.file b)).get q = some .dir := by
  rw [isDir_iff] at hp hd
  by_cases hn : q = []
  · exact .inl hn
  have hdir : t.node q = some .dir := by
    rw [Dict.get_set] at hq
    split at hq
    · rename_i hs
      rwa [hs, List.dropLast_concat] at hd
    · rw [node_of_ne hn]
      exact (t.closed q s e hq).resolve_left hn
  have hne : p ≠ q := by
    rintro rfl
    exact hp hdir
  right
  rw [Dict.get_set_ne _ _ hne, ← node_of_ne hn, hdir]

/-- The file at `p`, new or overwritten, in a directory that is there. -/
def write (t : FileTree σ β) (p : List σ) (b : β) : Option (FileTree σ β) :=
  if h : p ≠ [] ∧ ¬ t.isDir p = true ∧ t.isDir p.dropLast = true then
    some ⟨t.entries.set p (.file b), root_set t h.1 _, closed_set t h.2.1 h.2.2 b⟩
  else none

theorem node_write (h : t.write p b = some t') (q : List σ) :
    t'.node q = if q = p then some (.file b) else t.node q := by
  unfold write at h
  split at h
  · rename_i hc
    cases h
    unfold node
    by_cases hq : q = []
    · simp [hq, Ne.symm hc.1]
    · simp only [hq, if_false, Dict.get_set, eq_comm]
  · cases h

theorem write_isSome_iff :
    (t.write p b).isSome ↔ p ≠ [] ∧ t.node p ≠ some .dir ∧ t.node p.dropLast = some .dir := by
  unfold write
  split
  · rename_i h
    simpa [isDir_iff] using h
  · rename_i h
    simpa [isDir_iff] using h

theorem file_write (h : t.write p b = some t') (q : List σ) :
    t'.file? q = if q = p then some b else t.file? q := by
  have hnode := node_write h q
  by_cases hq : q = p
  · rw [if_pos hq] at hnode
    rw [if_pos hq, file_iff, hnode]
  · rw [if_neg hq] at hnode
    rw [if_neg hq]
    unfold file?
    rw [hnode]

/-- `path.parent.mkdir(parents=True, exist_ok=True)`, and then the file. -/
def put (t : FileTree σ β) (p : List σ) (b : β) : Option (FileTree σ β) :=
  (t.mkdirs p.dropLast).bind fun t => t.write p b

omit [DecidableEq σ] in
theorem isPrefix_dropLast_iff (hp : p ≠ []) : q <+: p.dropLast ↔ q <+: p ∧ q ≠ p := by
  obtain ⟨r, s, rfl⟩ : ∃ r s, p = r ++ [s] := ⟨_, _, (List.dropLast_append_getLast hp).symm⟩
  rw [List.dropLast_concat, List.prefix_concat_iff]
  constructor
  · intro h
    refine ⟨.inr h, ?_⟩
    rintro rfl
    have hlen := h.length_le
    rw [List.length_append] at hlen
    exact absurd hlen (by simp)
  · rintro ⟨h | h, hne⟩
    · exact absurd h hne
    · exact h

theorem put_eq_some (h : t.put p b = some t') :
    ∃ d, t.mkdirs p.dropLast = some d ∧ d.write p b = some t' := Option.bind_eq_some_iff.mp h

theorem ne_nil_of_put (h : t.put p b = some t') : p ≠ [] := by
  obtain ⟨d, -, hw⟩ := put_eq_some h
  unfold write at hw
  split at hw
  · rename_i hc
    exact hc.1
  · cases hw

theorem node_put (h : t.put p b = some t') (q : List σ) :
    t'.node q = if q = p then some (.file b) else if q <+: p then some .dir else t.node q := by
  have hne := ne_nil_of_put h
  obtain ⟨d, hd, hw⟩ := put_eq_some h
  rw [node_write hw, node_mkdirs hd]
  by_cases hq : q = p
  · simp [hq]
  · simp only [hq, if_false, isPrefix_dropLast_iff hne, ne_eq, not_false_eq_true, and_true]

/-- A put succeeds unless the path is the root or a directory, or has a file
above it. -/
theorem put_isSome_iff : (t.put p b).isSome ↔
    p ≠ [] ∧ t.node p ≠ some .dir ∧ ∀ q, q <+: p → q ≠ p → t.file? q = none := by
  by_cases hne : p = []
  · subst hne
    have : t.put [] b = none := by
      cases h : t.put [] b with
      | none => rfl
      | some t' => exact absurd rfl (ne_nil_of_put h)
    simp [this]
  have hmk := mkdirs_isSome_iff (t := t) (p := p.dropLast)
  simp only [isPrefix_dropLast_iff hne, and_imp] at hmk
  cases hd : t.mkdirs p.dropLast with
  | none =>
    rw [hd] at hmk
    simp only [Option.isSome_none, Bool.false_eq_true, false_iff] at hmk
    simp [put, hd, hmk]
  | some d =>
    rw [hd] at hmk
    simp only [Option.isSome_some, true_iff] at hmk
    have hself : ¬ p <+: p.dropLast := fun h => ((isPrefix_dropLast_iff hne).mp h).2 rfl
    have hnode : d.isDir p = true ↔ t.node p = some .dir := by
      rw [isDir_iff, node_mkdirs hd, if_neg hself]
    have hparent : d.isDir p.dropLast = true := by
      rw [isDir_iff, node_mkdirs hd, if_pos (List.prefix_refl _)]
    simp only [put, hd, Option.bind_some, write]
    split
    · rename_i hc
      simp only [Option.isSome_some, true_iff]
      exact ⟨hc.1, fun hdir => hc.2.1 (hnode.mpr hdir), hmk⟩
    · rename_i hc
      simp only [Option.isSome_none, Bool.false_eq_true, false_iff, not_and]
      intro _ hdir
      exact absurd ⟨hne, fun h => hdir (hnode.mp h), hparent⟩ hc

theorem dir_put_iff (h : t.put p b = some t') :
    t'.node q = some .dir ↔ (q <+: p ∧ q ≠ p) ∨ t.node q = some .dir := by
  have hsome := put_isSome_iff.mp (Option.isSome_of_mem h)
  rw [node_put h]
  by_cases hq : q = p
  · subst hq
    simp [hsome.2.1]
  · by_cases hp : q <+: p <;> simp [hq, hp]

theorem file_put (h : t.put p b = some t') (q : List σ) :
    t'.file? q = if q = p then some b else t.file? q := by
  have hsome := put_isSome_iff.mp (Option.isSome_of_mem h)
  have hnode := node_put h q
  by_cases hq : q = p
  · rw [if_pos hq] at hnode
    rw [if_pos hq, file_iff, hnode]
  · rw [if_neg hq] at hnode
    rw [if_neg hq]
    by_cases hp : q <+: p
    · rw [if_pos hp] at hnode
      rw [file_of_dir hnode, hsome.2.2 q hp hq]
    · rw [if_neg hp] at hnode
      unfold file?
      rw [hnode]

theorem root_erase (t : FileTree σ β) (p : List σ) : (t.entries.erase p).get [] = none := by
  rw [Dict.get_erase]
  split
  · rfl
  · exact t.root

theorem closed_erase (t : FileTree σ β) (hf : (t.file? p).isSome) (q : List σ) (s : σ) (e : Entry β)
    (hq : (t.entries.erase p).get (q ++ [s]) = some e) :
    q = [] ∨ (t.entries.erase p).get q = some .dir := by
  rw [Dict.get_erase] at hq ⊢
  by_cases hn : q = []
  · exact .inl hn
  right
  split at hq
  · cases hq
  · have hdir := (t.closed q s e hq).resolve_left hn
    have hne : q ≠ p := by
      rintro rfl
      rw [file_of_dir (by rw [node_of_ne hn, hdir])] at hf
      cases hf
    rw [if_neg hne, hdir]

/-- A file removed; its directory stays. -/
def remove (t : FileTree σ β) (p : List σ) : FileTree σ β :=
  if h : (t.file? p).isSome then ⟨t.entries.erase p, root_erase t p, closed_erase t h⟩ else t

theorem node_remove (hf : (t.file? p).isSome) (q : List σ) :
    (t.remove p).node q = if q = p then none else t.node q := by
  have hne : p ≠ [] := by
    rintro rfl
    rw [file_nil] at hf
    cases hf
  unfold remove
  rw [dif_pos hf]
  unfold node
  by_cases hq : q = []
  · simp [hq, Ne.symm hne]
  · simp only [hq, if_false, Dict.get_erase]

theorem file_remove (t : FileTree σ β) (p q : List σ) :
    (t.remove p).file? q = if q = p then none else t.file? q := by
  by_cases hf : (t.file? p).isSome
  · unfold file?
    rw [node_remove hf]
    by_cases hq : q = p <;> simp [hq]
  · rw [remove, dif_neg hf]
    by_cases hq : q = p
    · rw [if_pos hq, hq]
      simpa using hf
    · rw [if_neg hq]

theorem dir_remove_iff (t : FileTree σ β) (p q : List σ) :
    (t.remove p).node q = some .dir ↔ t.node q = some .dir := by
  by_cases hf : (t.file? p).isSome
  · rw [node_remove hf]
    by_cases hq : q = p
    · subst hq
      obtain ⟨b, hb⟩ := Option.isSome_iff_exists.mp hf
      simp [file_iff.mp hb]
    · rw [if_neg hq]
  · rw [remove, dif_neg hf]

/-! ## The files of a tree -/

theorem closed_empty (p : List σ) (s : σ) (e : Entry β)
    (h : (Dict.empty : Dict (List σ) (Entry β)).get (p ++ [s]) = some e) :
    p = [] ∨ (Dict.empty : Dict (List σ) (Entry β)).get p = some .dir := by
  cases h

def empty : FileTree σ β := ⟨Dict.empty, Dict.get_empty [], closed_empty⟩

theorem node_empty (hp : p ≠ []) : (empty : FileTree σ β).node p = none := node_of_ne hp

theorem file_empty (p : List σ) : (empty : FileTree σ β).file? p = none := by
  by_cases hp : p = []
  · rw [hp, file_nil]
  · exact file_of_none (node_empty hp)

def Entry.bytes : Entry β → Option β
  | .file b => some b
  | .dir => none

/-- Every file with its bytes. -/
def files (t : FileTree σ β) : Dict (List σ) β := t.entries.filterMap fun _ e => Entry.bytes e

theorem get_files (t : FileTree σ β) (p : List σ) : t.files.get p = t.file? p := by
  unfold files file? node
  rw [Dict.get_filterMap]
  by_cases hp : p = []
  · simp [hp, t.root]
  · rw [if_neg hp]
    cases h : t.entries.get p with
    | none => rfl
    | some e => cases e <;> rfl

/-! ## Several files -/

/-- Files put one after another. -/
def putAll (t : FileTree σ β) : List (List σ × β) → Option (FileTree σ β)
  | [] => some t
  | e :: es => (t.put e.1 e.2).bind fun t => putAll t es

theorem putAll_snoc : ∀ (es : List (List σ × β)) (e : List σ × β) (t : FileTree σ β),
    t.putAll (es ++ [e]) = (t.putAll es).bind fun t => t.put e.1 e.2
  | [], e, t => by simp [putAll]
  | f :: es, e, t => by
    simp only [List.cons_append, putAll, Option.bind_assoc]
    congr 1
    funext d
    exact putAll_snoc es e d

/-- The last file put at a path is the one found there. -/
theorem file_putAll (es : List (List σ × β)) : ∀ {t' : FileTree σ β}, t.putAll es = some t' →
    ∀ q, t'.file? q = ((Ledger.last Prod.fst es q).map Prod.snd).or (t.file? q) := by
  induction es using List.reverseRecOn with
  | nil =>
    intro t' h q
    cases h
    rfl
  | append_singleton es e ih =>
    intro t' h q
    rw [putAll_snoc] at h
    obtain ⟨d, hd, hput⟩ := Option.bind_eq_some_iff.mp h
    rw [file_put hput, ih hd]
    by_cases hq : e.1 = q
    · rw [Ledger.last_snoc_self hq, if_pos hq.symm]
      rfl
    · rw [Ledger.last_snoc_ne hq, if_neg (Ne.symm hq)]

theorem dir_putAll (es : List (List σ × β)) : ∀ {t' : FileTree σ β}, t.putAll es = some t' →
    ∀ q, t'.node q = some .dir ↔ (∃ e ∈ es, q <+: e.1 ∧ q ≠ e.1) ∨ t.node q = some .dir := by
  induction es using List.reverseRecOn with
  | nil =>
    intro t' h q
    cases h
    simp
  | append_singleton es e ih =>
    intro t' h q
    rw [putAll_snoc] at h
    obtain ⟨d, hd, hput⟩ := Option.bind_eq_some_iff.mp h
    rw [dir_put_iff hput, ih hd]
    simp only [List.mem_append, List.mem_singleton, or_and_right, exists_or, exists_eq_left]
    rw [← or_assoc, or_comm (a := q <+: e.1 ∧ q ≠ e.1)]

/-- Files can be put into an empty tree exactly when no path is the root and
none goes on from another. -/
theorem putAll_isSome_iff (es : List (List σ × β)) :
    ((empty : FileTree σ β).putAll es).isSome ↔
      (∀ e ∈ es, e.1 ≠ []) ∧ ∀ e ∈ es, ∀ f ∈ es, e.1 <+: f.1 → e.1 = f.1 := by
  induction es using List.reverseRecOn with
  | nil => simp [putAll]
  | append_singleton es e ih =>
    rw [putAll_snoc]
    cases hd : (empty : FileTree σ β).putAll es with
    | none =>
      rw [hd] at ih
      simp only [Option.isSome_none, Bool.false_eq_true, false_iff] at ih
      simp only [Option.bind_none, Option.isSome_none, Bool.false_eq_true, false_iff]
      exact fun h => ih ⟨fun x hx => h.1 x (List.mem_append_left _ hx), fun x hx y hy =>
        h.2 x (List.mem_append_left _ hx) y (List.mem_append_left _ hy)⟩
    | some d =>
      rw [hd] at ih
      obtain ⟨hne, hfree⟩ := ih.mp rfl
      have hdir : d.node e.1 = some .dir ↔ (∃ f ∈ es, e.1 <+: f.1 ∧ e.1 ≠ f.1) ∨ e.1 = [] := by
        rw [dir_putAll es hd]
        by_cases h : e.1 = []
        · simp [h]
        · simp [h, node_empty h]
      have hfile : ∀ q, d.file? q = none ↔ ∀ f ∈ es, f.1 ≠ q := fun q => by
        rw [file_putAll es hd, file_empty, Option.or_none, Option.map_eq_none_iff,
          Ledger.last_eq_none_iff]
      simp only [Option.bind_some, put_isSome_iff, ne_eq, hdir, hfile]
      constructor
      · rintro ⟨hroot, hnodir, hnofile⟩
        refine ⟨fun x hx => ?_, fun x hx y hy hxy => ?_⟩
        · rcases List.mem_append.mp hx with hx | hx
          · exact hne x hx
          · rwa [List.mem_singleton.mp hx]
        · by_contra hne'
          rcases List.mem_append.mp hx with hx | hx <;> rcases List.mem_append.mp hy with hy | hy
          · exact hne' (hfree x hx y hy hxy)
          · rw [List.mem_singleton.mp hy] at hxy hne'
            exact hnofile x.1 hxy hne' x hx rfl
          · rw [List.mem_singleton.mp hx] at hxy hne'
            exact hnodir (.inl ⟨y, hy, hxy, hne'⟩)
          · rw [List.mem_singleton.mp hx, List.mem_singleton.mp hy] at hne'
            exact hne' rfl
      · rintro ⟨hne', hfree'⟩
        have he : e ∈ es ++ [e] := by simp
        refine ⟨hne' e he, ?_, ?_⟩
        · rintro (⟨f, hf, hpre, hef⟩ | hroot)
          · exact hef (hfree' e he f (List.mem_append_left _ hf) hpre)
          · exact hne' e he hroot
        · rintro q hq hqe f hf rfl
          exact hqe (hfree' f (List.mem_append_left _ hf) e he hq)

end FileTree
