import BidScope.Core.Links

/-!
# Changing a disk

Directories made, files written, trees removed and moved on a `Disk`.

* `node_mkdir`, `node_removeTree`, `node_move`: what each leaves at every path.
* `resolve`: the directory a path leads to. `resolve_mono`: it leads there still
  when nothing that stood has changed; `stat_snoc`, `lstat_snoc`,
  `realpath_snoc`: the names in it.
* `makeDirs`: `Path.mkdir(parents=True, exist_ok=True)`. `makeDirs_spec`: new
  directories and nothing else, and none below the last.
-/

namespace FileTree

variable {σ β : Type} [DecidableEq σ] {t t' : FileTree σ β} {p q src dst : List σ}

theorem get_eq_node (hq : q ≠ []) : t.entries.get q = t.node q := (node_of_ne hq).symm

omit [DecidableEq σ] in
/-- Names in one directory are no prefixes of one another. -/
theorem not_prefix_sibling {s s' : σ} {r : List σ} (h : s ≠ s') : ¬ p ++ [s] <+: p ++ s' :: r := by
  rw [List.prefix_append_right_inj, List.cons_prefix_cons]
  exact fun hp => h hp.1

theorem node_of_prefix_none (h : t.node p = none) (r : List σ) : t.node (p ++ r) = none := by
  by_contra hne
  by_cases hr : r = []
  · subst hr
    exact hne (by rw [List.append_nil, h])
  · rw [dir_of_below r hr hne] at h
    cases h

/-! ## A directory -/

theorem closed_setDir (hd : t.isDir p.dropLast = true) (q : List σ) (s : σ) (e : Entry β)
    (hq : (t.entries.set p .dir).get (q ++ [s]) = some e) : q = [] ∨ (t.entries.set p .dir).get q = some .dir := by
  rw [Dict.get_set] at hq ⊢
  by_cases hn : q = []
  · exact .inl hn
  right
  split
  · rfl
  · split at hq
    · next hp =>
      rw [hp, List.dropLast_concat, isDir_iff, node_of_ne hn] at hd
      exact hd
    · exact (t.closed q s e hq).resolve_left hn

/-- `os.mkdir`: a new directory in one that is there. -/
def mkdir (t : FileTree σ β) (p : List σ) : Option (FileTree σ β) :=
  if h : p ≠ [] ∧ (t.node p).isNone = true ∧ t.isDir p.dropLast = true then
    some ⟨t.entries.set p .dir, root_set t h.1 _, closed_setDir h.2.2⟩
  else none

theorem node_mkdir (h : t.mkdir p = some t') (q : List σ) : t'.node q = if q = p then some .dir else t.node q := by
  unfold mkdir at h
  split at h
  · next hc =>
    cases h
    unfold node
    by_cases hq : q = []
    · simp [hq, Ne.symm hc.1]
    · simp only [hq, if_false, Dict.get_set, eq_comm]
  · cases h

theorem mkdir_isSome_iff : (t.mkdir p).isSome ↔ p ≠ [] ∧ t.node p = none ∧ t.node p.dropLast = some .dir := by
  unfold mkdir
  split
  · next h => simpa [isDir_iff] using h
  · next h => simpa [isDir_iff] using h

/-! ## Trees removed -/

def without (t : FileTree σ β) (p : List σ) : Dict (List σ) (Entry β) :=
  t.entries.filterMap fun k e => if p.isPrefixOf k then none else some e

theorem get_without (t : FileTree σ β) (p q : List σ) :
    (t.without p).get q = if p <+: q then none else t.entries.get q := by
  have h := Dict.lookup_filterMap (fun k e => if p.isPrefixOf k then none else some e) q t.entries.entries
    t.entries.distinct
  refine (show (t.without p).get q = _ from h).trans ?_
  show (t.entries.get q).bind _ = _
  by_cases hp : p <+: q
  · rw [if_pos hp]
    cases t.entries.get q with
    | none => rfl
    | some e => rw [Option.bind_some, if_pos (List.isPrefixOf_iff_prefix.mpr hp)]
  · rw [if_neg hp]
    cases t.entries.get q with
    | none => rfl
    | some e => rw [Option.bind_some, if_neg (fun h => hp (List.isPrefixOf_iff_prefix.mp h))]

theorem root_without (t : FileTree σ β) (p : List σ) : (t.without p).get [] = none := by
  rw [get_without]
  split
  · rfl
  · exact t.root

theorem closed_without (t : FileTree σ β) (p q : List σ) (s : σ) (e : Entry β)
    (hq : (t.without p).get (q ++ [s]) = some e) : q = [] ∨ (t.without p).get q = some .dir := by
  rw [get_without] at hq ⊢
  split at hq
  · cases hq
  · next hp =>
    rcases t.closed q s e hq with hn | hd
    · exact .inl hn
    · exact .inr (by rw [if_neg (fun h => hp (h.trans (List.prefix_append q [s]))), hd])

/-- `shutil.rmtree`: the path and what stands below it. -/
def removeTree (t : FileTree σ β) (p : List σ) : FileTree σ β := ⟨t.without p, root_without t p, closed_without t p⟩

theorem node_removeTree (hp : p ≠ []) (q : List σ) : (t.removeTree p).node q = if p <+: q then none else t.node q := by
  by_cases hq : q = []
  · subst hq
    rw [node_nil, node_nil, if_neg fun h => hp (List.prefix_nil.mp h)]
  · rw [node_of_ne hq, node_of_ne hq]
    exact get_without t p q

/-! ## Trees moved -/

def moved (src dst q : List σ) : List σ := if src <+: q then dst ++ q.drop src.length else q

theorem moved_append (r : List σ) : moved src dst (src ++ r) = dst ++ r := by
  rw [moved, if_pos (List.prefix_append src r), List.drop_left]

theorem moved_of_not (h : ¬ src <+: q) : moved src dst q = q := if_neg h

/-- No two paths of a tree move to one place when nothing stands there. -/
theorem moved_injective (hdst : t.node dst = none) : ∀ p ∈ t.entries.keys, ∀ q ∈ t.entries.keys,
    moved src dst p = moved src dst q → p = q := by
  have hfree : ∀ q ∈ t.entries.keys, ¬ dst <+: q := by
    rintro q hq ⟨r, rfl⟩
    have hsome := (Dict.mem_keys _ _).mp hq
    have hne : dst ++ r ≠ [] := fun hnil => by rw [hnil, t.root] at hsome; cases hsome
    rw [get_eq_node hne, node_of_prefix_none hdst r] at hsome
    cases hsome
  intro p hp q hq h
  by_cases hps : src <+: p <;> by_cases hqs : src <+: q
  · obtain ⟨r, rfl⟩ := hps
    obtain ⟨r', rfl⟩ := hqs
    rw [moved_append, moved_append] at h
    rw [List.append_cancel_left h]
  · obtain ⟨r, rfl⟩ := hps
    rw [moved_append, moved_of_not hqs] at h
    exact absurd ⟨r, h⟩ (hfree q hq)
  · obtain ⟨r, rfl⟩ := hqs
    rw [moved_append, moved_of_not hps] at h
    exact absurd ⟨r, h.symm⟩ (hfree p hp)
  · rwa [moved_of_not hps, moved_of_not hqs] at h

theorem moved_distinct (hdst : t.node dst = none) :
    ((t.entries.entries.map fun e => (moved src dst e.1, e.2)).map Prod.fst).Nodup := by
  rw [List.map_map]
  have h := t.entries.distinct
  rw [List.Nodup, List.pairwise_map] at h ⊢
  refine h.imp_of_mem fun ha hb hne heq => hne ?_
  exact moved_injective hdst _ (List.mem_map_of_mem ha) _ (List.mem_map_of_mem hb) heq

def relocated (t : FileTree σ β) (src dst : List σ) (hdst : t.node dst = none) : Dict (List σ) (Entry β) :=
  ⟨t.entries.entries.map fun e => (moved src dst e.1, e.2), moved_distinct hdst⟩

/-- What stands where after the move. -/
theorem get_relocated (hdst : t.node dst = none) (q : List σ) :
    (t.relocated src dst hdst).get q =
      if dst <+: q then t.entries.get (src ++ q.drop dst.length) else if src <+: q then none else t.entries.get q := by
  refine Option.ext fun e => ?_
  rw [← Dict.mem_iff_get]
  show (q, e) ∈ t.entries.entries.map (fun e => (moved src dst e.1, e.2)) ↔ _
  rw [List.mem_map]
  constructor
  · rintro ⟨x, hx, heq⟩
    obtain ⟨hq, rfl⟩ := Prod.mk.inj heq
    have hget := (Dict.mem_iff_get _ x.1 x.2).mp hx
    by_cases hs : src <+: x.1
    · obtain ⟨r, hr⟩ := hs
      rw [← hr, moved_append] at hq
      rw [← hq, if_pos (List.prefix_append dst r), List.drop_left, hr, hget]
    · rw [moved_of_not hs] at hq
      have hd : ¬ dst <+: q := by
        rintro ⟨r, hr⟩
        have hnone := node_of_prefix_none hdst r
        have hne : dst ++ r ≠ [] := by
          rw [hr, ← hq]
          rintro hnil
          rw [hnil, t.root] at hget
          cases hget
        rw [← get_eq_node hne, hr, ← hq, hget] at hnone
        cases hnone
      rw [if_neg hd, ← hq, if_neg hs, hget]
  · intro h
    split at h
    · next hd =>
      obtain ⟨r, rfl⟩ := hd
      rw [List.drop_left] at h
      exact ⟨(src ++ r, e), (Dict.mem_iff_get _ _ _).mpr h, by rw [moved_append]⟩
    · split at h
      · cases h
      · next hs => exact ⟨(q, e), (Dict.mem_iff_get _ _ _).mpr h, by rw [moved_of_not hs]⟩

theorem root_relocated (hdst : t.node dst = none) (hsrc : src ≠ []) : (t.relocated src dst hdst).get [] = none := by
  rw [get_relocated hdst]
  have hne : dst ≠ [] := by
    rintro rfl
    rw [node_nil] at hdst
    cases hdst
  rw [if_neg fun h => hne (List.prefix_nil.mp h), if_neg fun h => hsrc (List.prefix_nil.mp h), t.root]

theorem closed_relocated (hdst : t.node dst = none) (hsrc : src ≠ []) (hdir : t.isDir dst.dropLast = true)
    (hout : ¬ src <+: dst) (q : List σ) (s : σ) (e : Entry β)
    (hq : (t.relocated src dst hdst).get (q ++ [s]) = some e) :
    q = [] ∨ (t.relocated src dst hdst).get q = some .dir := by
  by_cases hn : q = []
  · exact .inl hn
  right
  rw [get_relocated hdst] at hq ⊢
  split at hq
  · next hd =>
    rcases List.prefix_concat_iff.mp hd with heq | hd
    · -- the directory the tree moved into
      have hparent : t.node q = some .dir := by
        rw [heq, List.dropLast_concat, isDir_iff] at hdir
        exact hdir
      have hnd : ¬ dst <+: q := fun h => by
        have hlen := h.length_le
        rw [heq, List.length_append] at hlen
        exact absurd hlen (by simp)
      have hns : ¬ src <+: q := fun h => hout (heq ▸ h.trans (List.prefix_append q [s]))
      rw [if_neg hnd, if_neg hns, get_eq_node hn, hparent]
    · obtain ⟨r, rfl⟩ := hd
      rw [List.append_assoc, List.drop_left, ← List.append_assoc] at hq
      rw [if_pos (List.prefix_append dst r), List.drop_left]
      exact (t.closed _ s e hq).resolve_left fun hnil => hsrc (List.append_eq_nil_iff.mp hnil).1
  · next hd =>
    split at hq
    · cases hq
    · next hs =>
      rw [if_neg fun h => hd (h.trans (List.prefix_append q [s])),
        if_neg fun h => hs (h.trans (List.prefix_append q [s]))]
      exact (t.closed q s e hq).resolve_left hn

/-- `os.rename` of a directory to a place where nothing stands. -/
def move (t : FileTree σ β) (src dst : List σ) : Option (FileTree σ β) :=
  if h : src ≠ [] ∧ (t.node dst) = none ∧ t.isDir dst.dropLast = true ∧ ¬ src <+: dst ∧ t.isDir src = true then
    some ⟨t.relocated src dst h.2.1, root_relocated h.2.1 h.1, closed_relocated h.2.1 h.1 h.2.2.1 h.2.2.2.1⟩
  else none

theorem node_move (h : t.move src dst = some t') (q : List σ) :
    t'.node q = if dst <+: q then t.node (src ++ q.drop dst.length) else if src <+: q then none else t.node q := by
  unfold move at h
  split at h
  · next hc =>
    cases h
    have hdst : dst ≠ [] := by
      rintro rfl
      have hnone := hc.2.1
      rw [node_nil] at hnone
      cases hnone
    by_cases hq : q = []
    · subst hq
      rw [node_nil, node_nil, if_neg fun h => hdst (List.prefix_nil.mp h), if_neg fun h => hc.1 (List.prefix_nil.mp h)]
    · rw [node_of_ne hq, node_of_ne hq, node_of_ne fun hnil => hc.1 (List.append_eq_nil_iff.mp hnil).1]
      exact get_relocated hc.2.1 q
  · cases h

theorem move_isSome_iff : (t.move src dst).isSome ↔
    src ≠ [] ∧ t.node dst = none ∧ t.node dst.dropLast = some .dir ∧ ¬ src <+: dst ∧ t.node src = some .dir := by
  unfold move
  split
  · next h => simpa [isDir_iff] using h
  · next h => simpa [isDir_iff] using h

end FileTree

namespace Disk

variable {β : Type} {d d' : Disk β} {t t' : FileTree String (Leaf β)} {p q src dst : List String} {leaf : Leaf β}

/-- Every path of the tree is one of names. -/
def Named (t : FileTree String (Leaf β)) : Prop := ∀ p e, t.entries.get p = some e → ∀ s ∈ p, Ordinary s

theorem named_of_node (h : ∀ q, t.node q ≠ none → ∀ s ∈ q, Ordinary s) : Named t := by
  intro q e he s hs
  have hq : q ≠ [] := by
    rintro rfl
    cases hs
  exact h q (by rw [FileTree.node_of_ne hq, he]; nofun) s hs

theorem ordinary_of_node (h : d.node p ≠ none) : ∀ s ∈ p, Ordinary s := by
  intro s hs
  have hp : p ≠ [] := by
    rintro rfl
    cases hs
  rw [node, FileTree.node_of_ne hp] at h
  obtain ⟨e, he⟩ := Option.ne_none_iff_exists'.mp h
  exact d.names p e he s hs

/-- The disk with another tree. -/
def change (t : Option (FileTree String (Leaf β))) (h : ∀ t', t = some t' → Named t') : Option (Disk β) :=
  t.pmap (fun t' ht => ⟨t', ht⟩) h

theorem change_eq_some {t₀ : Option (FileTree String (Leaf β))} {h : ∀ t', t₀ = some t' → Named t'} :
    change t₀ h = some d' ↔ t₀ = some d'.tree := by
  cases t₀ with
  | none => exact ⟨nofun, nofun⟩
  | some t => exact ⟨fun he => by cases he; rfl, fun he => by cases he; rfl⟩

theorem change_isSome {t₀ : Option (FileTree String (Leaf β))} {h : ∀ t', t₀ = some t' → Named t'} :
    (change t₀ h).isSome = t₀.isSome := by
  cases t₀ with
  | none => rfl
  | some t => rfl

theorem named_mkdir (hp : ∀ s ∈ p, Ordinary s) (t' : FileTree String (Leaf β)) (h : d.tree.mkdir p = some t') :
    Named t' := named_of_node fun q hq => by
  rw [FileTree.node_mkdir h] at hq
  split at hq
  · next heq => exact heq ▸ hp
  · exact ordinary_of_node hq

theorem named_write (hp : ∀ s ∈ p, Ordinary s) (t' : FileTree String (Leaf β)) (h : d.tree.write p leaf = some t') :
    Named t' := named_of_node fun q hq => by
  rw [FileTree.node_write h] at hq
  split at hq
  · next heq => exact heq ▸ hp
  · exact ordinary_of_node hq

theorem named_without (d : Disk β) (p q : List String) (e : Entry (Leaf β))
    (h : (d.tree.removeTree p).entries.get q = some e) : ∀ s ∈ q, Ordinary s := by
  rw [show (d.tree.removeTree p).entries.get q = _ from FileTree.get_without d.tree p q] at h
  split at h
  · cases h
  · exact d.names q e h

theorem named_move (hdst : ∀ s ∈ dst, Ordinary s) (t' : FileTree String (Leaf β)) (h : d.tree.move src dst = some t') :
    Named t' := named_of_node fun q hq => by
  rw [FileTree.node_move h] at hq
  split at hq
  · next hd =>
    obtain ⟨r, rfl⟩ := hd
    rw [List.drop_left] at hq
    have hr := ordinary_of_node (d := d) hq
    intro s hs
    rcases List.mem_append.mp hs with hs | hs
    · exact hdst s hs
    · exact hr s (List.mem_append_right _ hs)
  · split at hq
    · exact absurd rfl hq
    · exact ordinary_of_node hq

/-! ## Operations -/

def mkdir (d : Disk β) (p : List String) : Option (Disk β) :=
  if hp : ∀ s ∈ p, Ordinary s then change (d.tree.mkdir p) (named_mkdir hp) else none

/-- `write_bytes`: the file, new or overwritten. -/
def write (d : Disk β) (p : List String) (leaf : Leaf β) : Option (Disk β) :=
  if hp : ∀ s ∈ p, Ordinary s then change (d.tree.write p leaf) (named_write hp) else none

def removeTree (d : Disk β) (p : List String) : Disk β := ⟨d.tree.removeTree p, named_without d p⟩

def move (d : Disk β) (src dst : List String) : Option (Disk β) :=
  if hp : ∀ s ∈ dst, Ordinary s then change (d.tree.move src dst) (named_move hp) else none

theorem node_mkdir (h : d.mkdir p = some d') (q : List String) :
    d'.node q = if q = p then some .dir else d.node q := by
  unfold mkdir at h
  split at h
  · exact FileTree.node_mkdir (change_eq_some.mp h) q
  · cases h

theorem mkdir_isSome_iff (hp : ∀ s ∈ p, Ordinary s) :
    (d.mkdir p).isSome ↔ p ≠ [] ∧ d.node p = none ∧ d.node p.dropLast = some .dir := by
  rw [mkdir, dif_pos hp, change_isSome]
  exact FileTree.mkdir_isSome_iff

theorem mkdir_free (h : d.mkdir p = some d') : d.node p = none := by
  have hnames : ∀ s ∈ p, Ordinary s := by
    unfold mkdir at h
    split at h
    · assumption
    · cases h
  exact ((mkdir_isSome_iff hnames).mp (by rw [h]; rfl)).2.1

theorem node_write (h : d.write p leaf = some d') (q : List String) :
    d'.node q = if q = p then some (.file leaf) else d.node q := by
  unfold write at h
  split at h
  · exact FileTree.node_write (change_eq_some.mp h) q
  · cases h

theorem node_removeTree (hp : p ≠ []) (q : List String) :
    (d.removeTree p).node q = if p <+: q then none else d.node q := FileTree.node_removeTree hp q

theorem node_move (h : d.move src dst = some d') (q : List String) :
    d'.node q = if dst <+: q then d.node (src ++ q.drop dst.length) else if src <+: q then none else d.node q := by
  unfold move at h
  split at h
  · exact FileTree.node_move (change_eq_some.mp h) q
  · cases h

theorem ordinary_snoc {s : String} (hp : d.node p = some .dir) (hs : Ordinary s) : ∀ x ∈ p ++ [s], Ordinary x := by
  intro x hx
  rcases List.mem_append.mp hx with hx | hx
  · exact ordinary_of_node (by rw [hp]; nofun) x hx
  · rwa [List.mem_singleton.mp hx]

/-- In a directory a name that is none is free to write. -/
theorem write_of_dir {s : String} (hp : d.node p = some .dir) (hfree : d.node (p ++ [s]) ≠ some .dir) (hs : Ordinary s)
    (leaf : Leaf β) : ∃ d', d.write (p ++ [s]) leaf = some d' := by
  have hnames := ordinary_snoc hp hs
  have hwrite : (d.tree.write (p ++ [s]) leaf).isSome = true := by
    rw [FileTree.write, dif_pos ⟨by simp, fun h => hfree (FileTree.isDir_iff.mp h), by
      rw [List.dropLast_concat]
      exact FileTree.isDir_iff.mpr hp⟩]
    rfl
  rw [write, dif_pos hnames]
  exact Option.isSome_iff_exists.mp (change_isSome.trans hwrite)

theorem mkdir_of_dir {s : String} (hp : d.node p = some .dir) (hfree : d.node (p ++ [s]) = none) (hs : Ordinary s) :
    ∃ d', d.mkdir (p ++ [s]) = some d' := by
  have hnames := ordinary_snoc hp hs
  exact Option.isSome_iff_exists.mp ((mkdir_isSome_iff hnames).mpr ⟨by simp, hfree, by rwa [List.dropLast_concat]⟩)

/-- A directory is renamed to a free name beside it. -/
theorem move_of_dir {s s' : String} (hp : d.node p = some .dir) (hdir : d.node (p ++ [s]) = some .dir)
    (hfree : d.node (p ++ [s']) = none) (hs : Ordinary s') (hne : s ≠ s') :
    ∃ d', d.move (p ++ [s]) (p ++ [s']) = some d' := by
  have hnames := ordinary_snoc hp hs
  rw [move, dif_pos hnames]
  exact Option.isSome_iff_exists.mp (change_isSome.trans (FileTree.move_isSome_iff.mpr
    ⟨by simp, hfree, by rwa [List.dropLast_concat], FileTree.not_prefix_sibling hne, hdir⟩))

theorem move_free (h : d.move src dst = some d') : d.node dst = none := by
  unfold move at h
  split at h
  · exact (FileTree.move_isSome_iff.mp (by rw [change_eq_some.mp h]; rfl)).2.1
  · cases h

/-! ## Where a path leads -/

theorem node_ne_of_dir (h : d.node p = some .dir) : d.node p ≠ none := by
  rw [h]
  nofun

theorem isDir_of_node (h : d.node p = some .dir) : d.tree.isDir p = true := FileTree.isDir_iff.mpr h

/-- The directory that the path leads to. -/
def resolve (d : Disk β) (p : List String) : Option (List String) :=
  (d.follow true maxLinks [] p).filter d.tree.isDir

theorem resolve_eq_some : d.resolve p = some q ↔ d.follow true maxLinks [] p = some q ∧ d.node q = some .dir := by
  rw [resolve, Option.filter_eq_some_iff, FileTree.isDir_iff]
  rfl

section Jumps

variable {strict : Bool} {jump jump' : List String → List String → Option (List String)}

/-- What a step of the way asks of the disk is asked of what stands there. -/
theorem walk_mono (hnode : ∀ p, d.node p ≠ none → d'.node p = d.node p)
    (hjump : ∀ done rest q, jump done rest = some q → d.node q = some .dir → jump' done rest = some q) :
    ∀ (rest done : List String), d.walk true jump done rest = some q → d.node q = some .dir →
      d'.walk true jump' done rest = some q
  | [], done, h, _ => h
  | s :: rest, done, h, hq => by
    unfold walk at h ⊢
    split at h
    · cases h
    · next hdir =>
      have hd : d.node done = some .dir := by
        rw [Bool.true_and, Bool.not_eq_true, Bool.not_eq_false'] at hdir
        exact FileTree.isDir_iff.mp hdir
      have hd' : d'.tree.isDir done = true := isDir_of_node ((hnode done (node_ne_of_dir hd)).trans hd)
      rw [if_neg (by rw [hd']; decide)]
      split at h
      · next hskip => rw [if_pos hskip, walk_mono hnode hjump rest done h hq]
      · next hskip =>
        rw [if_neg hskip]
        split at h
        · next hup => rw [if_pos hup, walk_mono hnode hjump rest _ h hq]
        · next hup =>
          rw [if_neg hup]
          split at h
          · next absolute steps hlink =>
            rw [hnode _ (by rw [hlink]; nofun), hlink]
            exact hjump _ _ _ h hq
          · next hother =>
            by_cases hstands : d.node (done ++ [s]) = none
            · -- nothing stands there, so the way ends in nothing
              cases rest with
              | nil =>
                obtain rfl := Option.some.inj h
                rw [hstands] at hq
                cases hq
              | cons s' rest =>
                have hno : d.tree.isDir (done ++ [s]) = false := by
                  rw [← Bool.not_eq_true, FileTree.isDir_iff]
                  exact fun h => absurd (hstands.symm.trans h) nofun
                rw [walk, if_pos (by rw [hno]; rfl)] at h
                cases h
            · rw [hnode _ hstands]
              split
              · next absolute steps hlink => exact absurd hlink (hother absolute steps)
              · exact walk_mono hnode hjump rest _ h hq

/-- The way to a directory and one name on. -/
theorem walk_snoc {s : String} (hs : Ordinary s) (hdir : d.node q = some .dir)
    (hlink : isLink (d.node (q ++ [s])) = false)
    (hjump : ∀ done rest, jump done rest = some q → jump done (rest ++ [s]) = some (q ++ [s])) :
    ∀ (rest done : List String), d.walk strict jump done rest = some q →
      d.walk strict jump done (rest ++ [s]) = some (q ++ [s])
  | [], done, h => by
    obtain rfl := Option.some.inj h
    rw [List.nil_append, walk, if_neg (by rw [isDir_of_node hdir]; simp),
      if_neg fun hor => hor.elim hs.ne hs.dot, if_neg hs.up]
    split
    · next absolute steps hl =>
      rw [hl] at hlink
      cases hlink
    · rfl
  | x :: rest, done, h => by
    rw [List.cons_append]
    unfold walk at h ⊢
    split at h
    · cases h
    · next hd =>
      rw [if_neg hd]
      split at h
      · next hskip => rw [if_pos hskip, walk_snoc hs hdir hlink hjump rest done h]
      · next hskip =>
        rw [if_neg hskip]
        split at h
        · next hup => rw [if_pos hup, walk_snoc hs hdir hlink hjump rest _ h]
        · next hup =>
          rw [if_neg hup]
          split at h
          · have hj := hjump _ _ h
            rwa [List.append_assoc] at hj
          · exact walk_snoc hs hdir hlink hjump rest _ h

/-- A way that is looked up at every step leads where it leads without. -/
theorem walk_lax (hjump : ∀ done rest, jump done rest = some q → jump' done rest = some q) :
    ∀ (rest done : List String), d.walk true jump done rest = some q → d.walk false jump' done rest = some q
  | [], done, h => h
  | x :: rest, done, h => by
    unfold walk at h ⊢
    split at h
    · cases h
    · rw [if_neg (by simp)]
      split at h
      · next hskip => rw [if_pos hskip, walk_lax hjump rest done h]
      · next hskip =>
        rw [if_neg hskip]
        split at h
        · next hup => rw [if_pos hup, walk_lax hjump rest _ h]
        · next hup =>
          rw [if_neg hup]
          split at h
          · exact hjump _ _ h
          · exact walk_lax hjump rest _ h

end Jumps

theorem follow_mono (hnode : ∀ p, d.node p ≠ none → d'.node p = d.node p) : ∀ (fuel : Nat) (done rest q : List String),
    d.follow true fuel done rest = some q → d.node q = some .dir → d'.follow true fuel done rest = some q
  | 0, done, rest, _, h, hq => walk_mono hnode (fun _ _ _ hnone _ => by cases hnone) rest done h hq
  | fuel + 1, done, rest, _, h, hq => walk_mono hnode (follow_mono hnode fuel) rest done h hq

theorem follow_snoc {strict : Bool} {s : String} (hs : Ordinary s) (hdir : d.node q = some .dir)
    (hlink : isLink (d.node (q ++ [s])) = false) : ∀ (fuel : Nat) (done rest : List String),
    d.follow strict fuel done rest = some q → d.follow strict fuel done (rest ++ [s]) = some (q ++ [s])
  | 0, done, rest, h => walk_snoc hs hdir hlink (fun _ _ hnone => by cases hnone) rest done h
  | fuel + 1, done, rest, h =>
    walk_snoc hs hdir hlink (fun done rest => follow_snoc hs hdir hlink fuel done rest) rest done h

theorem follow_lax : ∀ (fuel : Nat) (done rest : List String),
    d.follow true fuel done rest = some q → d.follow false fuel done rest = some q
  | 0, done, rest, h => walk_lax (fun _ _ hnone => by cases hnone) rest done h
  | fuel + 1, done, rest, h => walk_lax (fun done rest => follow_lax fuel done rest) rest done h

/-- Where nothing that stood has changed a directory is found as before. -/
theorem resolve_mono (hnode : ∀ p, d.node p ≠ none → d'.node p = d.node p) (h : d.resolve p = some q) :
    d'.resolve p = some q := by
  obtain ⟨hfollow, hdir⟩ := resolve_eq_some.mp h
  exact resolve_eq_some.mpr ⟨follow_mono hnode _ _ _ _ hfollow hdir, (hnode q (node_ne_of_dir hdir)).trans hdir⟩

theorem resolve_realpath (h : d.resolve p = some q) : d.realpath p = some q :=
  follow_lax _ _ _ (resolve_eq_some.mp h).1

section Names

variable {s : String}

theorem lstat_snoc (h : d.resolve p = some q) (hs : Ordinary s) : d.lstat (p ++ [s]) = d.node (q ++ [s]) := by
  obtain ⟨hq, hdir⟩ := resolve_eq_some.mp h
  simp only [lstat, List.getLast?_append, List.getLast?_singleton, Option.some_or, List.dropLast_concat, hq,
    Option.bind_some, isDir_of_node hdir, if_true, if_neg hs.up]

theorem stat_snoc (h : d.resolve p = some q) (hs : Ordinary s) (hlink : isLink (d.node (q ++ [s])) = false) :
    d.stat (p ++ [s]) = d.node (q ++ [s]) := by
  obtain ⟨hq, hdir⟩ := resolve_eq_some.mp h
  rw [stat, follow_snoc hs hdir hlink _ _ _ hq, Option.bind_some]

theorem realpath_snoc (h : d.resolve p = some q) (hs : Ordinary s) (hlink : isLink (d.node (q ++ [s])) = false) :
    d.realpath (p ++ [s]) = some (q ++ [s]) :=
  follow_snoc hs (resolve_eq_some.mp h).2 hlink _ _ _ (resolve_realpath h)

theorem resolve_snoc (h : d.resolve p = some q) (hs : Ordinary s) (hdir : d.node (q ++ [s]) = some .dir) :
    d.resolve (p ++ [s]) = some (q ++ [s]) := by
  obtain ⟨hq, hqdir⟩ := resolve_eq_some.mp h
  exact resolve_eq_some.mpr ⟨follow_snoc hs hqdir (by rw [hdir]; rfl) _ _ _ hq, hdir⟩

/-- A way that goes one name on goes through a directory. -/
theorem walk_parent {jump : List String → List String → Option (List String)}
    (hjump : ∀ done rest, (jump done (rest ++ [s])).isSome = true →
      ∃ q, jump done rest = some q ∧ d.node q = some .dir) :
    ∀ rest done : List String, (d.walk true jump done (rest ++ [s])).isSome = true →
      ∃ q, d.walk true jump done rest = some q ∧ d.node q = some .dir
  | [], done, h => by
    rw [List.nil_append, walk] at h
    split at h
    · cases h
    · next hdir =>
      rw [Bool.true_and, Bool.not_eq_true, Bool.not_eq_false'] at hdir
      exact ⟨done, rfl, FileTree.isDir_iff.mp hdir⟩
  | x :: rest, done, h => by
    rw [List.cons_append] at h
    unfold walk at h ⊢
    split at h
    · cases h
    · next hd =>
      rw [if_neg hd]
      split at h
      · next hskip =>
        rw [if_pos hskip]
        exact walk_parent hjump rest done h
      · next hskip =>
        rw [if_neg hskip]
        split at h
        · next hup =>
          rw [if_pos hup]
          exact walk_parent hjump rest _ h
        · next hup =>
          rw [if_neg hup]
          split at h
          · rw [← List.append_assoc] at h
            exact hjump _ _ h
          · exact walk_parent hjump rest _ h

theorem follow_parent : ∀ (fuel : Nat) (done rest : List String),
    (d.follow true fuel done (rest ++ [s])).isSome = true →
      ∃ q, d.follow true fuel done rest = some q ∧ d.node q = some .dir
  | 0, done, rest, h => walk_parent (fun _ _ hnone => by cases hnone) rest done h
  | fuel + 1, done, rest, h => walk_parent (fun done rest => follow_parent fuel done rest) rest done h

theorem resolve_of_stat (h : (d.stat (p ++ [s])).isSome = true) : ∃ q, d.resolve p = some q := by
  obtain ⟨e, he⟩ := Option.isSome_iff_exists.mp h
  obtain ⟨x, hx, -⟩ := Option.bind_eq_some_iff.mp he
  obtain ⟨q, hq⟩ := follow_parent maxLinks [] p (by rw [hx]; rfl)
  exact ⟨q, resolve_eq_some.mpr hq⟩

end Names

/-! ## Directories and those above them -/

/-- `Path.mkdir(parents=True, exist_ok=True)`, on the steps in reverse. -/
def makeDirsUp (d : Disk β) : List String → Option (Disk β)
  | [] => some d
  | s :: up =>
    if (d.resolve (s :: up).reverse).isSome then some d
    else (d.makeDirsUp up).bind fun d => (d.resolve up.reverse).bind fun q => d.mkdir (q ++ [s])

def makeDirs (d : Disk β) (p : List String) : Option (Disk β) := d.makeDirsUp p.reverse

/-- `d'` is `d` with directories where nothing stood, `root` the last of them. -/
structure Grown (d d' : Disk β) (p root : List String) : Prop where
  leads : d'.resolve p = some root
  kept : ∀ q, d.node q ≠ none → d'.node q = d.node q
  only : ∀ q, d'.node q ≠ d.node q → d'.node q = some .dir
  beneath : ∀ r, r ≠ [] → d'.node (root ++ r) = d.node (root ++ r)

theorem Grown.refl {root : List String} (h : d.resolve p = some root) : Grown d d p root :=
  ⟨h, fun _ _ => rfl, fun _ h => absurd rfl h, fun _ _ => rfl⟩

theorem makeDirsUp_spec : ∀ {up : List String} {d' : Disk β}, (∀ s ∈ up, Ordinary s) →
    d.makeDirsUp up = some d' → ∃ root, Grown d d' up.reverse root
  | [], d', _, h => by
    obtain rfl := Option.some.inj h
    exact ⟨[], .refl (resolve_eq_some.mpr ⟨rfl, FileTree.node_nil⟩)⟩
  | s :: up, d', hup, h => by
    unfold makeDirsUp at h
    split at h
    · next hthere =>
      obtain rfl := Option.some.inj h
      obtain ⟨root, hroot⟩ := Option.isSome_iff_exists.mp hthere
      exact ⟨root, .refl hroot⟩
    · obtain ⟨d₁, hd₁, h⟩ := Option.bind_eq_some_iff.mp h
      obtain ⟨q, hq, h⟩ := Option.bind_eq_some_iff.mp h
      obtain ⟨root, hgrown⟩ := makeDirsUp_spec (fun x hx => hup x (List.mem_cons_of_mem _ hx)) hd₁
      obtain rfl := Option.some.inj (hq.symm.trans hgrown.leads)
      have hnode := node_mkdir h
      have hfree : d₁.node (q ++ [s]) = none := mkdir_free h
      have hs : Ordinary s := hup s (List.mem_cons_self ..)
      have hkept : ∀ x, d₁.node x ≠ none → d'.node x = d₁.node x := fun x hx => by
        rw [hnode, if_neg]
        rintro rfl
        exact hx hfree
      have hleads := resolve_mono hkept hq
      have hdir : d'.node (q ++ [s]) = some .dir := by rw [hnode, if_pos rfl]
      refine ⟨q ++ [s], ?_, fun x hx => ?_, fun x hx => ?_, fun r hr => ?_⟩
      · rw [List.reverse_cons]
        refine resolve_eq_some.mpr ⟨?_, hdir⟩
        exact follow_snoc hs (resolve_eq_some.mp hleads).2 (by rw [hdir]; rfl) _ _ _ (resolve_eq_some.mp hleads).1
      · have hx₁ := hgrown.kept x hx
        rw [hkept x (by rw [hx₁]; exact hx), hx₁]
      · by_cases heq : x = q ++ [s]
        · rw [heq, hdir]
        · rw [hnode, if_neg heq] at hx ⊢
          exact hgrown.only x hx
      · have hne : (q ++ [s]) ++ r ≠ q ++ [s] := fun heq => hr (List.append_right_eq_self.mp heq)
        rw [hnode, if_neg hne, List.append_assoc]
        exact hgrown.beneath _ (by simp)

theorem makeDirs_spec (hp : ∀ s ∈ p, Ordinary s) (h : d.makeDirs p = some d') : ∃ root, Grown d d' p root := by
  obtain ⟨root, hgrown⟩ := makeDirsUp_spec (fun s hs => hp s (List.mem_reverse.mp hs)) h
  exact ⟨root, by rwa [List.reverse_reverse] at hgrown⟩

/-- A directory that is there is left as it is. -/
theorem makeDirs_of_resolve {root : List String} (h : d.resolve p = some root) : d.makeDirs p = some d := by
  unfold makeDirs
  cases hp : p.reverse with
  | nil => rfl
  | cons s up =>
    rw [makeDirsUp, ← hp, List.reverse_reverse, if_pos (by rw [h]; rfl)]

end Disk
