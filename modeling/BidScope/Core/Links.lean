import BidScope.Core.FileTree

/-!
# File trees with links

A file tree whose leaves are files, symbolic links and other nodes, and where a
path leads in it. `walk` goes down by names, up at `..` and nowhere at `.`; a
link sends it on along its target, at most 40 times in one path, as the kernel
has it. With `strict` every name is looked up in a directory that is there.

* `stat`, `lstat`: the node a path leads to, the second without following a
  link in the last place. `realpath`: where a path leads, whether or not
  anything stands there; a loop leads nowhere, nor does a path of more than 40
  links, which `os.path.realpath` would resolve by hand.
* `Plain`: a path without links. `realpath_plain`: what `realpath` returns is
  plain. `realpath_of_plain`, `stat_of_plain`, `lstat_of_plain`: a plain path
  leads to itself.

Permissions are left out but for files: reading one may fail.
-/

inductive Leaf (β : Type) where
  | regular (content : Option β)
  | link (absolute : Bool) (steps : List String)
  | special
  deriving DecidableEq

/-- A name in a directory: not one of the steps that name none. -/
structure Ordinary (s : String) : Prop where
  ne : s ≠ ""
  dot : s ≠ "."
  up : s ≠ ".."

instance (s : String) : Decidable (Ordinary s) :=
  decidable_of_iff (s ≠ "" ∧ s ≠ "." ∧ s ≠ "..") ⟨fun h => ⟨h.1, h.2.1, h.2.2⟩, fun h => ⟨h.ne, h.dot, h.up⟩⟩

structure Disk (β : Type) where
  tree : FileTree String (Leaf β)
  names : ∀ p e, tree.entries.get p = some e → ∀ s ∈ p, Ordinary s

namespace Disk

theorem closed_of_dirs {β : Type} {es : Dict (List String) (Entry (Leaf β))}
    (h : ∀ e ∈ es.entries, e.1.dropLast = [] ∨ es.get e.1.dropLast = some .dir) (p : List String) (s : String)
    (e : Entry (Leaf β)) (hget : es.get (p ++ [s]) = some e) : p = [] ∨ es.get p = some .dir := by
  have hdir := h (p ++ [s], e) ((Dict.mem_iff_get es _ e).mpr hget)
  rwa [List.dropLast_concat] at hdir

theorem names_of_entries {β : Type} {es : Dict (List String) (Entry (Leaf β))}
    (h : ∀ e ∈ es.entries, ∀ s ∈ e.1, Ordinary s) (p : List String) (e : Entry (Leaf β))
    (hget : es.get p = some e) : ∀ s ∈ p, Ordinary s := h (p, e) ((Dict.mem_iff_get es p e).mpr hget)

/-- The disk of a finite list of entries. -/
def ofDict {β : Type} (es : Dict (List String) (Entry (Leaf β))) (hroot : es.get [] = none)
    (hdirs : ∀ e ∈ es.entries, e.1.dropLast = [] ∨ es.get e.1.dropLast = some .dir)
    (hnames : ∀ e ∈ es.entries, ∀ s ∈ e.1, Ordinary s) : Disk β where
  tree := ⟨es, hroot, closed_of_dirs hdirs⟩
  names := names_of_entries hnames

variable {β : Type} (d : Disk β)

def node (p : List String) : Option (Entry (Leaf β)) := d.tree.node p

def isLink : Option (Entry (Leaf β)) → Bool
  | some (.file (.link _ _)) => true
  | _ => false

/-- The way from `done` along `rest`; `jump` goes on behind a link. -/
def walk (strict : Bool) (jump : List String → List String → Option (List String)) :
    List String → List String → Option (List String)
  | done, [] => some done
  | done, s :: rest =>
    if strict && !d.tree.isDir done then none
    else if s = "" ∨ s = "." then walk strict jump done rest
    else if s = ".." then walk strict jump done.dropLast rest
    else
      match d.node (done ++ [s]) with
      | some (.file (.link absolute steps)) => jump (if absolute then [] else done) (steps ++ rest)
      | _ => walk strict jump (done ++ [s]) rest

/-- At most `fuel` links. -/
def follow (strict : Bool) : Nat → List String → List String → Option (List String)
  | 0 => d.walk strict fun _ _ => none
  | fuel + 1 => d.walk strict (follow strict fuel)

def maxLinks : Nat := 40

def realpath (p : List String) : Option (List String) := d.follow false maxLinks [] p

def stat (p : List String) : Option (Entry (Leaf β)) := (d.follow true maxLinks [] p).bind d.node

def lstat (p : List String) : Option (Entry (Leaf β)) :=
  match p.getLast? with
  | none => d.node []
  | some s => (d.follow true maxLinks [] p.dropLast).bind fun dir =>
      if d.tree.isDir dir then (if s = ".." then d.node dir.dropLast else d.node (dir ++ [s])) else none

def isFile (p : List String) : Bool :=
  match d.stat p with
  | some (.file (.regular _)) => true
  | _ => false

/-- All that stands below `base`; what a link leads to does not. -/
def below (base : List String) : List (List String) :=
  d.tree.entries.keys.filter fun p => base.isPrefixOf p && p ≠ base

/-! ## Plain paths -/

/-- No step of the path is a link, or goes up. -/
structure Plain (p : List String) : Prop where
  names : ∀ s ∈ p, Ordinary s
  links : ∀ q, q <+: p → isLink (d.node q) = false

variable {d} {p q base : List String}

theorem Plain.of_isPrefix (h : d.Plain p) (hq : q <+: p) : d.Plain q :=
  ⟨fun s hs => h.names s (hq.subset hs), fun r hr => h.links r (hr.trans hq)⟩

theorem Plain.snoc {s : String} (h : d.Plain p) (hs : Ordinary s) (hl : isLink (d.node (p ++ [s])) = false) :
    d.Plain (p ++ [s]) := by
  refine ⟨fun x hx => ?_, fun q hq => ?_⟩
  · rcases List.mem_append.mp hx with hx | hx
    · exact h.names x hx
    · rwa [List.mem_singleton.mp hx]
  · rcases List.prefix_concat_iff.mp hq with rfl | hq
    · exact hl
    · exact h.links q hq

theorem plain_nil : d.Plain [] := by
  refine ⟨nofun, fun q hq => ?_⟩
  rw [List.prefix_nil.mp hq, node, FileTree.node_nil]
  rfl

/-- Whatever stands in the tree stands below directories, so only the last
step can be a link. -/
theorem plain_of_node (h : d.node p ≠ none) (hl : isLink (d.node p) = false) : d.Plain p := by
  refine ⟨?_, fun q hq => ?_⟩
  · by_cases hp : p = []
    · subst hp
      exact nofun
    · rw [node, FileTree.node_of_ne hp] at h
      obtain ⟨e, he⟩ := Option.ne_none_iff_exists'.mp h
      exact d.names p e he
  · by_cases hqp : q = p
    · rwa [hqp]
    · rw [node, FileTree.dir_of_isPrefix hq hqp h]
      rfl

theorem plain_walk {strict : Bool} {jump : List String → List String → Option (List String)}
    (hjump : ∀ done rest p, d.Plain done → jump done rest = some p → d.Plain p) :
    ∀ (rest done : List String), d.Plain done → d.walk strict jump done rest = some p → d.Plain p
  | [], done, hd, h => by
    obtain rfl := Option.some.inj h
    exact hd
  | s :: rest, done, hd, h => by
    unfold walk at h
    split at h
    · cases h
    · split at h
      · exact plain_walk hjump rest done hd h
      · next hskip =>
        split at h
        · exact plain_walk hjump rest _ (hd.of_isPrefix (List.dropLast_prefix done)) h
        · next hup =>
          split at h
          · next absolute steps _ =>
            refine hjump _ _ p ?_ h
            cases absolute
            · exact hd
            · exact plain_nil
          · next hnode =>
            have hs : Ordinary s := ⟨fun h => hskip (.inl h), fun h => hskip (.inr h), hup⟩
            refine plain_walk hjump rest _ (hd.snoc hs ?_) h
            unfold isLink
            split
            · next absolute steps hlink => exact absurd hlink (hnode absolute steps)
            · rfl

theorem plain_follow {strict : Bool} : ∀ (fuel : Nat) (done rest p : List String), d.Plain done →
    d.follow strict fuel done rest = some p → d.Plain p
  | 0, done, rest, _, hd, h => plain_walk (fun _ _ _ _ hnone => by cases hnone) rest done hd h
  | fuel + 1, done, rest, _, hd, h => plain_walk (plain_follow fuel) rest done hd h

theorem realpath_plain (h : d.realpath q = some p) : d.Plain p :=
  plain_follow maxLinks [] q p plain_nil h

/-- A plain way leads where it says, or there is no directory to go through. -/
theorem walk_plain {strict : Bool} {jump : List String → List String → Option (List String)} :
    ∀ (rest done : List String), d.Plain (done ++ rest) →
      d.walk strict jump done rest = some (done ++ rest) ∨
        strict = true ∧ d.walk strict jump done rest = none ∧ d.node (done ++ rest) = none
  | [], done, _ => Or.inl (by rw [List.append_nil]; rfl)
  | s :: rest, done, h => by
    have happend : done ++ s :: rest = (done ++ [s]) ++ rest := by simp
    have hs : Ordinary s := h.names s (by simp)
    by_cases hdir : (strict && !d.tree.isDir done) = true
    · obtain ⟨hstrict, hno⟩ := Bool.and_eq_true_iff.mp hdir
      refine Or.inr ⟨hstrict, by rw [walk, if_pos hdir], ?_⟩
      by_contra hsome
      have hbelow := FileTree.dir_of_below (s :: rest) (List.cons_ne_nil _ _) hsome
      rw [FileTree.isDir_iff.mpr hbelow] at hno
      cases hno
    · have hlink := h.links (done ++ [s]) ⟨rest, happend.symm⟩
      have hstep : d.walk strict jump done (s :: rest) = d.walk strict jump (done ++ [s]) rest := by
        rw [walk, if_neg hdir, if_neg (fun hor => hor.elim hs.ne hs.dot), if_neg hs.up]
        split
        · next habs => rw [habs] at hlink; cases hlink
        · rfl
      rw [hstep, happend]
      exact walk_plain rest (done ++ [s]) (happend ▸ h)

theorem follow_plain (strict : Bool) (fuel : Nat) (h : d.Plain p) :
    d.follow strict fuel [] p = some p ∨ strict = true ∧ d.follow strict fuel [] p = none ∧ d.node p = none := by
  cases fuel with
  | zero => exact walk_plain p [] h
  | succ fuel => exact walk_plain p [] h

theorem realpath_of_plain (h : d.Plain p) : d.realpath p = some p := by
  rcases follow_plain false maxLinks h with heq | ⟨hfalse, -⟩
  · exact heq
  · cases hfalse

theorem stat_of_plain (h : d.Plain p) : d.stat p = d.node p := by
  rcases follow_plain true maxLinks h with heq | ⟨-, hnone, hnode⟩
  · rw [stat, heq]
    rfl
  · rw [stat, hnone, hnode]
    rfl

theorem lstat_of_plain {s : String} (h : d.Plain p) (hs : Ordinary s) : d.lstat (p ++ [s]) = d.node (p ++ [s]) := by
  have hbelow : d.node p ≠ some .dir → d.node (p ++ [s]) = none := fun hdir => by
    by_contra hsome
    exact hdir (FileTree.dir_of_snoc hsome)
  simp only [lstat, List.getLast?_append, List.getLast?_singleton, Option.some_or, List.dropLast_concat]
  rcases follow_plain true maxLinks h with heq | ⟨-, hnone, hnode⟩
  · rw [heq, Option.bind_some, if_neg hs.up]
    split
    · rfl
    · next hdir => exact (hbelow fun h => hdir (FileTree.isDir_iff.mpr h)).symm
  · rw [hnone, hbelow (by rw [hnode]; nofun)]
    rfl

theorem mem_below : p ∈ d.below base ↔ base <+: p ∧ p ≠ base ∧ d.node p ≠ none := by
  simp only [below, List.mem_filter, Bool.and_eq_true, List.isPrefixOf_iff_prefix, decide_eq_true_eq]
  constructor
  · rintro ⟨hkey, hbase, hne⟩
    refine ⟨hbase, hne, ?_⟩
    have hp : p ≠ [] := by
      rintro rfl
      exact hne (List.prefix_nil.mp hbase).symm
    rw [node, FileTree.node_of_ne hp]
    exact Option.isSome_iff_ne_none.mp ((Dict.mem_keys _ _).mp hkey)
  · rintro ⟨hbase, hne, hnode⟩
    have hp : p ≠ [] := by
      rintro rfl
      exact hne (List.prefix_nil.mp hbase).symm
    rw [node, FileTree.node_of_ne hp] at hnode
    exact ⟨(Dict.mem_keys _ _).mpr (Option.isSome_iff_ne_none.mpr hnode), hbase, hne⟩

end Disk
