import BidScope.L1Domain.Types

/-!
# Keys and paths

An object key is a string; on a file system it is read as a path: the segments
between slashes, of which empty ones and `.` are dropped (`pathlib.Path.parts`).

* `asPosix_parts`, `parts_asPosix`: keys without such segments and paths of
  plain names are the same thing.
* `parts_injective`: two such keys with one path are one key.
-/
namespace BidScope.L9
open BidScope.L1

abbrev Bytes := List UInt8

/-- `key.split("/")` -/
def segments (key : String) : List String := (key.toList.splitOn '/').map .ofList

/-- `Path(key).parts` of a relative path. -/
def parts (key : String) : List String := (segments key).filter fun s => s ≠ "" ∧ s ≠ "."

/-- `"/".join(parts)`, as `PurePath.as_posix` prints a relative path. -/
def asPosix (path : List String) : String := joinWith "/" path

/-- The key has no empty segment and no segment `.`. -/
def Canonical (key : String) : Prop := ∀ s ∈ segments key, s ≠ "" ∧ s ≠ "."

instance (key : String) : Decidable (Canonical key) := inferInstanceAs (Decidable (∀ _ ∈ _, _))

/-- What an entry of a directory can be called. -/
structure Name (s : String) : Prop where
  ne : s ≠ ""
  dot : s ≠ "."
  slash : '/' ∉ s.toList

/-! ## Segments -/

theorem not_mem_of_mem_splitOn {α : Type} [DecidableEq α] (x : α) : ∀ (xs : List α),
    ∀ l ∈ xs.splitOn x, x ∉ l
  | [], l, hl => by simp_all
  | y :: ys, l, hl => by
    have ih := not_mem_of_mem_splitOn x ys
    rw [List.splitOn_cons_eq_if_modifyHead] at hl
    split at hl
    · rcases List.mem_cons.mp hl with rfl | hl
      · exact List.not_mem_nil
      · exact ih l hl
    · rename_i hy
      obtain ⟨m, ms, hms⟩ := List.exists_cons_of_ne_nil (List.splitOn_ne_nil x ys)
      rw [hms] at hl ih
      rcases List.mem_cons.mp hl with rfl | hl
      · have hxy : x ≠ y := fun h => hy (by simp [h])
        exact fun hx => (List.mem_cons.mp hx).elim hxy (ih m (List.mem_cons_self ..))
      · exact ih l (List.mem_cons_of_mem _ hl)

theorem segments_slash {key s : String} (hs : s ∈ segments key) : '/' ∉ s.toList := by
  obtain ⟨l, hl, rfl⟩ := List.mem_map.mp hs
  rw [String.toList_ofList]
  exact not_mem_of_mem_splitOn '/' _ l hl

theorem segments_ne_nil (key : String) : segments key ≠ [] := by simp [segments]

theorem map_toList_ofList (ls : List (List Char)) : (ls.map String.ofList).map String.toList = ls := by
  simp [Function.comp_def]

theorem joinWith_segments (key : String) : joinWith "/" (segments key) = key := by
  rw [joinWith, segments, map_toList_ofList, Text.join_eq_intercalate]
  exact (congrArg String.ofList (List.intercalate_splitOn '/')).trans (String.ofList_toList)

theorem segments_joinWith {ls : List String} (hne : ls ≠ []) (h : ∀ s ∈ ls, '/' ∉ s.toList) :
    segments (joinWith "/" ls) = ls := by
  have hchars : ∀ l ∈ ls.map String.toList, '/' ∉ l := by simpa using h
  have hsplit := List.splitOn_intercalate '/' hchars (by simpa using hne)
  rw [joinWith, segments, String.toList_ofList, Text.join_eq_intercalate]
  refine (congrArg (List.map String.ofList) hsplit).trans ?_
  simp [Function.comp_def]

/-! ## Paths -/

theorem parts_eq_segments {key : String} (h : Canonical key) : parts key = segments key := by
  unfold parts
  rw [List.filter_eq_self]
  intro s hs
  simpa using h s hs

theorem parts_names {key s : String} (hs : s ∈ parts key) : Name s := by
  obtain ⟨hseg, hs⟩ := List.mem_filter.mp hs
  obtain ⟨hne, hdot⟩ : s ≠ "" ∧ s ≠ "." := by simpa using hs
  exact ⟨hne, hdot, segments_slash hseg⟩

theorem parts_ne_nil {key : String} (h : Canonical key) : parts key ≠ [] := by
  rw [parts_eq_segments h]
  exact segments_ne_nil key

/-- A key without empty segments and `.` is the path it is read as. -/
theorem asPosix_parts {key : String} (h : Canonical key) : asPosix (parts key) = key := by
  rw [asPosix, parts_eq_segments h, joinWith_segments]

theorem segments_asPosix {path : List String} (hne : path ≠ []) (h : ∀ s ∈ path, Name s) :
    segments (asPosix path) = path :=
  segments_joinWith hne fun s hs => (h s hs).slash

theorem canonical_asPosix {path : List String} (hne : path ≠ []) (h : ∀ s ∈ path, Name s) :
    Canonical (asPosix path) := by
  intro s hs
  rw [segments_asPosix hne h] at hs
  exact ⟨(h s hs).ne, (h s hs).dot⟩

/-- A path of names is the path of the key printed from it. -/
theorem parts_asPosix {path : List String} (hne : path ≠ []) (h : ∀ s ∈ path, Name s) :
    parts (asPosix path) = path := by
  rw [parts_eq_segments (canonical_asPosix hne h), segments_asPosix hne h]

theorem parts_injective {k k' : String} (h : Canonical k) (h' : Canonical k')
    (he : parts k = parts k') : k = k' := by
  rw [← asPosix_parts h, ← asPosix_parts h', he]

end BidScope.L9
