import Mathlib.Data.List.Induction
import Mathlib.Data.List.Nodup

/-!
# Insertion-ordered dictionaries

A finite map that keeps its keys in the order they were first set, as
`dict` does: setting a key already present changes its value in place.
Distinct keys are a field, so no dictionary with a repeated key exists.

* `get_set`, `get_merge`, `get_setDefault`: reading back after `d[k] = v`,
  `{**l, **r}` and `d.setdefault(k, v)`.
* `keys_set`, `keys_set_of_get`: a new key is added at the end, an old one keeps its place.
* `set_self`, `merge_self`: writing the values a dictionary has changes nothing.
* `get_erase`, `entries_foldl_erase`: what is there after `del d[k]`.
* `mem_iff_get`: an entry of the list is exactly a key with its value.
* `get_ofList`, `keys_ofList_congr`: what a dictionary built from pairs has, and in which order.
-/

universe u v

structure Dict (κ : Type u) (ν : Type v) where
  entries : List (κ × ν)
  distinct : (entries.map Prod.fst).Nodup
  deriving DecidableEq

namespace Dict

variable {κ : Type u} {ν : Type v} [DecidableEq κ]

def empty : Dict κ ν := ⟨[], List.nodup_nil⟩

instance : Inhabited (Dict κ ν) := ⟨empty⟩

def lookup (k : κ) : List (κ × ν) → Option ν
  | [] => none
  | e :: es => if e.1 = k then some e.2 else lookup k es

def get (d : Dict κ ν) (k : κ) : Option ν := lookup k d.entries

def keys (d : Dict κ ν) : List κ := d.entries.map Prod.fst

/-- `entries` with `k` bound to `v`, in place or at the end. -/
def put (k : κ) (v : ν) : List (κ × ν) → List (κ × ν)
  | [] => [(k, v)]
  | e :: es => if e.1 = k then (k, v) :: es else e :: put k v es

theorem mem_put_keys (k : κ) (v : ν) (x : κ) :
    ∀ es : List (κ × ν), x ∈ (put k v es).map Prod.fst ↔ x = k ∨ x ∈ es.map Prod.fst
  | [] => by simp [put]
  | e :: es => by
    unfold put
    split
    · rename_i h
      simp [h]
    · have ih := mem_put_keys k v x es
      simp only [List.map_cons, List.mem_cons, ih]
      exact or_left_comm

theorem put_distinct (k : κ) (v : ν) :
    ∀ es : List (κ × ν), (es.map Prod.fst).Nodup → ((put k v es).map Prod.fst).Nodup
  | [], _ => by simp [put]
  | e :: es, h => by
    simp only [List.map_cons, List.nodup_cons] at h
    unfold put
    split
    · rename_i he
      simpa [← he] using h
    · rename_i he
      simp only [List.map_cons, List.nodup_cons, mem_put_keys, not_or]
      exact ⟨⟨he, h.1⟩, put_distinct k v es h.2⟩

/-- `d[k] = v` -/
def set (d : Dict κ ν) (k : κ) (v : ν) : Dict κ ν :=
  ⟨put k v d.entries, put_distinct k v d.entries d.distinct⟩

/-- `{**left, **right}` -/
def merge (left right : Dict κ ν) : Dict κ ν :=
  right.entries.foldl (fun d e => d.set e.1 e.2) left

/-- A `dict` built from pairs: the last value of a key wins. -/
def ofList (es : List (κ × ν)) : Dict κ ν := es.foldl (fun d e => d.set e.1 e.2) empty

@[simp] theorem get_empty (k : κ) : (empty : Dict κ ν).get k = none := rfl

theorem lookup_put (k x : κ) (v : ν) :
    ∀ es : List (κ × ν), lookup x (put k v es) = if k = x then some v else lookup x es
  | [] => by simp [put, lookup]
  | e :: es => by
    unfold put
    split
    · rename_i h
      by_cases hx : k = x
      · simp [lookup, hx]
      · simp [lookup, hx, h]
    · rename_i h
      simp only [lookup, lookup_put k x v es]
      by_cases hx : k = x
      · subst hx
        simp [h]
      · simp [hx]

@[simp] theorem get_set (d : Dict κ ν) (k x : κ) (v : ν) :
    (d.set k v).get x = if k = x then some v else d.get x :=
  lookup_put k x v d.entries

theorem get_set_self (d : Dict κ ν) (k : κ) (v : ν) : (d.set k v).get k = some v := by simp

theorem get_set_ne (d : Dict κ ν) {k x : κ} (v : ν) (h : k ≠ x) : (d.set k v).get x = d.get x := by
  simp [h]

theorem lookup_eq_none {k : κ} {es : List (κ × ν)} :
    lookup k es = none ↔ k ∉ es.map Prod.fst := by
  induction es with
  | nil => simp [lookup]
  | cons e es ih =>
    by_cases h : e.1 = k
    · simp [lookup, h]
    · simp only [lookup, if_neg h, ih, List.map_cons, List.mem_cons, not_or]
      exact ⟨fun hn => ⟨fun he => h he.symm, hn⟩, fun hn => hn.2⟩

theorem get_eq_none (d : Dict κ ν) (k : κ) : d.get k = none ↔ k ∉ d.keys := lookup_eq_none

theorem mem_keys (d : Dict κ ν) (k : κ) : k ∈ d.keys ↔ (d.get k).isSome := by
  rw [Option.isSome_iff_ne_none, ne_eq, get_eq_none, not_not]

theorem lookup_eq_some {k : κ} {v : ν} :
    ∀ {es : List (κ × ν)}, (es.map Prod.fst).Nodup → (lookup k es = some v ↔ (k, v) ∈ es)
  | [], _ => by simp [lookup]
  | e :: es, h => by
    simp only [List.map_cons, List.nodup_cons] at h
    have ih := lookup_eq_some (k := k) (v := v) h.2
    by_cases he : e.1 = k
    · simp only [lookup, if_pos he, Option.some.injEq, List.mem_cons]
      constructor
      · intro heq
        subst heq
        exact Or.inl (Prod.ext he.symm rfl)
      · intro hmem
        rcases hmem with hm | hm
        · rw [← hm]
        · exact absurd (he ▸ List.mem_map_of_mem hm) h.1
    · simp only [lookup, if_neg he, ih, List.mem_cons]
      constructor
      · exact Or.inr
      · intro hmem
        rcases hmem with hm | hm
        · exact absurd (by rw [← hm]) he
        · exact hm

theorem mem_iff_get (d : Dict κ ν) (k : κ) (v : ν) : (k, v) ∈ d.entries ↔ d.get k = some v :=
  (lookup_eq_some d.distinct).symm

theorem get_foldl_set (k : κ) :
    ∀ (es : List (κ × ν)) (d : Dict κ ν), (es.map Prod.fst).Nodup →
      (es.foldl (fun d e => d.set e.1 e.2) d).get k = (lookup k es).or (d.get k)
  | [], d, _ => by simp [lookup]
  | e :: es, d, h => by
    simp only [List.map_cons, List.nodup_cons] at h
    rw [List.foldl_cons, get_foldl_set k es _ h.2, get_set]
    by_cases he : e.1 = k
    · have hn : lookup k es = none := lookup_eq_none.mpr (he ▸ h.1)
      simp [lookup, he, hn]
    · simp [lookup, he]

/-- The right dictionary wins. -/
theorem get_merge (l r : Dict κ ν) (k : κ) : (l.merge r).get k = (r.get k).or (l.get k) :=
  get_foldl_set k r.entries l r.distinct

theorem merge_empty (l : Dict κ ν) : l.merge empty = l := rfl

theorem put_self {k : κ} {v : ν} : ∀ {es : List (κ × ν)}, lookup k es = some v → put k v es = es
  | e :: es, h => by
    unfold put
    unfold lookup at h
    split
    · rename_i he
      rw [if_pos he, Option.some.injEq] at h
      rw [← he, ← h]
    · rename_i he
      rw [if_neg he] at h
      rw [put_self h]

/-- Setting a key to the value it has changes nothing. -/
theorem set_self {d : Dict κ ν} {k : κ} {v : ν} (h : d.get k = some v) : d.set k v = d := by
  unfold set
  congr 1
  exact put_self h

theorem put_of_none {k : κ} {v : ν} :
    ∀ {es : List (κ × ν)}, lookup k es = none → put k v es = es ++ [(k, v)]
  | [], _ => rfl
  | e :: es, h => by
    unfold lookup at h
    split at h
    · cases h
    · rename_i he
      rw [put, if_neg he, put_of_none h]
      rfl

/-- A key not there yet comes last. -/
theorem keys_set {d : Dict κ ν} {k : κ} {v : ν} (h : d.get k = none) :
    (d.set k v).keys = d.keys ++ [k] := by
  show (put k v d.entries).map Prod.fst = _
  rw [put_of_none h, List.map_append]
  rfl

theorem put_keys {k : κ} {v w : ν} :
    ∀ {es : List (κ × ν)}, lookup k es = some w → (put k v es).map Prod.fst = es.map Prod.fst
  | e :: es, h => by
    unfold lookup at h
    unfold put
    split
    · rename_i he
      rw [List.map_cons, List.map_cons, he]
    · rename_i he
      rw [if_neg he] at h
      rw [List.map_cons, List.map_cons, put_keys h]

/-- A key there already keeps its place. -/
theorem keys_set_of_get {d : Dict κ ν} {k : κ} {v w : ν} (h : d.get k = some w) :
    (d.set k v).keys = d.keys := put_keys h

/-- The values in the order of their keys. -/
theorem values_eq {d : Dict κ ν} {f : κ → ν} (h : ∀ k ∈ d.keys, d.get k = some (f k)) :
    d.entries.map Prod.snd = d.keys.map f := by
  unfold keys
  rw [List.map_map]
  refine List.map_congr_left fun e he => ?_
  have hget := (mem_iff_get d e.1 e.2).mp he
  rw [h e.1 (List.mem_map_of_mem he), Option.some.injEq] at hget
  exact hget.symm

theorem merge_self {l r : Dict κ ν} (h : ∀ k v, r.get k = some v → l.get k = some v) :
    l.merge r = l := by
  have hfold : ∀ es : List (κ × ν), (∀ e ∈ es, l.get e.1 = some e.2) →
      es.foldl (fun d e => d.set e.1 e.2) l = l := by
    intro es
    induction es with
    | nil => intro _; rfl
    | cons e es ih =>
      intro he
      rw [List.foldl_cons, set_self (he e (List.mem_cons_self ..))]
      exact ih fun e' he' => he e' (List.mem_cons_of_mem _ he')
  refine hfold r.entries fun e he => h e.1 e.2 ?_
  exact (mem_iff_get r e.1 e.2).mp he

theorem ofList_snoc (es : List (κ × ν)) (e : κ × ν) : ofList (es ++ [e]) = (ofList es).set e.1 e.2 := by
  rw [ofList, List.foldl_append]
  rfl

/-- Among pairs with one key the last stays. -/
theorem get_ofList (es : List (κ × ν)) (k : κ) :
    (ofList es).get k = ((es.filter (·.1 = k)).getLast?).map Prod.snd := by
  induction es using List.reverseRecOn with
  | nil => rfl
  | append_singleton es e ih =>
    rw [ofList_snoc, get_set, ih, List.filter_append]
    by_cases he : e.1 = k <;> simp [he]

/-- The first pair counts where its key does not come again. -/
theorem get_ofList_cons (e : κ × ν) (es : List (κ × ν)) (k : κ) :
    (ofList (e :: es)).get k = ((ofList es).get k).or (if e.1 = k then some e.2 else none) := by
  rw [get_ofList, get_ofList]
  by_cases he : e.1 = k
  · rw [List.filter_cons_of_pos (by simpa using he), List.getLast?_cons, if_pos he]
    cases (es.filter (·.1 = k)).getLast? <;> rfl
  · rw [List.filter_cons_of_neg (by simpa using he), if_neg he, Option.or_none]

theorem mem_keys_ofList {es : List (κ × ν)} {k : κ} : k ∈ (ofList es).keys ↔ k ∈ es.map Prod.fst := by
  rw [mem_keys]
  induction es with
  | nil => simp [ofList]
  | cons e es ih =>
    rw [get_ofList_cons, Option.isSome_or, Bool.or_eq_true, ih, List.map_cons, List.mem_cons, or_comm]
    refine or_congr_left ?_
    by_cases he : e.1 = k
    · simp [he]
    · simp [he, Ne.symm he]

/-- A pair whose key comes again shows nowhere. -/
theorem get_ofList_cons_of_mem {e : κ × ν} {es : List (κ × ν)} (h : e.1 ∈ es.map Prod.fst) (k : κ) :
    (ofList (e :: es)).get k = (ofList es).get k := by
  rw [get_ofList_cons]
  by_cases he : e.1 = k
  · obtain ⟨v, hv⟩ := Option.isSome_iff_exists.mp ((mem_keys _ _).mp (mem_keys_ofList.mpr (he ▸ h)))
    rw [hv, Option.some_or]
  · rw [if_neg he, Option.or_none]

theorem get_ofList_cons_of_notMem {e : κ × ν} {es : List (κ × ν)} (h : e.1 ∉ es.map Prod.fst) (k : κ) :
    (ofList (e :: es)).get k = if e.1 = k then some e.2 else (ofList es).get k := by
  rw [get_ofList_cons]
  by_cases he : e.1 = k
  · have hnone : (ofList es).get k = none := (get_eq_none _ _).mpr fun hk => h (he ▸ mem_keys_ofList.mp hk)
    rw [hnone, if_pos he, Option.none_or]
  · rw [if_neg he, if_neg he, Option.or_none]

theorem mem_of_mem_ofList {e : κ × ν} {es : List (κ × ν)} (h : e ∈ (ofList es).entries) : e ∈ es := by
  have hget := (mem_iff_get _ e.1 e.2).mp h
  rw [get_ofList, Option.map_eq_some_iff] at hget
  obtain ⟨x, hx, hsnd⟩ := hget
  have hmem := List.mem_filter.mp (List.mem_of_getLast? hx)
  have hfst : x.1 = e.1 := by simpa using hmem.2
  exact Prod.ext hfst hsnd ▸ hmem.1

theorem length_put_le (k : κ) (v : ν) : ∀ es : List (κ × ν), (put k v es).length ≤ es.length + 1
  | [] => by simp [put]
  | e :: es => by
    have ih := length_put_le k v es
    unfold put
    split
    · simp
    · simpa using ih

theorem length_ofList_le (es : List (κ × ν)) : (ofList es).entries.length ≤ es.length := by
  induction es using List.reverseRecOn with
  | nil => simp [ofList, empty]
  | append_singleton es e ih =>
    have hput : (ofList (es ++ [e])).entries.length ≤ (ofList es).entries.length + 1 := by
      rw [ofList_snoc]
      exact length_put_le e.1 e.2 _
    simp only [List.length_append, List.length_singleton]
    omega

/-- The keys and their order come from the keys of the pairs alone. -/
theorem keys_ofList_congr {es es' : List (κ × ν)} (h : es.map Prod.fst = es'.map Prod.fst) :
    (ofList es).keys = (ofList es').keys := by
  induction es using List.reverseRecOn generalizing es' with
  | nil =>
    rw [List.map_nil, eq_comm, List.map_eq_nil_iff] at h
    rw [h]
  | append_singleton es e ih =>
    obtain ⟨es', e', rfl, hkey, hes⟩ : ∃ es₀ e₀, es' = es₀ ++ [e₀] ∧ e.1 = e₀.1 ∧
        es.map Prod.fst = es₀.map Prod.fst := by
      rw [List.map_append, eq_comm, List.map_eq_append_iff] at h
      obtain ⟨es₀, tail, rfl, hes, htail⟩ := h
      obtain ⟨e₀, rfl⟩ : ∃ e₀, tail = [e₀] := by
        rw [List.map_cons, List.map_nil] at htail
        exact ⟨_, (List.map_eq_singleton_iff.mp htail).choose_spec.1⟩
      exact ⟨es₀, e₀, rfl, by simpa using htail.symm, hes.symm⟩
    have hkeys := ih hes
    rw [ofList_snoc, ofList_snoc, ← hkey]
    cases hg : (ofList es).get e.1 with
    | none =>
      have hg' : (ofList es').get e.1 = none := by rwa [get_eq_none, ← hkeys, ← get_eq_none]
      rw [keys_set hg, keys_set hg', hkeys]
    | some w =>
      obtain ⟨w', hg'⟩ : ∃ w', (ofList es').get e.1 = some w' := by
        rw [← Option.isSome_iff_exists, ← mem_keys, ← hkeys, mem_keys, hg]
        rfl
      rw [keys_set_of_get hg, keys_set_of_get hg', hkeys]

theorem entries_ext : ∀ {es es' : List (κ × ν)}, es.map Prod.fst = es'.map Prod.fst →
    (es.map Prod.fst).Nodup → (∀ k, lookup k es = lookup k es') → es = es'
  | [], [], _, _, _ => rfl
  | e :: es, e' :: es', hkeys, hn, hget => by
    simp only [List.map_cons, List.cons.injEq, List.nodup_cons] at hkeys hn
    have hval : e.2 = e'.2 := by simpa [lookup, hkeys.1] using hget e.1
    have hrest : ∀ k, lookup k es = lookup k es' := by
      intro k
      by_cases hk : e.1 = k
      · have hes' : k ∉ es'.map Prod.fst := by rw [← hkeys.2, ← hk]; exact hn.1
        rw [lookup_eq_none.mpr (hk ▸ hn.1), lookup_eq_none.mpr hes']
      · simpa [lookup, hk, ← hkeys.1] using hget k
    rw [Prod.ext hkeys.1 hval, entries_ext hkeys.2 hn.2 hrest]

/-- A dictionary is its keys in their order and what each has. -/
theorem ext_get {d d' : Dict κ ν} (hkeys : d.keys = d'.keys) (hget : ∀ k, d.get k = d'.get k) : d = d' := by
  cases d
  cases d'
  congr 1
  exact entries_ext hkeys ‹_› hget

/-- Pairs with keys of their own stay as they are. -/
theorem entries_ofList {es : List (κ × ν)} (h : (es.map Prod.fst).Nodup) : (ofList es).entries = es := by
  induction es using List.reverseRecOn with
  | nil => rfl
  | append_singleton es e ih =>
    rw [List.map_append] at h
    have hes := ih h.of_append_left
    have hnew : lookup e.1 es = none :=
      lookup_eq_none.mpr fun hmem => List.disjoint_of_nodup_append h hmem (List.mem_singleton_self e.1)
    rw [ofList_snoc]
    show put e.1 e.2 (ofList es).entries = es ++ [e]
    rw [hes, put_of_none hnew]

/-- `d.setdefault(k, v)` -/
def setDefault (d : Dict κ ν) (k : κ) (v : ν) : Dict κ ν :=
  match d.get k with
  | some _ => d
  | none => d.set k v

@[simp] theorem get_setDefault (d : Dict κ ν) (k x : κ) (v : ν) :
    (d.setDefault k v).get x = if k = x then some ((d.get k).getD v) else d.get x := by
  unfold setDefault
  split
  · rename_i w h
    by_cases hx : k = x
    · subst hx
      simp [h]
    · rw [if_neg hx]
  · rename_i h
    rw [get_set, h]
    rfl

/-! ## Removing a key -/

/-- `del d[k]`, where `k` may be missing. -/
def erase (d : Dict κ ν) (k : κ) : Dict κ ν :=
  ⟨d.entries.filter (·.1 ≠ k), d.distinct.sublist ((List.filter_sublist ..).map _)⟩

theorem lookup_filter_ne (k x : κ) : ∀ es : List (κ × ν),
    lookup x (es.filter (·.1 ≠ k)) = if x = k then none else lookup x es
  | [] => by simp [lookup]
  | e :: es => by
    have ih := lookup_filter_ne k x es
    by_cases he : e.1 = k
    · rw [List.filter_cons_of_neg (by simpa using he), ih]
      by_cases hx : x = k
      · simp [hx]
      · simp [lookup, hx, he, Ne.symm hx]
    · rw [List.filter_cons_of_pos (by simpa using he)]
      simp only [lookup, ih]
      by_cases hx : e.1 = x
      · subst hx
        simp [he]
      · simp [hx]

@[simp] theorem get_erase (d : Dict κ ν) (k x : κ) :
    (d.erase k).get x = if x = k then none else d.get x :=
  lookup_filter_ne k x d.entries

/-- What is left when keys are removed one after another. -/
theorem entries_foldl_erase : ∀ (ks : List κ) (d : Dict κ ν),
    (ks.foldl erase d).entries = d.entries.filter (·.1 ∉ ks)
  | [], d => by simp
  | k :: ks, d => by
    rw [List.foldl_cons, entries_foldl_erase ks]
    show (d.entries.filter (·.1 ≠ k)).filter (·.1 ∉ ks) = _
    rw [List.filter_filter]
    refine List.filter_congr fun e _ => ?_
    simp [Bool.and_comm]

/-! ## Mapping values -/

variable {μ : Type v}

omit [DecidableEq κ] in
theorem filterMap_keys (f : κ → ν → Option μ) :
    ∀ es : List (κ × ν), ((es.filterMap fun e => (f e.1 e.2).map (e.1, ·)).map Prod.fst).Sublist
      (es.map Prod.fst)
  | [] => List.Sublist.refl _
  | e :: es => by
    have ih := filterMap_keys f es
    cases h : f e.1 e.2 with
    | none => simpa [List.filterMap_cons, h] using ih.cons e.1
    | some m => simpa [List.filterMap_cons, h] using ih.cons_cons e.1

/-- The entries on which `f` is defined, with its value. -/
def filterMap (f : κ → ν → Option μ) (d : Dict κ ν) : Dict κ μ :=
  ⟨d.entries.filterMap fun e => (f e.1 e.2).map (e.1, ·), d.distinct.sublist (filterMap_keys f _)⟩

theorem lookup_filterMap (f : κ → ν → Option μ) (k : κ) :
    ∀ es : List (κ × ν), (es.map Prod.fst).Nodup →
      lookup k (es.filterMap fun e => (f e.1 e.2).map (e.1, ·)) = (lookup k es).bind (f k)
  | [], _ => rfl
  | e :: es, h => by
    simp only [List.map_cons, List.nodup_cons] at h
    have ih := lookup_filterMap f k es h.2
    by_cases hk : e.1 = k
    · subst hk
      cases hf : f e.1 e.2 with
      | none =>
        -- the key occurs nowhere else
        have hrest : lookup e.1 es = none := lookup_eq_none.mpr h.1
        rw [hrest] at ih
        simpa [List.filterMap_cons, hf, lookup] using ih
      | some m => simp [hf, lookup]
    · cases hf : f e.1 e.2 with
      | none => simpa [List.filterMap_cons, hf, lookup, hk] using ih
      | some m => simpa [List.filterMap_cons, hf, lookup, hk] using ih

@[simp] theorem get_filterMap (f : κ → ν → Option μ) (d : Dict κ ν) (k : κ) :
    (d.filterMap f).get k = (d.get k).bind (f k) :=
  lookup_filterMap f k d.entries d.distinct

end Dict
