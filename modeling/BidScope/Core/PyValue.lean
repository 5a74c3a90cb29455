import BidScope.Core.Dict
import BidScope.Core.KeyOrder
import Mathlib.Algebra.Order.Ring.Rat
import Mathlib.Data.String.Basic

/-!
# Values as Python compares them

To `==` the numbers `True`, `1` and `1.0` are one, and a dict is its members in any
order. `canon` picks one value of each class, with a dict's members by key, so
that `==` is equality of `canon`.

* `canon_dict`: two dicts are equal when they have the same keys, and equal values
  under them.

A `PyValue` is what JSON can hold; its floats are finite.
-/

inductive PyValue where
  | none
  | bool (b : Bool)
  | int (n : Int)
  | float (q : Rat)
  | str (s : String)
  | list (items : List PyValue)
  | dict (entries : List (String × PyValue))

namespace PyValue

inductive Canon where
  | none
  | num (q : Rat)
  | str (s : String)
  | list (items : List Canon)
  | dict (entries : List (String × Canon))

namespace Canon

mutual

def same : Canon → Canon → Bool
  | .none, .none => true
  | .num p, .num q => p == q
  | .str s, .str t => s == t
  | .list l, .list m => sameItems l m
  | .dict l, .dict m => sameEntries l m
  | _, _ => false

def sameItems : List Canon → List Canon → Bool
  | [], [] => true
  | v :: l, w :: m => same v w && sameItems l m
  | _, _ => false

def sameEntries : List (String × Canon) → List (String × Canon) → Bool
  | [], [] => true
  | (k, v) :: l, (k', w) :: m => k == k' && (same v w && sameEntries l m)
  | _, _ => false

end

mutual

theorem same_iff : ∀ v w : Canon, same v w = true ↔ v = w
  | .none, w => by cases w <;> simp [same]
  | .num p, w => by cases w <;> simp [same]
  | .str s, w => by cases w <;> simp [same]
  | .list l, w => by
    cases w with
    | list m => simp [same, sameItems_iff l m]
    | none | num _ | str _ | dict _ => simp [same]
  | .dict l, w => by
    cases w with
    | dict m => simp [same, sameEntries_iff l m]
    | none | num _ | str _ | list _ => simp [same]

theorem sameItems_iff : ∀ l m : List Canon, sameItems l m = true ↔ l = m
  | [], m => by cases m <;> simp [sameItems]
  | v :: l, m => by
    cases m with
    | nil => simp [sameItems]
    | cons w m => simp [sameItems, same_iff v w, sameItems_iff l m]

theorem sameEntries_iff : ∀ l m : List (String × Canon), sameEntries l m = true ↔ l = m
  | [], m => by cases m <;> simp [sameEntries]
  | (k, v) :: l, m => by
    cases m with
    | nil => simp [sameEntries]
    | cons e m =>
      obtain ⟨k', w⟩ := e
      simp [sameEntries, same_iff v w, sameEntries_iff l m, and_assoc]

end

instance : DecidableEq Canon := fun v w => decidable_of_iff _ (same_iff v w)

end Canon

mutual

def canon : PyValue → Canon
  | .none => .none
  | .bool b => .num (if b then 1 else 0)
  | .int n => .num n
  | .float q => .num q
  | .str s => .str s
  | .list l => .list (canonItems l)
  | .dict l => .dict (KeyOrder.orderBy Prod.fst (canonEntries l))

def canonItems : List PyValue → List Canon
  | [] => []
  | v :: l => canon v :: canonItems l

def canonEntries : List (String × PyValue) → List (String × Canon)
  | [] => []
  | (k, v) :: l => (k, canon v) :: canonEntries l

end

variable {l m : List (String × PyValue)}

theorem canonEntries_eq : canonEntries l = l.map fun e => (e.1, e.2.canon) := by
  induction l with
  | nil => rfl
  | cons e l ih => rw [canonEntries, List.map_cons, ih]

theorem keys_canonEntries : (canonEntries l).map Prod.fst = l.map Prod.fst := by
  rw [canonEntries_eq, List.map_map]
  rfl

theorem lookup_canonEntries (k : String) : Dict.lookup k (canonEntries l) = (Dict.lookup k l).map canon := by
  induction l with
  | nil => rfl
  | cons e l ih =>
    obtain ⟨x, v⟩ := e
    simp only [canonEntries, Dict.lookup, ih]
    split <;> rfl

/-- **Dicts are equal when their members are**, in whatever order. -/
theorem canon_dict (hl : (l.map Prod.fst).Nodup) (hm : (m.map Prod.fst).Nodup) :
    canon (.dict l) = canon (.dict m) ↔ ∀ k, (Dict.lookup k l).map canon = (Dict.lookup k m).map canon := by
  have hl' : ((canonEntries l).map Prod.fst).Nodup := by rwa [keys_canonEntries]
  have hm' : ((canonEntries m).map Prod.fst).Nodup := by rwa [keys_canonEntries]
  simp only [canon, Canon.dict.injEq, ← lookup_canonEntries]
  constructor
  · intro h k
    have hperm : (canonEntries l).Perm (canonEntries m) :=
      (KeyOrder.orderBy_perm Prod.fst _).symm.trans (h ▸ KeyOrder.orderBy_perm Prod.fst _)
    refine Option.ext fun v => ?_
    rw [Dict.lookup_eq_some hl', Dict.lookup_eq_some hm', hperm.mem_iff]
  · intro h
    have hperm : (canonEntries l).Perm (canonEntries m) := by
      refine (List.perm_ext_iff_of_nodup (hl'.of_map _) (hm'.of_map _)).mpr fun e => ?_
      rw [← Dict.lookup_eq_some hl', ← Dict.lookup_eq_some hm', h]
    exact KeyOrder.orderBy_unique ((KeyOrder.orderBy_perm _ _).trans hperm.symm) hl' (KeyOrder.orderBy_sorted _ _)

example : canon (.dict [("a", .bool true), ("b", .none)]) = canon (.dict [("b", .none), ("a", .float 1)]) := by
  decide +kernel

end PyValue
