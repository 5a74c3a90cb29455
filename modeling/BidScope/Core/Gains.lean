import Mathlib.Algebra.Order.Field.Basic
import Mathlib.Algebra.BigOperators.Group.List.Basic
import Mathlib.Tactic.Linarith
import Mathlib.Tactic.Positivity

/-!
# Discounted gains of a ranking

A ranking is the list of its flags, from the first position on: is the result
there a good one? Position `i` of a good one counts `weight i`, and weights
fall. What matters of two rankings is how many good results each has among its
first ones (`hits`):

* `gain_le`: a ranking with at least as many hits at every cut has at least
  the gain.
* `hits_eq_of_gain_le`: and if it does not have more gain, it has the same
  hits at every cut.
* `hits_replace`: in the first occurrences of a list, a good element in the
  place of a bad one leaves as many hits at every cut, whatever repeats.
-/
namespace Gains

variable {𝕜 : Type} [Field 𝕜] [LinearOrder 𝕜] [IsStrictOrderedRing 𝕜]

/-- What a good result counts at each position. -/
structure Discount (𝕜 : Type) [Field 𝕜] [LinearOrder 𝕜] where
  weight : Nat → 𝕜
  pos : ∀ i, 0 < weight i
  falls : ∀ i, weight (i + 1) < weight i

def gainFrom (w : Nat → 𝕜) : Nat → List Bool → 𝕜
  | _, [] => 0
  | i, b :: bs => (if b then w i else 0) + gainFrom w (i + 1) bs

/-- The good results among the first `i`. -/
def hits (bs : List Bool) (i : Nat) : Nat := (bs.take i).count true

variable {d : Discount 𝕜} {a b : List Bool} {x y : Bool} {i j m : Nat}

@[simp] theorem hits_zero (bs : List Bool) : hits bs 0 = 0 := rfl

@[simp] theorem hits_nil (i : Nat) : hits [] i = 0 := by simp [hits]

@[simp] theorem hits_cons (x : Bool) (bs : List Bool) (i : Nat) :
    hits (x :: bs) (i + 1) = x.toNat + hits bs i := by
  cases x <;> simp [hits, Nat.add_comm]

theorem hits_le (bs : List Bool) (i : Nat) : hits bs i ≤ i :=
  Nat.le_trans List.count_le_length (List.length_take_le i bs)

theorem hits_take (bs : List Bool) (k i : Nat) : hits (bs.take k) i = hits bs (min i k) := by
  rw [hits, hits, List.take_take]

theorem hits_mono (bs : List Bool) (h : i ≤ j) : hits bs i ≤ hits bs j := by
  have hsub : (bs.take i).Sublist (bs.take j) := by
    rw [← Nat.min_eq_left h, ← List.take_take]
    exact List.take_sublist ..
  exact hsub.count_le true

theorem hits_replicate : ∀ (m i : Nat), hits (List.replicate m true) i = min i m
  | 0, i => by simp
  | m + 1, 0 => by simp
  | m + 1, i + 1 => by
    rw [List.replicate_succ, hits_cons, hits_replicate m i, Bool.toNat_true]
    omega

/-- All of the first `m` are good. -/
theorem hits_eq_self : ∀ {bs : List Bool} {m : Nat},
    hits bs m = m ↔ ∀ i < m, bs[i]? = some true
  | bs, 0 => by simp
  | [], m + 1 => by
    rw [hits_nil]
    constructor
    · intro h
      cases h
    · intro h
      cases h 0 (Nat.succ_pos m)
  | x :: bs, m + 1 => by
    have hle := hits_le bs m
    have hx := Bool.toNat_le x
    rw [hits_cons, show (x.toNat + hits bs m = m + 1) ↔ x.toNat = 1 ∧ hits bs m = m by omega,
      Bool.toNat_eq_one, hits_eq_self]
    constructor
    · rintro ⟨rfl, h⟩ i hi
      cases i with
      | zero => rfl
      | succ i => exact h i (by omega)
    · intro h
      exact ⟨by simpa using h 0 (Nat.succ_pos m), fun i hi => h (i + 1) (by omega)⟩

/-! ## Gains -/

theorem gain_nonneg (d : Discount 𝕜) : ∀ (bs : List Bool) (i : Nat), 0 ≤ gainFrom d.weight i bs
  | [], _ => le_refl 0
  | x :: bs, i => by
    have h := gain_nonneg d bs (i + 1)
    have hw := d.pos i
    cases x with
    | true => simp only [gainFrom, if_true]; linarith
    | false => simpa [gainFrom] using h

theorem gain_replicate_pos (d : Discount 𝕜) (hm : 0 < m) :
    0 < gainFrom d.weight i (List.replicate m true) := by
  cases m with
  | zero => cases hm
  | succ m =>
    have h := gain_nonneg d (List.replicate m true) (i + 1)
    have hw := d.pos i
    simp only [List.replicate_succ, gainFrom, if_true]
    linarith

omit [LinearOrder 𝕜] [IsStrictOrderedRing 𝕜] in
theorem gain_split (w : Nat → 𝕜) (i : Nat) (bs : List Bool) :
    gainFrom w i bs = (bs.headD false).toNat * w i + gainFrom w (i + 1) bs.tail := by
  cases bs with
  | nil => simp [gainFrom]
  | cons x bs => cases x <;> simp [gainFrom]

theorem hits_split (bs : List Bool) (i : Nat) :
    hits bs (i + 1) = (bs.headD false).toNat + hits bs.tail i := by
  cases bs <;> simp

/-- With `c` hits in advance, which count at most as much as at this position. -/
theorem gain_le_add : ∀ (a b : List Bool) (i c : Nat), (∀ j, hits a j ≤ hits b j + c) →
    gainFrom d.weight i a ≤ gainFrom d.weight i b + c * d.weight i
  | [], b, i, c, _ => by
    have hb := gain_nonneg d b i
    have hc : 0 ≤ (c : 𝕜) * d.weight i := mul_nonneg (Nat.cast_nonneg c) (d.pos i).le
    simp only [gainFrom]
    linarith
  | x :: a, b, i, c, h => by
    have hhead : x.toNat ≤ (b.headD false).toNat + c := by simpa [hits_split b] using h 1
    obtain ⟨c', hc'⟩ := Nat.exists_eq_add_of_le hhead
    have hrest : ∀ j, hits a j ≤ hits b.tail j + c' := by
      intro j
      have hj := h (j + 1)
      rw [hits_cons, hits_split b] at hj
      omega
    have ih := gain_le_add a b.tail (i + 1) c' hrest
    -- what is still owed counts less at the next position
    have hfall : (c' : 𝕜) * d.weight (i + 1) ≤ c' * d.weight i :=
      mul_le_mul_of_nonneg_left (d.falls i).le (Nat.cast_nonneg c')
    have hcast : (b.headD false).toNat * d.weight i + c * d.weight i =
        x.toNat * d.weight i + c' * d.weight i := by
      rw [← add_mul, ← add_mul, ← Nat.cast_add, hc', Nat.cast_add]
    rw [gain_split _ i (x :: a), gain_split _ i b, List.headD_cons, List.tail_cons]
    linarith

/-- More hits at every cut, more gain. -/
theorem gain_le (h : ∀ j, hits a j ≤ hits b j) :
    gainFrom d.weight i a ≤ gainFrom d.weight i b := by
  simpa using gain_le_add (d := d) a b i 0 h

theorem hits_eq_of_length : ∀ (n : Nat) (a b : List Bool) (i : Nat), a.length ≤ n → b.length ≤ n →
    (∀ j, hits a j ≤ hits b j) → gainFrom d.weight i b ≤ gainFrom d.weight i a →
      ∀ j, hits a j = hits b j
  | 0, a, b, i, ha, hb, _, _ => by
    rw [List.length_eq_zero_iff.mp (Nat.le_zero.mp ha), List.length_eq_zero_iff.mp (Nat.le_zero.mp hb)]
    exact fun j => rfl
  | n + 1, a, b, i, ha, hb, h, hg => by
    have hhead : (a.headD false).toNat ≤ (b.headD false).toNat := by
      simpa [hits_split] using h 1
    rw [gain_split _ i a, gain_split _ i b] at hg
    rcases Nat.eq_or_lt_of_le hhead with heq | hlt
    · have hrest : ∀ j, hits a.tail j ≤ hits b.tail j := by
        intro j
        have hj := h (j + 1)
        rw [hits_split a, hits_split b] at hj
        omega
      rw [heq] at hg
      have ih := hits_eq_of_length n a.tail b.tail (i + 1) (by rw [List.length_tail]; omega)
        (by rw [List.length_tail]; omega) hrest (by linarith)
      intro j
      cases j with
      | zero => rfl
      | succ j => rw [hits_split a, hits_split b, heq, ih j]
    · -- the one hit that is missing here counts less from the next position on
      have hx : (a.headD false).toNat = 0 := by have := Bool.toNat_le (b.headD false); omega
      have hy : (b.headD false).toNat = 1 := by have := Bool.toNat_le (b.headD false); omega
      have hrest : ∀ j, hits a.tail j ≤ hits b.tail j + 1 := by
        intro j
        have hj := h (j + 1)
        rw [hits_split a, hits_split b] at hj
        omega
      have hle := gain_le_add (d := d) a.tail b.tail (i + 1) 1 hrest
      have hfall := d.falls i
      rw [hx, hy, Nat.cast_zero, Nat.cast_one] at hg
      rw [Nat.cast_one] at hle
      linarith

/-- With more hits at every cut but no more gain, there are no more hits. -/
theorem hits_eq_of_gain_le (h : ∀ j, hits a j ≤ hits b j)
    (hg : gainFrom d.weight i b ≤ gainFrom d.weight i a) (j : Nat) : hits a j = hits b j :=
  hits_eq_of_length (max a.length b.length) a b i (Nat.le_max_left ..) (Nat.le_max_right ..) h hg j

/-! ## First occurrences -/

section Firsts

variable {α : Type} [DecidableEq α] {p : α → Bool} {r : α} {seen l : List α}

/-- The first occurrences in a list of the elements not seen before it. -/
def firsts (seen : List α) : List α → List α
  | [] => []
  | x :: xs => if x ∈ seen then firsts seen xs else x :: firsts (x :: seen) xs

theorem mem_firsts : ∀ {l : List α} {seen : List α} {x : α},
    x ∈ firsts seen l ↔ x ∈ l ∧ x ∉ seen
  | [], _, _ => by simp [firsts]
  | y :: l, seen, x => by
    rw [firsts]
    by_cases hy : y ∈ seen
    · rw [if_pos hy, mem_firsts, List.mem_cons]
      constructor
      · exact fun h => ⟨Or.inr h.1, h.2⟩
      · rintro ⟨rfl | hx, hs⟩
        · exact absurd hy hs
        · exact ⟨hx, hs⟩
    · rw [if_neg hy, List.mem_cons, mem_firsts, List.mem_cons, List.mem_cons]
      by_cases hxy : x = y
      · simp [hxy, hy]
      · simp [hxy]

theorem nodup_firsts : ∀ (l seen : List α), (firsts seen l).Nodup
  | [], _ => List.nodup_nil
  | y :: l, seen => by
    rw [firsts]
    split
    · exact nodup_firsts l seen
    · rw [List.nodup_cons, mem_firsts]
      exact ⟨fun h => h.2 (List.mem_cons_self ..), nodup_firsts l (y :: seen)⟩

theorem firsts_of_nodup : ∀ {l seen : List α}, l.Nodup → (∀ x ∈ l, x ∉ seen) → firsts seen l = l
  | [], _, _, _ => rfl
  | y :: l, seen, hd, hs => by
    rw [List.nodup_cons] at hd
    rw [firsts, if_neg (hs y (List.mem_cons_self ..)), firsts_of_nodup hd.2]
    intro x hx hm
    rcases List.mem_cons.mp hm with rfl | hm
    · exact hd.1 hx
    · exact hs x (List.mem_cons_of_mem _ hx) hm

theorem firsts_congr : ∀ {l seen seen' : List α}, (∀ x, x ∈ seen ↔ x ∈ seen') →
    firsts seen l = firsts seen' l
  | [], _, _, _ => rfl
  | y :: l, seen, seen', h => by
    have hrest : firsts (y :: seen) l = firsts (y :: seen') l :=
      firsts_congr fun x => by rw [List.mem_cons, List.mem_cons, h x]
    simp only [firsts, h y, firsts_congr h, hrest]

theorem firsts_swap (x y : α) : firsts (x :: y :: seen) l = firsts (y :: x :: seen) l :=
  firsts_congr fun z => by simp only [List.mem_cons, or_left_comm]

/-- Leaving out a bad element: what is behind it moves up by one at most. -/
theorem hits_skip (hr : p r = false) : ∀ (l seen : List α) (j : Nat),
    hits ((firsts (r :: seen) l).map p) j ≤ hits ((firsts seen l).map p) (j + 1)
  | [], _, _ => by simp [firsts]
  | y :: l, seen, j => by
    by_cases hy : y ∈ seen
    · rw [firsts, firsts, if_pos hy, if_pos (List.mem_cons_of_mem _ hy)]
      exact hits_skip hr l seen j
    · rw [firsts, firsts, if_neg hy]
      by_cases hyr : y = r
      · rw [if_pos (hyr ▸ List.mem_cons_self ..), List.map_cons, hits_cons, hyr, hr]
        simp
      · rw [if_neg (by simp [hyr, hy]), List.map_cons, List.map_cons, hits_cons, firsts_swap]
        cases j with
        | zero => simp
        | succ j =>
          rw [hits_cons]
          exact Nat.add_le_add_left (hits_skip hr l (y :: seen) j) _

/-- Leaving out any element costs one hit at most. -/
theorem hits_spare : ∀ (l seen : List α) (j : Nat),
    hits ((firsts seen l).map p) (j + 1) ≤ 1 + hits ((firsts (r :: seen) l).map p) j
  | [], _, _ => by simp [firsts]
  | y :: l, seen, j => by
    by_cases hy : y ∈ seen
    · rw [firsts, firsts, if_pos hy, if_pos (List.mem_cons_of_mem _ hy)]
      exact hits_spare l seen j
    · have hle := Bool.toNat_le (p y)
      rw [firsts, firsts, if_neg hy, List.map_cons, hits_cons]
      by_cases hyr : y = r
      · rw [if_pos (hyr ▸ List.mem_cons_self ..), ← hyr]
        omega
      · rw [if_neg (by simp [hyr, hy]), List.map_cons, firsts_swap]
        cases j with
        | zero => simpa using hle
        | succ j =>
          have ih := hits_spare l (y :: seen) j
          rw [hits_cons]
          omega

/-- A good element in the place of a bad one. -/
theorem hits_replace {x : α} (hx : p x = false) (hr : p r = true) (b : List α) :
    ∀ (a seen : List α) (j : Nat),
      hits ((firsts seen (a ++ x :: b)).map p) j ≤ hits ((firsts seen (a ++ r :: b)).map p) j
  | [], seen, j => by
    have hout : hits ((firsts seen (x :: b)).map p) j ≤ hits ((firsts seen b).map p) j := by
      rw [firsts]
      split
      · exact Nat.le_refl _
      · cases j with
        | zero => simp
        | succ j =>
          rw [List.map_cons, hits_cons, hx]
          simpa using hits_skip hx b seen j
    have hin : hits ((firsts seen b).map p) j ≤ hits ((firsts seen (r :: b)).map p) j := by
      rw [firsts]
      split
      · exact Nat.le_refl _
      · cases j with
        | zero => simp
        | succ j =>
          rw [List.map_cons, hits_cons, hr]
          exact hits_spare b seen j
    exact Nat.le_trans hout hin
  | y :: a, seen, j => by
    rw [List.cons_append, List.cons_append, firsts, firsts]
    split
    · exact hits_replace hx hr b a seen j
    · cases j with
      | zero => simp
      | succ j =>
        rw [List.map_cons, List.map_cons, hits_cons, hits_cons]
        exact Nat.add_le_add_left (hits_replace hx hr b a (y :: seen) j) _

end Firsts

end Gains
