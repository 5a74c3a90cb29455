import Mathlib.Algebra.Order.BigOperators.Group.List
import Mathlib.Data.Int.Log
import Mathlib.Data.Rat.Floor
import Mathlib.Tactic.Linarith
import Mathlib.Tactic.NormNum

/-!
# Binary floating point

The numbers of the double format, as the rationals they are, and its two
infinities. An operation is its exact result, rounded to the nearest number with
53 bits and none of them below `2 ^ -1074`, half to even. The operations here
have a finite number on their right, so none of them gives what is not a number;
the sign of zero is left out.

* `ofRat_int`: integers are exact as far as `2 ^ 53`.
* `total_exact`: so are sums of natural numbers that stay below it, in any order.
* `total_ones`: a counter that goes up by one stops there.
-/

/-- To the nearest integer, half to even. -/
def roundHalfEven (q : ℚ) : Int :=
  if q - ⌊q⌋ < 1 / 2 then ⌊q⌋
  else if 1 / 2 < q - ⌊q⌋ then ⌊q⌋ + 1
  else if ⌊q⌋ % 2 = 0 then ⌊q⌋ else ⌊q⌋ + 1

theorem roundHalfEven_int (z : Int) : roundHalfEven z = z := by
  simp [roundHalfEven]

/-- The rounded number is the floor below one half, and at one half when the floor is even. -/
theorem roundHalfEven_eq_floor {q : ℚ} : roundHalfEven q = ⌊q⌋ ↔
    q - ⌊q⌋ < 1 / 2 ∨ (q - ⌊q⌋ = 1 / 2 ∧ ⌊q⌋ % 2 = 0) := by
  unfold roundHalfEven
  rcases lt_trichotomy (q - ⌊q⌋) (1 / 2) with h | h | h
  · simp only [h, if_true, true_or]
  · by_cases heven : ⌊q⌋ % 2 = 0
    · simp only [h, lt_irrefl, if_false, heven, if_true, and_self, or_true]
    · simp [h, heven]
  · rw [if_neg (not_lt.mpr h.le), if_pos h]
    constructor
    · intro he
      omega
    · rintro (hlt | ⟨he, -⟩)
      · exact absurd hlt (not_lt.mpr h.le)
      · exact absurd he h.ne'

inductive Binary64 where
  | finite (q : ℚ)
  | infinite (negative : Bool)
deriving DecidableEq

namespace Binary64

/-- The exponent of the last bit of a number of this size. -/
def lastBit (q : ℚ) : Int := max (Int.log 2 |q| - 52) (-1074)

/-- The nearest number. -/
def ofRat (q : ℚ) : Binary64 :=
  let r := (roundHalfEven (q / 2 ^ lastBit q) : ℚ) * 2 ^ lastBit q
  if |r| < 2 ^ 1024 then .finite r else .infinite (decide (q < 0))

def add : Binary64 → ℚ → Binary64
  | finite a, b => ofRat (a + b)
  | infinite negative, _ => infinite negative

/-- The product with a positive number. -/
def mul : Binary64 → ℚ → Binary64
  | finite a, b => ofRat (a * b)
  | infinite negative, _ => infinite negative

/-- To the nearest integer, which an infinity does not have. -/
def round : Binary64 → Option Int
  | finite q => some (roundHalfEven q)
  | infinite _ => none

/-- The number nearest to an integer, unless the integer is out of range. -/
def ofInt (z : Int) : Option ℚ :=
  match ofRat z with
  | finite q => some q
  | infinite _ => none

def addInt (x : Binary64) (z : Int) : Option Binary64 := (ofInt z).map x.add

/-- The sum, or the number as it is when the integer is out of range. -/
def plus (x : Binary64) (z : Int) : Binary64 := (x.addInt z).getD x

/-- The sum from left to right. -/
def total (zs : List Int) : Binary64 := zs.foldl plus (finite 0)

/-! ## Integers -/

theorem two_zpow_pos (e : Int) : (0 : ℚ) < 2 ^ e := zpow_pos (by norm_num) e

/-- A multiple of its last bit is a number. -/
theorem ofRat_multiple {q : ℚ} {m e : Int} (hq : q = m * 2 ^ e) (he : lastBit q ≤ e) (hlt : |q| < 2 ^ 1024) :
    ofRat q = .finite q := by
  obtain ⟨n, hn⟩ : ∃ n : Nat, e - lastBit q = n := Int.eq_ofNat_of_zero_le (sub_nonneg.mpr he)
  have hne : (2 : ℚ) ^ lastBit q ≠ 0 := (two_zpow_pos _).ne'
  have hscaled : q / 2 ^ lastBit q = ((m * 2 ^ n : Int) : ℚ) := by
    have hpow : (2 : ℚ) ^ e = 2 ^ n * 2 ^ lastBit q := by
      rw [← zpow_natCast, ← zpow_add₀ (by norm_num), ← hn, sub_add_cancel]
    rw [div_eq_iff hne, Int.cast_mul, Int.cast_pow, Int.cast_ofNat, mul_assoc, ← hpow]
    exact hq
  have hround : (roundHalfEven (q / 2 ^ lastBit q) : ℚ) * 2 ^ lastBit q = q := by
    rw [hscaled, roundHalfEven_int, ← hscaled, div_mul_cancel₀ _ hne]
  unfold ofRat
  dsimp only
  rw [hround, if_pos hlt]

/-- **Integers are exact** as far as `2 ^ 53`. -/
theorem ofRat_int {z : Int} (h : |z| ≤ 2 ^ 53) : ofRat z = .finite z := by
  have hcast : |(z : ℚ)| = ((|z| : Int) : ℚ) := by rw [Int.cast_abs]
  have hlt : |(z : ℚ)| < 2 ^ 1024 := by
    rw [hcast]
    refine lt_of_le_of_lt (b := 2 ^ 53) (by exact_mod_cast h) ?_
    exact pow_lt_pow_right₀ (by norm_num) (by norm_num)
  rcases h.lt_or_eq with hsmall | htop
  · refine ofRat_multiple (m := z) (e := 0) (by simp) ?_ hlt
    by_cases hz : z = 0
    · subst hz
      decide +kernel
    · have hpos : 0 < |(z : ℚ)| := abs_pos.mpr (Int.cast_ne_zero.mpr hz)
      have hlog : Int.log 2 |(z : ℚ)| < 53 := by
        rw [← Int.lt_zpow_iff_log_lt (by norm_num) hpos, hcast]
        exact_mod_cast hsmall
      exact max_le (by omega) (by norm_num)
  · have hlast : lastBit (z : ℚ) = 1 := by
      rw [lastBit, hcast, htop]
      decide +kernel
    rcases (abs_eq (by norm_num)).mp htop with rfl | rfl
    · exact ofRat_multiple (m := 1) (e := 53) (by norm_num) (hlast.trans_le (by norm_num)) hlt
    · exact ofRat_multiple (m := -1) (e := 53) (by norm_num) (hlast.trans_le (by norm_num)) hlt

theorem ofInt_eq {z : Int} (h : |z| ≤ 2 ^ 53) : ofInt z = some (z : ℚ) := by
  rw [ofInt, ofRat_int h]

theorem plus_int {a b : Int} (hb : |b| ≤ 2 ^ 53) (h : |a + b| ≤ 2 ^ 53) :
    (finite a).plus b = finite ((a + b : Int) : ℚ) := by
  rw [plus, addInt, ofInt_eq hb, Option.map_some, Option.getD_some, add, ← Int.cast_add, ofRat_int h]

theorem foldl_plus {zs : List Int} (hpos : ∀ z ∈ zs, 0 ≤ z) {a : Int} (ha : 0 ≤ a) (h : a + zs.sum ≤ 2 ^ 53) :
    zs.foldl plus (finite a) = finite ((a + zs.sum : Int) : ℚ) := by
  induction zs generalizing a with
  | nil => rw [List.foldl_nil, List.sum_nil, add_zero]
  | cons z zs ih =>
    obtain ⟨hz, hzs⟩ := List.forall_mem_cons.mp hpos
    have hrest : 0 ≤ zs.sum := List.sum_nonneg hzs
    rw [List.sum_cons, ← add_assoc] at h ⊢
    have hstep : (finite a).plus z = finite ((a + z : Int) : ℚ) :=
      plus_int (abs_le.mpr ⟨by omega, by omega⟩) (abs_le.mpr ⟨by omega, by omega⟩)
    rw [List.foldl_cons, hstep]
    exact ih hzs (by omega) h

/-- **Sums of natural numbers are exact** as far as `2 ^ 53`. -/
theorem total_exact {zs : List Int} (hpos : ∀ z ∈ zs, 0 ≤ z) (h : zs.sum ≤ 2 ^ 53) :
    total zs = finite (zs.sum : Int) := by
  have hsum := @foldl_plus zs hpos 0 le_rfl (by omega)
  rwa [zero_add, Int.cast_zero] at hsum

/-- One more than `2 ^ 53` is half way to the next number, and rounds back. -/
theorem succ_top : (finite (2 ^ 53)).plus 1 = finite (2 ^ 53) := by decide +kernel

/-- **A counter stops at `2 ^ 53`.** -/
theorem total_ones (n : Nat) : total (List.replicate n 1) = finite ((min n (2 ^ 53) : Nat) : ℚ) := by
  induction n with
  | zero => rfl
  | succ n ih =>
    rw [List.replicate_succ', total, List.foldl_append, ← total, ih, List.foldl_cons, List.foldl_nil]
    by_cases h : n < 2 ^ 53
    · have hstep : (finite ((n : Int) : ℚ)).plus 1 = finite ((n + 1 : Int) : ℚ) :=
        plus_int (by norm_num) (abs_le.mpr ⟨by omega, by omega⟩)
      rw [Nat.min_eq_left h.le, Nat.min_eq_left h, ← Int.cast_natCast n, hstep]
      norm_cast
    · rw [Nat.min_eq_right (not_lt.mp h), Nat.min_eq_right (by omega), Nat.cast_pow, Nat.cast_ofNat, succ_top]

/-- Beyond it the order of a sum matters. -/
example : total [2 ^ 53, 1, 1] = finite (2 ^ 53) ∧ total [1, 1, 2 ^ 53] = finite (2 ^ 53 + 2) := by decide +kernel

/-- One tenth is not a number of the format, and what is too large becomes infinite. -/
example : ofRat (1 / 10) = finite (3602879701896397 / 2 ^ 55) ∧ ofRat (10 ^ 400) = infinite false := by decide +kernel

end Binary64
