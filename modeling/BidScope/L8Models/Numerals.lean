import Mathlib.Algebra.Order.Field.Rat
import Mathlib.Data.List.TakeWhile
import Mathlib.Tactic.Positivity
import Mathlib.Tactic.Ring
import BidScope.Core.Regex
import BidScope.L3Runs.Stream

/-!
# Numerals in a text

The three patterns that read money (`snapshots/_parse.py`, `llm/fake.py`,
`evidence/fake_verifier.py`) begin with the same numeral, `d+(?:\.d+)?`, over
the digits of ASCII or of every script. `float` of it is taken without rounding.

* `takes_numeral`: the numeral is matched whole, with anything behind it that
  is neither a digit nor a point.
* `leaves_numeral`: a shorter match leaves a digit or the point.
* `floatOf_chars`: and `float` of the match is its value.
-/
namespace BidScope.L8

open BidScope.L1 Regex
open BidScope.L3 (decimal decimalZeros)

/-! ## Digits -/

/-- `\d` -/
def isDecimal (c : Char) : Bool := (decimal c).isSome

/-- A class of digits. -/
def Digits (d : Char → Bool) : Prop := ∀ c, d c = true → isDecimal c = true

theorem exists_zero {c : Char} (h : isDecimal c = true) :
    ∃ z ∈ decimalZeros, ∃ k < 10, c.toNat = z + k := by
  simp only [isDecimal, decimal, Option.isSome_map, List.find?_isSome, Bool.and_eq_true,
    decide_eq_true_eq] at h
  obtain ⟨z, hz, hlo, hhi⟩ := h
  exact ⟨z, hz, c.toNat - z, by omega, by omega⟩

theorem zeros_not_space : ∀ z ∈ decimalZeros, ∀ k < 10, isSpace (Char.ofNat (z + k)) = false := by
  decide +kernel

theorem not_isSpace_of_isDecimal {c : Char} (h : isDecimal c = true) : isSpace c = false := by
  obtain ⟨z, hz, k, hk, hc⟩ := exists_zero h
  have hspace := zeros_not_space z hz k hk
  rwa [← hc, Char.ofNat_toNat] at hspace

theorem digits_isDecimal : Digits isDecimal := fun _ h => h

/-- `[0-9]` -/
theorem digits_isDigit : Digits Char.isDigit := fun c h => by
  rw [isDecimal, L3.decimal_of_isDigit h]
  rfl

/-- A character that is no digit of any script stops a numeral. -/
theorem Digits.stop {d : Char → Bool} (hd : Digits d) {c : Char} (hc : isDecimal c = false) :
    d c = false := by
  cases h : d c with
  | false => rfl
  | true => exact absurd (hd c h) (by rw [hc]; exact Bool.false_ne_true)

theorem Digits.not_isSpace {d : Char → Bool} (hd : Digits d) {c : Char} (hc : d c = true) :
    isSpace c = false := not_isSpace_of_isDecimal (hd c hc)

/-! ## Values -/

/-- The value of a word of digits. -/
def natOf (cs : List Char) : Nat := cs.foldl (fun n c => 10 * n + (decimal c).getD 0) 0

/-- `float` of a matched numeral, exact. -/
def floatOf (cs : List Char) : ℚ :=
  let frac := (cs.dropWhile (· != '.')).drop 1
  natOf (cs.takeWhile (· != '.')) + natOf frac / 10 ^ frac.length

theorem foldl_digits (f : Char → Nat) (ys : List Char) : ∀ n,
    ys.foldl (fun n c => 10 * n + f c) n = n * 10 ^ ys.length + ys.foldl (fun n c => 10 * n + f c) 0 := by
  induction ys with
  | nil => intro n; simp
  | cons y ys ih =>
    intro n
    rw [List.foldl_cons, List.foldl_cons, ih (10 * n + f y), ih (10 * 0 + f y), List.length_cons]
    ring

theorem natOf_append (xs ys : List Char) :
    natOf (xs ++ ys) = natOf xs * 10 ^ ys.length + natOf ys := by
  rw [natOf, List.foldl_append, foldl_digits _ ys]
  rfl

/-- A numeral: digits, and digits behind the point when there is one. -/
structure Numeral (d : Char → Bool) where
  whole : List Char
  frac : List Char
  wholeNonempty : whole ≠ []
  wholeDigits : ∀ c ∈ whole, d c = true
  fracDigits : ∀ c ∈ frac, d c = true

variable {d : Char → Bool}

/-- The point and the digits behind it. -/
def fraction (frac : List Char) : List Char := if frac = [] then [] else '.' :: frac

namespace Numeral

def chars (n : Numeral d) : List Char := n.whole ++ fraction n.frac

/-- What the numeral says. -/
def value (n : Numeral d) : ℚ := natOf n.whole + natOf n.frac / 10 ^ n.frac.length

theorem chars_ne_nil (n : Numeral d) : n.chars ≠ [] :=
  List.append_ne_nil_of_left_ne_nil n.wholeNonempty _

theorem mem_chars (n : Numeral d) {c : Char} (h : c ∈ n.chars) : d c = true ∨ c = '.' := by
  unfold chars fraction at h
  rcases List.mem_append.mp h with h | h
  · exact .inl (n.wholeDigits c h)
  · split at h
    · cases h
    · exact (List.mem_cons.mp h).symm.imp (n.fracDigits c) id

theorem value_nonneg (n : Numeral d) : 0 ≤ n.value := by
  unfold value
  positivity

end Numeral

theorem not_point (hd : Digits d) {cs : List Char} (h : ∀ c ∈ cs, d c = true) :
    ∀ c ∈ cs, (c != '.') = true := by
  intro c hc
  rw [bne_iff_ne]
  rintro rfl
  exact absurd (hd '.' (h '.' hc)) (by decide)

theorem floatOf_chars (hd : Digits d) (n : Numeral d) : floatOf n.chars = n.value := by
  have hpoint := not_point hd n.wholeDigits
  have htake : n.chars.takeWhile (· != '.') = n.whole := by
    unfold Numeral.chars fraction
    split
    · rw [List.append_nil]
      exact List.takeWhile_eq_self_iff.mpr hpoint
    · rw [List.takeWhile_append_of_pos hpoint, List.takeWhile_cons_of_neg (by decide), List.append_nil]
  have hdrop : (n.chars.dropWhile (· != '.')).drop 1 = n.frac := by
    unfold Numeral.chars fraction
    rw [List.dropWhile_append_of_pos hpoint]
    split
    · next hf => rw [hf]; rfl
    · rfl
  simp only [floatOf, htake, hdrop, Numeral.value]

/-! ## The pattern -/

/-- `d+(?:\.d+)?` -/
def numeralRe (d : Char → Bool) : Re Char := .some d ++ .opt (.sym (· == '.') ++ .some d)

theorem fails_numeral {s : List Char} (h : Stops d s) : Fails (numeralRe d) s :=
  fails_seq_left (fails_some h)

/-- Nothing behind the numeral belongs to it. -/
def Ends (n : Numeral d) (t : List Char) : Prop :=
  Stops d t ∧ (n.frac = [] → Fails (.sym (· == '.') ++ .some d) t)

theorem ends_of_stops {n : Numeral d} {t : List Char} (h : Stops d t) (hp : Stops (· == '.') t) :
    Ends n t := ⟨h, fun _ => fails_seq_left (fails_sym hp)⟩

theorem takes_numeral (hd : Digits d) {n : Numeral d} {t : List Char} (h : Ends n t) :
    Takes (numeralRe d) (n.chars ++ t) [] t := by
  unfold Numeral.chars fraction
  split
  · next hf =>
    rw [List.append_nil]
    exact takes_seq (takes_some n.wholeNonempty n.wholeDigits h.1) (takes_opt_none (h.2 hf))
  · next hf =>
    rw [List.append_assoc]
    exact takes_seq (takes_some n.wholeNonempty n.wholeDigits (stops_cons.mpr (hd.stop (by decide))))
      (takes_opt (takes_seq (takes_sym (by decide)) (takes_some hf n.fracDigits h.1)))

theorem leaves_numeral (hd : Digits d) {n : Numeral d} {t : List Char} (h : Ends n t) :
    Leaves (numeralRe d) (n.chars ++ t) fun u =>
      u = t ∨ ∃ c v, u = c :: v ∧ (d c = true ∨ c = '.') := by
  have hdigit : ∀ c v, d c = true → Leaves (.opt (.sym (· == '.') ++ .some d)) (c :: v) fun u =>
      u = t ∨ ∃ c v, u = c :: v ∧ (d c = true ∨ c = '.') := by
    intro c v hc
    have hpoint : c ≠ '.' := by
      rintro rfl
      exact absurd (hd '.' hc) (by decide)
    refine leaves_opt (leaves_of_fails (fails_seq_left (fails_sym ?_))) (Or.inr ⟨c, v, rfl, Or.inl hc⟩)
    rw [stops_cons, beq_eq_false_iff_ne]
    exact hpoint
  unfold Numeral.chars fraction
  split
  · next hf =>
    rw [List.append_nil]
    refine leaves_seq (leaves_some n.wholeDigits h.1) ?_
    rintro u (rfl | ⟨c, v, rfl, hc⟩)
    · exact leaves_opt (leaves_of_fails (h.2 hf)) (Or.inl rfl)
    · exact hdigit c v hc
  · rw [List.append_assoc]
    refine leaves_seq (leaves_some n.wholeDigits (stops_cons.mpr (hd.stop (by decide)))) ?_
    rintro u (rfl | ⟨c, v, rfl, hc⟩)
    · refine leaves_opt (leaves_seq leaves_sym ?_) (Or.inr ⟨'.', _, rfl, Or.inr rfl⟩)
      rintro u ⟨c, -, hu⟩
      obtain ⟨-, rfl⟩ := List.cons.inj hu
      exact (leaves_some n.fracDigits h.1).imp fun u hu => hu.imp id fun ⟨c, v, hu, hc⟩ =>
        ⟨c, v, hu, Or.inl hc⟩
    · exact hdigit c v hc

theorem fails_fraction {s : List Char} :
    Fails (.sym (· == '.') ++ .some d) ('.' :: s) ↔ Stops d s := by
  constructor
  · intro h
    cases s with
    | nil => exact stops_nil
    | cons c s =>
      rw [stops_cons]
      cases hc : d c with
      | false => rfl
      | true =>
        have htake := takes_seq (takes_sym (p := (· == '.')) (c := '.') (s := c :: s) (by decide))
          (takes_seq (takes_sym hc) (takes_many_dropWhile (p := d)))
        have hnone : run (.sym (· == '.') ++ .some d) ('.' :: c :: s) = [] := h
        have hsome : (run (.sym (· == '.') ++ .some d) ('.' :: c :: s)).head? = _ := htake
        rw [hnone] at hsome
        cases hsome
  · intro h
    refine fails_seq fun m hm => ?_
    obtain ⟨c, -, hs⟩ := leaves_sym m hm
    obtain ⟨-, hs⟩ := List.cons.inj hs
    exact hs ▸ fails_some h

/-- Text behind a number stays so with more text behind it, unless it ends in a
digit or a point. -/
theorem ends_append {n : Numeral d} {t u : List Char} (h : Ends n t) (hne : t ≠ [])
    (hlast : ∀ c ∈ t.getLast?, c ≠ '.') : Ends n (t ++ u) := by
  cases t with
  | nil => exact absurd rfl hne
  | cons c t =>
    refine ⟨stops_cons.mpr (stops_cons.mp h.1), fun hf => ?_⟩
    by_cases hc : c = '.'
    · subst hc
      cases t with
      | nil => exact absurd rfl (hlast '.' rfl)
      | cons d t =>
        rw [List.cons_append, fails_fraction, List.cons_append, stops_cons]
        exact stops_cons.mp (fails_fraction.mp (h.2 hf))
    · exact fails_seq_left (fails_sym (stops_cons.mpr (beq_eq_false_iff_ne.mpr hc)))

/-! ## The ends of a numeral -/

theorem Numeral.head_chars (n : Numeral d) (t : List Char) :
    ∃ c s, n.chars ++ t = c :: s ∧ d c = true := by
  cases hw : n.whole with
  | nil => exact absurd hw n.wholeNonempty
  | cons c s =>
    refine ⟨c, s ++ fraction n.frac ++ t, ?_, n.wholeDigits c (by rw [hw]; exact List.mem_cons_self ..)⟩
    rw [Numeral.chars, hw, List.cons_append, List.cons_append]

theorem Numeral.stops_space (hd : Digits d) (n : Numeral d) (t : List Char) :
    Stops isSpace (n.chars ++ t) := by
  obtain ⟨c, s, hs, hc⟩ := n.head_chars t
  rw [hs, stops_cons]
  exact hd.not_isSpace hc

theorem getLast_fraction {whole frac : List Char} (hwhole : ∀ c ∈ whole, d c = true)
    (hfrac : ∀ c ∈ frac, d c = true) : ∀ c ∈ (whole ++ fraction frac).getLast?, d c = true := by
  intro c hc
  cases frac with
  | nil =>
    rw [fraction, if_pos rfl, List.append_nil] at hc
    exact hwhole c (List.mem_of_getLast? hc)
  | cons f frac =>
    rw [fraction, if_neg (List.cons_ne_nil f frac), List.getLast?_append, List.getLast?_cons_cons,
      List.getLast?_cons, Option.some_or, ← List.getLast?_cons] at hc
    exact hfrac c (List.mem_of_getLast? hc)

theorem Numeral.last_digit (n : Numeral d) : ∀ c ∈ n.chars.getLast?, d c = true :=
  getLast_fraction n.wholeDigits n.fracDigits

theorem takeWhile_ne_nil {s : List Char} (h : ¬ Stops d s) : s.takeWhile d ≠ [] := by
  cases s with
  | nil => exact absurd stops_nil h
  | cons c s =>
    have hc : d c = true := by rwa [stops_cons, Bool.not_eq_false] at h
    rw [List.takeWhile_cons_of_pos hc]
    exact List.cons_ne_nil c _

theorem mem_takeWhile_digit {s : List Char} : ∀ c ∈ s.takeWhile d, d c = true :=
  List.all_eq_true.mp List.all_takeWhile

/-- A text that begins with a digit begins with a number. -/
theorem exists_numeral_head {s : List Char} (h : ¬ Stops d s) :
    ∃ (t : List Char) (n : Numeral d), s = n.chars ++ t ∧ Ends n t := by
  have hs : s.takeWhile d ++ s.dropWhile d = s := List.takeWhile_append_dropWhile
  by_cases hfrac : Fails (.sym (· == '.') ++ .some d) (s.dropWhile d)
  · refine ⟨s.dropWhile d, ⟨s.takeWhile d, [], takeWhile_ne_nil h, mem_takeWhile_digit, nofun⟩, ?_,
      stops_dropWhile, fun _ => hfrac⟩
    rw [Numeral.chars, fraction, if_pos rfl, List.append_nil, hs]
  · cases hd : s.dropWhile d with
    | nil => exact absurd (by rw [hd]; exact fails_seq_left (fails_sym stops_nil)) hfrac
    | cons c u =>
      rw [hd] at hfrac hs
      by_cases hc : c = '.'
      · subst hc
        have hu := mt fails_fraction.mpr hfrac
        refine ⟨u.dropWhile d, ⟨s.takeWhile d, u.takeWhile d, takeWhile_ne_nil h, mem_takeWhile_digit,
          mem_takeWhile_digit⟩, ?_, stops_dropWhile, fun hf => absurd hf (takeWhile_ne_nil hu)⟩
        rw [Numeral.chars, fraction, if_neg (takeWhile_ne_nil hu), List.append_assoc, List.cons_append,
          List.takeWhile_append_dropWhile, hs]
      · exact absurd (fails_seq_left (fails_sym (stops_cons.mpr (beq_eq_false_iff_ne.mpr hc)))) hfrac

/-- A text with a digit has a first number. -/
theorem exists_numeral {cs : List Char} (h : ∃ c ∈ cs, d c = true) :
    ∃ (start t : List Char) (n : Numeral d), cs = start ++ (n.chars ++ t) ∧
      (∀ c ∈ start, d c = false) ∧ Ends n t := by
  have hcs : cs.takeWhile (fun c => !d c) ++ cs.dropWhile (fun c => !d c) = cs :=
    List.takeWhile_append_dropWhile
  have hstart : ∀ c ∈ cs.takeWhile (fun c => !d c), d c = false := fun c hc =>
    Bool.not_eq_true' (d c) ▸ mem_takeWhile_digit (d := fun c => !d c) c hc
  have hrest : ¬ Stops d (cs.dropWhile fun c => !d c) := by
    intro hstop
    obtain ⟨c, hc, hdc⟩ := h
    have hnone : ∀ c ∈ (cs.dropWhile fun c => !d c).head?, False := fun c hc => by
      have hnot : (!d c) = false := stops_dropWhile (p := fun c => !d c) c hc
      rw [hstop c hc] at hnot
      cases hnot
    cases hd : cs.dropWhile (fun c => !d c) with
    | nil =>
      rw [hd, List.append_nil] at hcs
      rw [← hcs] at hc
      rw [hstart c hc] at hdc
      cases hdc
    | cons x xs => exact hnone x (by rw [hd]; rfl)
  obtain ⟨t, n, hs, hends⟩ := exists_numeral_head hrest
  exact ⟨_, t, n, by rw [← hs, hcs], hstart, hends⟩

end BidScope.L8
