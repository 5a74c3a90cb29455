import BidScope.Core.Binary64
import BidScope.L8Models.Numerals

/-!
# The two parsers of money

`parse_money` (`snapshots/_parse.py`) reads a notice's printed budget,
`_parse_budget_to_fen` (`llm/fake.py`) the bound in a user's request. One rounds
to the fen, half to even, the other truncates. `parse_money` is written for any
`Arithmetic`, as the callers compute in floats; the results here are on exact
numbers.

* `parseMoney_at`: `parse_money` reads the first number of the text, and the
  unit behind it.
* `money_exact_iff`: a rendering of an amount is read as that amount exactly
  when the number is not grouped and no digit stands before it, or the label
  before it happens to say the amount itself.
* `parsers_agree_iff`: the parsers agree on a numeral exactly when its fraction
  of a fen is below one half, or is one half behind an even number of fen.
-/
namespace BidScope.L8

open BidScope.L1 Regex

/-! ## Numbers -/

/-- What a parser computes with: `float` of a numeral, `*` by a positive number,
and `round`, where `none` is an `OverflowError`. -/
structure Arithmetic (ν : Type) where
  float : ℚ → ν
  times : ν → ℚ → ν
  round : ν → Option Int

def exact : Arithmetic ℚ := ⟨id, (· * ·), fun q => some (roundHalfEven q)⟩

/-- As Python computes. -/
def doubles : Arithmetic Binary64 := ⟨.ofRat, .mul, Binary64.round⟩

/-- `int` of a number: towards zero. -/
def truncate (q : ℚ) : Int := if 0 ≤ q then ⌊q⌋ else ⌈q⌉

theorem truncate_nonneg {q : ℚ} (h : 0 ≤ q) : truncate q = ⌊q⌋ := if_pos h

/-! ## `parse_money` -/

/-- `万|亿` -/
def largeUnitRe : Re Char := .alt (.sym (· == '万')) (.sym (· == '亿'))

/-- mirrors snapshots/_parse.py:109 -/
def currencyRe : Re Char :=
  .group 1 (numeralRe Char.isDigit) ++ .many isSpace ++ .opt (.group 2 largeUnitRe) ++
    .many isSpace ++ .opt (.sym (· == '元'))

/-- `none` is an `OverflowError`. mirrors snapshots/_parse.py:112-139 -/
def parseMoneyIn {ν : Type} (A : Arithmetic ν) (raw : Option String) : Option (Option Money) :=
  match raw with
  | none => some none
  | some raw =>
    let text := strip raw
    if text = "" then some none
    else
      match search currencyRe text.toList with
      | none => some none
      | some (groups, _) =>
        let value := A.float (floatOf ((groups.get 1).getD []))
        let unit := groups.get 2
        let yuan :=
          if unit = some ['万'] then A.times value 10000
          else if unit = some ['亿'] then A.times value 100000000
          else value
        (A.round (A.times yuan 100)).map fun minorUnits => some ⟨minorUnits, "CNY", some text⟩

/-- With exact numbers. -/
def parseMoney (raw : Option String) : Option Money := (parseMoneyIn exact raw).join

/-! ## `_parse_budget_to_fen` -/

def FEN_PER_YUAN : ℚ := 100
def FEN_PER_WAN : ℚ := 10000 * FEN_PER_YUAN
def FEN_PER_YI : ℚ := 100000000 * FEN_PER_YUAN

/-- mirrors llm/fake.py:151-157 -/
def parseBudgetToFen (amountText unit : List Char) : Int :=
  let amount := floatOf amountText
  if unit = ['亿'] then truncate (amount * FEN_PER_YI)
  else if unit = ['万'] then truncate (amount * FEN_PER_WAN)
  else truncate (amount * FEN_PER_YUAN)

/-- `(\d+(?:\.\d+)?)\s*(万|亿|元)\s*元?\s*以?` and the last character; group 0 is the match. -/
def boundRe (last : Char) : Re Char :=
  .group 0 (.group 1 (numeralRe isDecimal) ++ .many isSpace ++
    .group 2 (.alt largeUnitRe (.sym (· == '元'))) ++ .many isSpace ++ .opt (.sym (· == '元')) ++
    .many isSpace ++ .opt (.sym (· == '以')) ++ .sym (· == last))

def extractBudget (last : Char) (request : String) : Option Money :=
  match search (boundRe last) request.toList with
  | none => none
  | some (groups, _) =>
    some ⟨parseBudgetToFen ((groups.get 1).getD []) ((groups.get 2).getD []), "CNY",
      (groups.get 0).map String.ofList⟩

/-- mirrors llm/fake.py:159-167 -/
def extractMinBudget (request : String) : Option Money := extractBudget '上' request

/-- mirrors llm/fake.py:169-177 -/
def extractMaxBudget (request : String) : Option Money := extractBudget '下' request

/-! ## The first number of a text -/

/-- The unit `parse_money` finds behind a number. -/
def unitAt (t : List Char) : Option Char :=
  (t.dropWhile isSpace).head?.filter fun c => c == '万' || c == '亿'

/-- The number of yuan in one of the unit. -/
def scale : Option Char → ℚ
  | some c => if c = '万' then 10000 else if c = '亿' then 100000000 else 1
  | none => 1

theorem takes_largeUnit {c : Char} {t : List Char} (h : (c == '万' || c == '亿') = true) :
    Takes (.group 2 largeUnitRe) (c :: t) [(2, [c])] t := by
  have hunit : Takes largeUnitRe ([c] ++ t) [] t := by
    rcases Bool.or_eq_true _ _ ▸ h with hc | hc
    · exact takes_alt_left (takes_sym hc)
    · by_cases hwan : (c == '万') = true
      · exact takes_alt_left (takes_sym hwan)
      · exact takes_alt_right (fails_sym (stops_cons.mpr (Bool.eq_false_iff.mpr hwan))) (takes_sym hc)
  exact takes_group hunit

theorem fails_largeUnit {s : List Char} (h : Stops (fun c => c == '万' || c == '亿') s) :
    Fails largeUnitRe s := by
  have hc : ∀ c ∈ s.head?, (c == '万') = false ∧ (c == '亿') = false := fun c hc =>
    Bool.or_eq_false_iff.mp (h c hc)
  exact fails_alt (fails_sym fun c hs => (hc c hs).1) (fails_sym fun c hs => (hc c hs).2)

theorem takes_opt_unit (s : List Char) : ∃ t, Takes (.opt (.group 2 largeUnitRe)) s
    ((s.head?.filter fun c => c == '万' || c == '亿').map fun c => (2, [c])).toList t := by
  cases s with
  | nil => exact ⟨[], takes_opt_none (fails_group (fails_largeUnit stops_nil))⟩
  | cons c s =>
    rw [List.head?_cons]
    cases hc : (c == '万' || c == '亿') with
    | true =>
      rw [Option.filter_some_pos (p := fun c => c == '万' || c == '亿') hc]
      exact ⟨s, takes_opt (takes_largeUnit hc)⟩
    | false =>
      rw [Option.filter_some_neg (p := fun c => c == '万' || c == '亿') hc]
      exact ⟨c :: s, takes_opt_none (fails_group (fails_largeUnit (stops_cons.mpr hc)))⟩

/-- At a number, the pattern takes the numeral and the unit behind it. -/
theorem takes_currency {n : Numeral Char.isDigit} {t : List Char} (h : Ends n t) :
    ∃ rest, Takes currencyRe (n.chars ++ t)
      ((1, n.chars) :: ((unitAt t).map fun c => (2, [c])).toList) rest := by
  obtain ⟨t₁, h₁⟩ := takes_opt_unit (t.dropWhile isSpace)
  obtain ⟨t₂, h₂, -⟩ := takes_opt_sym (· == '元') (t₁.dropWhile isSpace)
  have htake := takes_seq (takes_seq (takes_seq (takes_seq
    (takes_group (n := 1) (takes_numeral digits_isDigit h)) takes_many_dropWhile) h₁)
    takes_many_dropWhile) h₂
  refine ⟨t₂, ?_⟩
  simpa only [List.append_nil, List.cons_append, List.nil_append, unitAt, currencyRe] using htake

theorem fails_currency (c : Char) (s : List Char) (h : c.isDigit = false) : Fails currencyRe (c :: s) :=
  fails_seq_left (fails_seq_left (fails_seq_left (fails_seq_left
    (fails_group (fails_numeral (stops_cons.mpr h))))))

theorem groups_number (cs : List Char) (unit : Option Char) :
    Groups.get ((1, cs) :: (unit.map fun c => (2, [c])).toList) 1 = some cs := rfl

theorem groups_unit (cs : List Char) (unit : Option Char) :
    Groups.get ((1, cs) :: (unit.map fun c => (2, [c])).toList) 2 = unit.map fun c => [c] := by
  cases unit <;> rfl

theorem yuan_eq (value : ℚ) (unit : Option Char) :
    (if (unit.map fun c => [c]) = some ['万'] then value * 10000
      else if (unit.map fun c => [c]) = some ['亿'] then value * 100000000 else value) =
        value * scale unit := by
  cases unit with
  | none => simp [scale]
  | some c =>
    simp only [Option.map_some, Option.some.injEq, List.cons.injEq, and_true, scale]
    split
    · rfl
    · split
      · rfl
      · rw [mul_one]

/-- **`parse_money`** reads the first number of the text, in the unit behind it. -/
theorem parseMoney_at {raw : String} {start t : List Char} {n : Numeral Char.isDigit}
    (hraw : (strip raw).toList = start ++ (n.chars ++ t)) (hstart : ∀ c ∈ start, c.isDigit = false)
    (h : Ends n t) : parseMoney (some raw) =
      some ⟨roundHalfEven (n.value * scale (unitAt t) * 100), "CNY", some (strip raw)⟩ := by
  have hne : strip raw ≠ "" := by
    intro he
    rw [he] at hraw
    exact n.chars_ne_nil (List.append_eq_nil_iff.mp (List.append_eq_nil_iff.mp hraw.symm).2).1
  obtain ⟨rest, htake⟩ := takes_currency h
  have hsearch : search currencyRe (strip raw).toList =
      some ((1, n.chars) :: ((unitAt t).map fun c => (2, [c])).toList, rest) := by
    rw [hraw, search_skip (passes_of_stops fails_currency hstart), search_takes htake]
  simp only [parseMoney, parseMoneyIn, exact, if_neg hne, hsearch, groups_number, Option.getD_some, id_eq,
    floatOf_chars digits_isDigit, groups_unit, yuan_eq, Option.map_some, Option.join_some]

/-! ## Renderings of an amount -/

inductive MoneyUnit where
  | yuan | wan | yi
  deriving DecidableEq, Repr

namespace MoneyUnit

/-- The number of fen in one of the unit. -/
def fen : MoneyUnit → ℚ
  | .yuan => 100
  | .wan => 1000000
  | .yi => 10000000000

/-- How the unit is printed; a number of yuan may stand without one. -/
def words : MoneyUnit → List (List Char)
  | .yuan => [[], ['元']]
  | .wan => [['万'], ['万', '元']]
  | .yi => [['亿'], ['亿', '元']]

end MoneyUnit

/-- A unit as it is printed behind a number. -/
structure PrintedUnit where
  gap : List Char := []
  unit : MoneyUnit
  word : List Char
  gapSpaces : ∀ c ∈ gap, isSpace c = true
  wordPrinted : word ∈ unit.words
  gapBeforeWord : word = [] → gap = []

def PrintedUnit.chars (p : PrintedUnit) : List Char := p.gap ++ p.word

/-- A number as it is printed: digits, possibly grouped by commas, and a fraction. -/
structure Figures where
  first : List Char
  /-- the groups of three digits behind the commas -/
  groups : List (List Char) := []
  frac : List Char := []
  firstNonempty : first ≠ []
  firstDigits : ∀ c ∈ first, c.isDigit = true
  groupDigits : ∀ g ∈ groups, g.length = 3 ∧ ∀ c ∈ g, c.isDigit = true
  leading : groups ≠ [] → 0 < natOf first
  fracDigits : ∀ c ∈ frac, c.isDigit = true

namespace Figures

def chars (f : Figures) : List Char := f.first ++ (f.groups.flatMap fun g => ',' :: g) ++ fraction f.frac

def value (f : Figures) : ℚ := natOf (f.first ++ f.groups.flatten) + natOf f.frac / 10 ^ f.frac.length

theorem leadingDigits (f : Figures) :
    ∀ c ∈ if f.groups = [] then f.frac else [], c.isDigit = true := by
  split
  · exact f.fracDigits
  · nofun

/-- The part of the number up to the first comma. -/
def leadingNumeral (f : Figures) : Numeral Char.isDigit where
  whole := f.first
  frac := if f.groups = [] then f.frac else []
  wholeNonempty := f.firstNonempty
  wholeDigits := f.firstDigits
  fracDigits := f.leadingDigits

/-- What stands behind it. -/
def behind (f : Figures) : List Char :=
  if f.groups = [] then [] else (f.groups.flatMap fun g => ',' :: g) ++ fraction f.frac

theorem chars_eq (f : Figures) : f.chars = f.leadingNumeral.chars ++ f.behind := by
  unfold chars leadingNumeral behind Numeral.chars
  by_cases h : f.groups = []
  · simp [h]
  · simp only [h, if_false, fraction, if_true, List.append_nil, List.append_assoc]

end Figures

/-- A printed amount: an optional label, the number, and the unit. -/
structure Rendering where
  label : List Char := []
  figures : Figures
  printed : PrintedUnit
  /-- the amount in fen -/
  amount : Int
  exactly : figures.value * printed.unit.fen = amount
  /-- the number is not the continuation of one in the label -/
  labelEnds : ∀ c ∈ label.getLast?, c.isDigit = false ∧ c ≠ '.'

namespace Rendering

/-- The number with its unit. -/
def number (r : Rendering) : List Char := r.figures.chars ++ r.printed.chars

def text (r : Rendering) : String := .ofList (r.label ++ r.number)

/-- The label has a number, and the first one it has is the amount. -/
def LabelSays (r : Rendering) : Prop :=
  ∃ (start t : List Char) (n : Numeral Char.isDigit), r.label = start ++ (n.chars ++ t) ∧
    (∀ c ∈ start, c.isDigit = false) ∧ Ends n t ∧
    roundHalfEven (n.value * scale (unitAt t) * 100) = r.amount

end Rendering

/-! ### White space -/

theorem dropWhile_append_stop {p : Char → Bool} {l r : List Char} (h : Stops p r) :
    (l ++ r).dropWhile p = l.dropWhile p ++ r := by
  rw [List.dropWhile_append]
  split
  · next hl =>
    rw [List.isEmpty_iff.mp hl, List.nil_append]
    cases r with
    | nil => rfl
    | cons c r => exact List.dropWhile_cons_of_neg (Bool.eq_false_iff.mp (stops_cons.mp h))
  · rfl

theorem toList_strip_append {l r : List Char} (hr : Stops isSpace r) (hlast : Stops isSpace r.reverse)
    (hne : r ≠ []) : (strip (.ofList (l ++ r))).toList = l.dropWhile isSpace ++ r := by
  have hlast' : Stops isSpace (r.reverse ++ (l.dropWhile isSpace).reverse) := by
    cases hrev : r.reverse with
    | nil => exact absurd (List.reverse_eq_nil_iff.mp hrev) hne
    | cons c t =>
      rw [hrev] at hlast
      exact hlast
  have hid := dropWhile_append_stop (l := []) hlast'
  rw [List.nil_append, List.dropWhile_nil, List.nil_append] at hid
  rw [strip, String.toList_ofList, String.toList_ofList, dropWhile_append_stop hr,
    List.reverse_append, hid, List.reverse_append, List.reverse_reverse, List.reverse_reverse]

/-! ### The unit of a rendering -/

theorem mem_word {u : MoneyUnit} (w : List Char) (hw : w ∈ u.words) :
    ∀ c ∈ w, c = '元' ∨ c = '万' ∨ c = '亿' := by
  have hall : ∀ w ∈ u.words, w.all (fun c => decide (c = '元' ∨ c = '万' ∨ c = '亿')) = true := by
    cases u <;> decide
  exact Text.forall_of_all (hall w hw)

/-- The unit is neither white space nor part of a number. -/
theorem word_stops {p : Char → Bool} {u : MoneyUnit} {w : List Char} (hw : w ∈ u.words)
    (hp : p '元' = false ∧ p '万' = false ∧ p '亿' = false) : Stops p w := by
  intro c hc
  rcases mem_word w hw c (List.mem_of_mem_head? hc) with rfl | rfl | rfl
  · exact hp.1
  · exact hp.2.1
  · exact hp.2.2

theorem Digits.not_space {d : Char → Bool} (hd : Digits d) {c : Char} (h : isSpace c = true) :
    d c = false := by
  cases hc : d c with
  | false => rfl
  | true =>
    rw [hd.not_isSpace hc] at h
    cases h

theorem not_point_of_space {c : Char} (h : isSpace c = true) : (c == '.') = false := by
  rw [beq_eq_false_iff_ne]
  rintro rfl
  exact absurd h (by decide)

namespace PrintedUnit

variable (p : PrintedUnit)

theorem stops {q : Char → Bool} (hspace : ∀ c, isSpace c = true → q c = false)
    (hq : q '元' = false ∧ q '万' = false ∧ q '亿' = false) : Stops q p.chars := by
  unfold chars
  cases hg : p.gap with
  | nil => exact word_stops p.wordPrinted hq
  | cons c gap =>
    rw [List.cons_append, stops_cons]
    exact hspace c (p.gapSpaces c (by rw [hg]; exact List.mem_cons_self ..))

/-- A number ends before its unit. -/
theorem ends {d : Char → Bool} (hd : Digits d) (n : Numeral d) : Ends n p.chars :=
  ends_of_stops (p.stops (fun _ => hd.not_space) ⟨hd.stop (by decide), hd.stop (by decide),
    hd.stop (by decide)⟩) (p.stops (fun _ => not_point_of_space) (by decide))

theorem ends_text {d : Char → Bool} (hd : Digits d) (n : Numeral d) (hne : p.word ≠ [])
    (t : List Char) : Ends n (p.chars ++ t) := by
  refine ends_append (p.ends hd n) (List.append_ne_nil_of_right_ne_nil _ hne) fun c hc => ?_
  cases hw : p.word with
  | nil => exact absurd hw hne
  | cons w ws =>
    rw [chars, List.getLast?_append, hw, List.getLast?_cons, Option.some_or, ← List.getLast?_cons,
      ← hw] at hc
    rcases mem_word p.word p.wordPrinted c (List.mem_of_getLast? hc) with rfl | rfl | rfl <;> decide

theorem unitAt_chars : scale (unitAt p.chars) * 100 = p.unit.fen := by
  have hdrop : p.chars.dropWhile isSpace = p.word := by
    have hstop := dropWhile_append_stop (l := []) (word_stops (p := isSpace) p.wordPrinted (by decide))
    rw [List.nil_append, List.dropWhile_nil, List.nil_append] at hstop
    rw [chars, List.dropWhile_append_of_pos p.gapSpaces, hstop]
  rw [unitAt, hdrop]
  have hword := p.wordPrinted
  cases hu : p.unit <;> rw [hu] at hword <;>
    simp only [MoneyUnit.words, List.mem_cons, List.not_mem_nil, or_false] at hword <;>
    rcases hword with hw | hw <;> rw [hw] <;>
    norm_num +decide [scale, MoneyUnit.fen, Option.filter]

theorem last_stops {cs : List Char} (hcs : ∀ c ∈ cs.getLast?, isSpace c = false) :
    Stops isSpace (cs ++ p.chars).reverse := by
  intro c hc
  rw [List.head?_reverse, chars] at hc
  cases hw : p.word with
  | nil =>
    rw [hw, p.gapBeforeWord hw, List.append_nil, List.append_nil] at hc
    exact hcs c hc
  | cons w ws =>
    have hmem : c ∈ p.word := by
      refine List.mem_of_getLast? ?_
      rw [← List.append_assoc, List.getLast?_append, hw, List.getLast?_cons, Option.some_or,
        ← List.getLast?_cons, ← hw] at hc
      exact hc
    rcases mem_word p.word p.wordPrinted c hmem with rfl | rfl | rfl <;> decide

end PrintedUnit

namespace Rendering

variable (r : Rendering)

theorem mem_groups {f : Figures} {c : Char} (hc : c ∈ f.first ++ f.groups.flatMap fun g => ',' :: g) :
    c.isDigit = true ∨ c = ',' := by
  rw [List.mem_append, List.mem_flatMap] at hc
  rcases hc with hc | ⟨g, hg, hc⟩
  · exact Or.inl (f.firstDigits c hc)
  · rcases List.mem_cons.mp hc with rfl | hc
    · exact Or.inr rfl
    · exact Or.inl ((f.groupDigits g hg).2 c hc)

theorem ends_leading : Ends r.figures.leadingNumeral (r.figures.behind ++ r.printed.chars) := by
  by_cases h : r.figures.groups = []
  · rw [Figures.behind, if_pos h, List.nil_append]
    exact r.printed.ends digits_isDigit _
  · rw [Figures.behind, if_neg h]
    cases hg : r.figures.groups with
    | nil => exact absurd hg h
    | cons g groups =>
      rw [List.flatMap_cons, List.cons_append, List.cons_append, List.cons_append]
      exact ends_of_stops (stops_cons.mpr (by decide)) (stops_cons.mpr (by decide))

theorem number_ne_nil : r.number ≠ [] := by
  rw [number, r.figures.chars_eq]
  exact List.append_ne_nil_of_left_ne_nil
    (List.append_ne_nil_of_left_ne_nil r.figures.leadingNumeral.chars_ne_nil _) _

theorem number_eq : r.number =
    r.figures.leadingNumeral.chars ++ (r.figures.behind ++ r.printed.chars) := by
  rw [number, r.figures.chars_eq, List.append_assoc]

theorem number_stops : Stops isSpace r.number := by
  rw [number_eq]
  exact Numeral.stops_space digits_isDigit _ _

theorem figures_last (f : Figures) : ∀ c ∈ f.chars.getLast?, isSpace c = false := by
  intro c hc
  have hlast := getLast_fraction (d := fun c => c.isDigit || c == ',')
    (fun c hc => (Bool.or_eq_true ..).mpr ((mem_groups hc).imp id beq_iff_eq.mpr))
    (fun c hc => by rw [f.fracDigits c hc, Bool.true_or]) c hc
  rcases (Bool.or_eq_true ..).mp hlast with h | h
  · exact digits_isDigit.not_isSpace h
  · rw [beq_iff_eq.mp h]
    decide

theorem number_last : Stops isSpace r.number.reverse := r.printed.last_stops (figures_last r.figures)

theorem text_strip : (strip r.text).toList = r.label.dropWhile isSpace ++ r.number :=
  toList_strip_append r.number_stops r.number_last r.number_ne_nil

/-- The unit behind a number is the one printed, with nothing to group. -/
theorem unitAt_behind (h : r.figures.groups = []) :
    scale (unitAt (r.figures.behind ++ r.printed.chars)) * 100 = r.printed.unit.fen := by
  rw [Figures.behind, if_pos h, List.nil_append, r.printed.unitAt_chars]

theorem unitAt_comma (h : r.figures.groups ≠ []) :
    unitAt (r.figures.behind ++ r.printed.chars) = none := by
  rw [Figures.behind, if_neg h]
  cases hg : r.figures.groups with
  | nil => exact absurd hg h
  | cons g groups =>
    rw [List.flatMap_cons, List.cons_append, List.cons_append, List.cons_append, unitAt,
      List.dropWhile_cons_of_neg (by decide), List.head?_cons]
    rfl

/-! ### What `parse_money` reads -/

/-- With no digit in the label, the number up to its first comma. -/
theorem parse_number (h : ∀ c ∈ r.label, c.isDigit = false) : parseMoney (some r.text) =
    some ⟨roundHalfEven (r.figures.leadingNumeral.value *
      scale (unitAt (r.figures.behind ++ r.printed.chars)) * 100), "CNY", some (strip r.text)⟩ := by
  have hraw := r.text_strip
  rw [number_eq] at hraw
  exact parseMoney_at hraw (fun c hc => h c (List.dropWhile_subset _ hc)) r.ends_leading

theorem unitAt_append {t u : List Char} (h : Stops (fun c => c == '万' || c == '亿') (u.dropWhile isSpace)) :
    unitAt (t ++ u) = unitAt t := by
  unfold unitAt
  rw [List.dropWhile_append]
  split
  · next ht =>
    rw [List.isEmpty_iff.mp ht, List.head?_nil, Option.filter_none]
    cases hu : (u.dropWhile isSpace).head? with
    | none => rfl
    | some c => exact Option.filter_some_neg (p := fun c => c == '万' || c == '亿') (h c hu)
  · next ht =>
    cases hd : t.dropWhile isSpace with
    | nil => exact absurd (List.isEmpty_iff.mpr hd) ht
    | cons c s => rfl

/-- With a number in the label, the first one there. -/
theorem parse_label {start t : List Char} {n : Numeral Char.isDigit}
    (hlabel : r.label = start ++ (n.chars ++ t)) (hstart : ∀ c ∈ start, c.isDigit = false)
    (h : Ends n t) : parseMoney (some r.text) =
      some ⟨roundHalfEven (n.value * scale (unitAt t) * 100), "CNY", some (strip r.text)⟩ := by
  have hne : t ≠ [] := by
    rintro rfl
    have hl : ∀ c ∈ n.chars.getLast?, c.isDigit = true := n.last_digit
    obtain ⟨c, hc⟩ := Option.ne_none_iff_exists'.mp (mt List.getLast?_eq_none_iff.mp n.chars_ne_nil)
    have hends := r.labelEnds c (by
      rw [hlabel, List.append_nil, List.getLast?_append, hc]
      rfl)
    exact Bool.false_ne_true (hends.1.symm.trans (hl c hc))
  have hlast : ∀ c ∈ t.getLast?, c ≠ '.' := by
    intro c hc
    refine (r.labelEnds c ?_).2
    rw [hlabel, List.getLast?_append, List.getLast?_append, Option.mem_def.mp hc]
    rfl
  have hraw := r.text_strip
  rw [hlabel, dropWhile_append_stop (n.stops_space digits_isDigit t), List.append_assoc,
    List.append_assoc] at hraw
  have hparse := parseMoney_at hraw (fun c hc => hstart c (List.dropWhile_subset _ hc))
    (ends_append h hne hlast)
  rw [hparse, unitAt_append]
  -- behind the label's own text stands a digit
  obtain ⟨c, s, hs, hc⟩ := r.figures.leadingNumeral.head_chars (r.figures.behind ++ r.printed.chars)
  rw [number_eq, hs, List.dropWhile_cons_of_neg
    (Bool.eq_false_iff.mp (digits_isDigit.not_isSpace hc)), stops_cons]
  have hwan : c ≠ '万' := by
    rintro rfl
    exact absurd hc (by decide)
  have hyi : c ≠ '亿' := by
    rintro rfl
    exact absurd hc (by decide)
  simp only [beq_eq_false_iff_ne.mpr hwan, beq_eq_false_iff_ne.mpr hyi, Bool.or_self]

theorem value_plain (h : r.figures.groups = []) :
    r.figures.leadingNumeral.value * scale (unitAt (r.figures.behind ++ r.printed.chars)) * 100 =
      r.amount := by
  rw [mul_assoc, r.unitAt_behind h, ← r.exactly]
  simp only [Figures.leadingNumeral, Numeral.value, Figures.value, h, if_true, List.flatten_nil,
    List.append_nil]

theorem value_comma (h : r.figures.groups ≠ []) :
    r.figures.leadingNumeral.value * scale (unitAt (r.figures.behind ++ r.printed.chars)) * 100 =
      ((natOf r.figures.first * 100 : Nat) : Int) := by
  rw [r.unitAt_comma h]
  simp only [Figures.leadingNumeral, Numeral.value, h, if_false, scale, natOf, List.foldl_nil]
  push_cast
  ring

/-- Three more digits make a number a thousand times as large. -/
theorem grouped_large {f : Figures} (h : f.groups ≠ []) :
    natOf f.first * 1000 ≤ natOf (f.first ++ f.groups.flatten) := by
  have hlen : 3 ≤ f.groups.flatten.length := by
    cases hg : f.groups with
    | nil => exact absurd hg h
    | cons g groups =>
      have hthree := (f.groupDigits g (by rw [hg]; exact List.mem_cons_self ..)).1
      rw [List.flatten_cons, List.length_append, hthree]
      exact Nat.le_add_right ..
  rw [natOf_append]
  calc natOf f.first * 1000 = natOf f.first * 10 ^ 3 := by norm_num
    _ ≤ natOf f.first * 10 ^ f.groups.flatten.length :=
      Nat.mul_le_mul_left _ (Nat.pow_le_pow_right (by norm_num) hlen)
    _ ≤ _ := Nat.le_add_right ..

theorem amount_large (h : r.figures.groups ≠ []) : ((natOf r.figures.first * 100 : Nat) : Int) < r.amount := by
  have hfirst : 0 < natOf r.figures.first := r.figures.leading h
  have hunit : 100 ≤ r.printed.unit.fen := by
    cases r.printed.unit <;> norm_num [MoneyUnit.fen]
  have hvalue : (natOf (r.figures.first ++ r.figures.groups.flatten) : ℚ) ≤ r.figures.value :=
    le_add_of_nonneg_right (by positivity)
  have hlarge : ((natOf r.figures.first * 1000 : Nat) : ℚ) ≤ r.figures.value :=
    le_trans (Nat.cast_le.mpr (grouped_large h)) hvalue
  have hamount : ((natOf r.figures.first * 1000 : Nat) : ℚ) * 100 ≤ r.amount := by
    rw [← r.exactly]
    exact mul_le_mul hlarge hunit (by norm_num) (le_trans (Nat.cast_nonneg _) hlarge)
  have hint : ((natOf r.figures.first * 1000 * 100 : Nat) : Int) ≤ r.amount := by
    exact_mod_cast hamount
  omega

end Rendering

theorem not_labelSays {r : Rendering} (h : ∀ c ∈ r.label, c.isDigit = false) : ¬ r.LabelSays := by
  rintro ⟨start, t, n, hlabel, -, -, -⟩
  obtain ⟨c, s, hs, hc⟩ := n.head_chars t
  have hmem : c ∈ r.label := by
    rw [hlabel, hs]
    exact List.mem_append_right _ (List.mem_cons_self ..)
  exact Bool.false_ne_true ((h c hmem).symm.trans hc)

/-- **`parse_money` on a rendering.** No other amount comes back, exactly when the
label has no digit and the number is not grouped, or the first number in the
label says the amount. -/
theorem money_exact_iff (r : Rendering) :
    (∀ m, parseMoney (some r.text) = some m → m.minorUnits = r.amount) ↔
      ((∀ c ∈ r.label, c.isDigit = false) ∧ r.figures.groups = []) ∨ r.LabelSays := by
  by_cases hl : ∀ c ∈ r.label, c.isDigit = false
  · rw [or_iff_left (not_labelSays hl)]
    have hparse := r.parse_number hl
    constructor
    · intro h
      refine ⟨hl, by_contra fun hg => ?_⟩
      have hread := h _ hparse
      rw [r.value_comma hg, roundHalfEven_int] at hread
      exact absurd hread (r.amount_large hg).ne
    · rintro ⟨-, hg⟩ m hm
      rw [hparse, r.value_plain hg, roundHalfEven_int] at hm
      rw [← Option.some.inj hm]
  · rw [or_iff_right fun h => hl h.1]
    constructor
    · intro h
      obtain ⟨c, hc⟩ := not_forall.mp hl
      obtain ⟨hmem, hdigit⟩ := Classical.not_imp.mp hc
      obtain ⟨start, t, n, hlabel, hstart, hends⟩ :=
        exists_numeral (d := Char.isDigit) ⟨c, hmem, Bool.not_eq_false _ ▸ hdigit⟩
      exact ⟨start, t, n, hlabel, hstart, hends, h _ (r.parse_label hlabel hstart hends)⟩
    · rintro ⟨start, t, n, hlabel, hstart, hends, hsays⟩ m hm
      rw [r.parse_label hlabel hstart hends] at hm
      rw [← Option.some.inj hm]
      exact hsays

theorem one_digit : ∀ c ∈ ['1'], c.isDigit = true := Text.forall_of_all (by decide)

theorem groups_digits : ∀ g ∈ [['2', '3', '4'], ['5', '6', '7']], g.length = 3 ∧ ∀ c ∈ g, c.isDigit = true := by
  intro g hg
  rcases List.mem_pair.mp hg with rfl | rfl
  · exact ⟨rfl, Text.forall_of_all (by decide)⟩
  · exact ⟨rfl, Text.forall_of_all (by decide)⟩

theorem no_digits : ∀ c ∈ ([] : List Char), c.isDigit = true := by simp

/-- 1,234,567 元 -/
def groupedFigures : Figures where
  first := ['1']
  groups := [['2', '3', '4'], ['5', '6', '7']]
  firstNonempty := by decide
  firstDigits := one_digit
  groupDigits := groups_digits
  leading := by decide
  fracDigits := no_digits

theorem no_gap : ∀ c ∈ ([] : List Char), isSpace c = true := by simp

/-- yuan, printed without a blank -/
def yuanUnit : PrintedUnit where
  unit := .yuan
  word := ['元']
  gapSpaces := no_gap
  wordPrinted := by decide
  gapBeforeWord := nofun

theorem no_label : ∀ c ∈ ([] : List Char).getLast?, c.isDigit = false ∧ c ≠ '.' := by simp

/-- A number of yuan grouped by commas. -/
def groupedRendering : Rendering where
  figures := groupedFigures
  printed := yuanUnit
  amount := 123456700
  exactly := by decide +kernel
  labelEnds := no_label

/-- 1,234,567 元 are read as one. -/
theorem comma_misread :
    groupedRendering.text = "1,234,567元" ∧
      parseMoney (some groupedRendering.text) = some ⟨100, "CNY", some "1,234,567元"⟩ ∧
      ¬ ∀ m, parseMoney (some groupedRendering.text) = some m →
        m.minorUnits = groupedRendering.amount := by
  have hread : parseMoney (some groupedRendering.text) = some ⟨100, "CNY", some "1,234,567元"⟩ := by
    decide +kernel
  refine ⟨by decide +kernel, hread, fun h => ?_⟩
  exact absurd (h _ hread) (by decide)

/-! ## The parsers on one numeral -/

/-- The numeral, read with the digits of every script. -/
def Numeral.anyScript (n : Numeral Char.isDigit) : Numeral isDecimal where
  whole := n.whole
  frac := n.frac
  wholeNonempty := n.wholeNonempty
  wholeDigits c hc := digits_isDigit c (n.wholeDigits c hc)
  fracDigits c hc := digits_isDigit c (n.fracDigits c hc)

theorem Numeral.anyScript_chars (n : Numeral Char.isDigit) : n.anyScript.chars = n.chars := by
  simp only [Numeral.chars, Numeral.anyScript]

namespace MoneyUnit

/-- The group that names the unit. -/
def char : MoneyUnit → Char
  | .yuan => '元'
  | .wan => '万'
  | .yi => '亿'

end MoneyUnit

/-- A budget written without a label or commas, with its unit. -/
structure PlainBudget where
  numeral : Numeral Char.isDigit
  printed : PrintedUnit
  unitGiven : printed.word ≠ []

def PlainBudget.chars (b : PlainBudget) : List Char := b.numeral.chars ++ b.printed.chars

/-- Printed in a notice and written as a bound in any request, the budget is the
same amount. -/
def ParsersAgree (b : PlainBudget) : Prop :=
  ∃ notice, parseMoney (some (.ofList b.chars)) = some notice ∧
    parseBudgetToFen b.numeral.chars [b.printed.unit.char] = notice.minorUnits ∧
    ∀ start rest : List Char, (∀ c ∈ start, isDecimal c = false) →
      ∃ low high,
        extractMinBudget (.ofList (start ++ (b.chars ++ '以' :: '上' :: rest))) = some low ∧
        extractMaxBudget (.ofList (start ++ (b.chars ++ '以' :: '下' :: rest))) = some high ∧
        low.minorUnits = notice.minorUnits ∧ high.minorUnits = notice.minorUnits

theorem word_cases {u : MoneyUnit} : ∀ w ∈ u.words, w ≠ [] →
    w = [u.char] ∨ w = [u.char, '元'] := by
  cases u <;> decide

theorem takes_boundUnit (u : MoneyUnit) (t : List Char) :
    Takes (.group 2 (.alt largeUnitRe (.sym (· == '元')))) (u.char :: t) [(2, [u.char])] t := by
  have hunit : Takes (.alt largeUnitRe (.sym (· == '元'))) ([u.char] ++ t) [] t := by
    cases u with
    | yuan =>
      exact takes_alt_right (fails_largeUnit (stops_cons.mpr (by decide))) (takes_sym (by decide))
    | wan => exact takes_alt_left (takes_alt_left (takes_sym (by decide)))
    | yi =>
      exact takes_alt_left (takes_alt_right (fails_sym (stops_cons.mpr (by decide)))
        (takes_sym (by decide)))
  exact takes_group hunit

/-- The bound pattern takes the numeral and its unit. -/
theorem takes_bound (b : PlainBudget) (last : Char) (rest : List Char) :
    Takes (boundRe last) (b.chars ++ '以' :: last :: rest)
      [(0, b.chars ++ ['以', last]), (1, b.numeral.chars), (2, [b.printed.unit.char])] rest := by
  have hyi : ∀ {q : Char → Bool} {s : List Char}, q '以' = false → Stops q ('以' :: s) :=
    fun h => stops_cons.mpr h
  -- what may stand between the unit's character and the bound's words
  have hword : ∃ w, b.printed.word = b.printed.unit.char :: w ∧ (w = [] ∨ w = ['元']) := by
    rcases word_cases _ b.printed.wordPrinted b.unitGiven with hw | hw
    · exact ⟨[], hw, Or.inl rfl⟩
    · exact ⟨['元'], hw, Or.inr rfl⟩
  obtain ⟨w, hw, hcases⟩ := hword
  have hspaces : Takes (.many isSpace) (w ++ '以' :: last :: rest) [] (w ++ '以' :: last :: rest) := by
    refine takes_many_none ?_
    rcases hcases with rfl | rfl
    · exact hyi (by decide)
    · exact stops_cons.mpr (by decide)
  have hyuan : Takes (.opt (.sym (· == '元'))) (w ++ '以' :: last :: rest) [] ('以' :: last :: rest) := by
    rcases hcases with rfl | rfl
    · exact takes_opt_none (fails_sym (hyi (by decide)))
    · exact takes_opt (takes_sym (by decide))
  have hgap : Takes (.many isSpace) (b.printed.gap ++ b.printed.unit.char :: (w ++ '以' :: last :: rest)) []
      (b.printed.unit.char :: (w ++ '以' :: last :: rest)) := by
    refine takes_many b.printed.gapSpaces (stops_cons.mpr ?_)
    cases b.printed.unit <;> decide
  have htext : (b.chars ++ ['以', last]) ++ rest = b.numeral.anyScript.chars ++
      (b.printed.gap ++ b.printed.unit.char :: (w ++ '以' :: last :: rest)) := by
    simp only [Numeral.anyScript_chars, PlainBudget.chars, PrintedUnit.chars, hw, List.append_assoc,
      List.cons_append, List.nil_append]
  have hends : Ends b.numeral.anyScript
      (b.printed.gap ++ b.printed.unit.char :: (w ++ '以' :: last :: rest)) := by
    have h := b.printed.ends_text digits_isDecimal b.numeral.anyScript b.unitGiven ('以' :: last :: rest)
    rwa [PrintedUnit.chars, hw, List.append_assoc, List.cons_append] at h
  have htake := takes_seq (takes_seq (takes_seq (takes_seq (takes_seq (takes_seq (takes_seq
    (takes_group (n := 1) (takes_numeral digits_isDecimal hends)) hgap)
    (takes_boundUnit b.printed.unit _)) hspaces) hyuan)
    (takes_many_none (hyi (q := isSpace) (by decide))))
    (takes_opt (takes_sym (p := (· == '以')) (by decide)))) (takes_sym (p := (· == last)) (beq_self_eq_true last))
  have hsplit : b.chars ++ '以' :: last :: rest = (b.chars ++ ['以', last]) ++ rest := by
    rw [List.append_assoc]
    rfl
  rw [hsplit, ← b.numeral.anyScript_chars]
  refine takes_group (g := [(1, b.numeral.anyScript.chars), (2, [b.printed.unit.char])]) ?_
  rw [htext]
  exact htake

theorem fails_bound (last c : Char) (s : List Char) (h : isDecimal c = false) :
    Fails (boundRe last) (c :: s) :=
  fails_group (fails_seq_left (fails_seq_left (fails_seq_left (fails_seq_left (fails_seq_left
    (fails_seq_left (fails_seq_left (fails_group (fails_numeral (stops_cons.mpr h))))))))))

/-- A bound is read wherever it stands behind text without digits. -/
theorem extractBudget_eq (b : PlainBudget) (last : Char) {start rest : List Char}
    (hstart : ∀ c ∈ start, isDecimal c = false) :
    extractBudget last (.ofList (start ++ (b.chars ++ '以' :: last :: rest))) =
      some ⟨parseBudgetToFen b.numeral.chars [b.printed.unit.char], "CNY",
        some (.ofList (b.chars ++ ['以', last]))⟩ := by
  have hsearch := (search_skip (passes_of_stops (fails_bound last) hstart)).trans
    (search_takes (takes_bound b last rest))
  rw [extractBudget, String.toList_ofList, hsearch]
  rfl

theorem parseBudgetToFen_eq (n : Numeral Char.isDigit) (u : MoneyUnit) :
    parseBudgetToFen n.chars [u.char] = ⌊n.value * u.fen⌋ := by
  have hfen : parseBudgetToFen n.chars [u.char] = truncate (n.value * u.fen) := by
    rw [parseBudgetToFen, floatOf_chars digits_isDigit]
    cases u <;> norm_num +decide [MoneyUnit.char, MoneyUnit.fen, FEN_PER_YI, FEN_PER_WAN, FEN_PER_YUAN]
  rw [hfen, truncate_nonneg]
  refine mul_nonneg n.value_nonneg ?_
  cases u <;> norm_num [MoneyUnit.fen]

theorem parseMoney_plain (b : PlainBudget) : ∃ raw, parseMoney (some (.ofList b.chars)) =
    some ⟨roundHalfEven (b.numeral.value * b.printed.unit.fen), "CNY", raw⟩ := by
  have hne : b.chars ≠ [] := List.append_ne_nil_of_left_ne_nil b.numeral.chars_ne_nil _
  have hlast := b.printed.last_stops fun c hc => digits_isDigit.not_isSpace (b.numeral.last_digit c hc)
  have hraw : (strip (.ofList b.chars)).toList = [] ++ b.chars :=
    toList_strip_append (l := []) (b.numeral.stops_space digits_isDigit _) hlast hne
  have hparse := parseMoney_at hraw nofun (b.printed.ends digits_isDigit b.numeral)
  rw [mul_assoc, b.printed.unitAt_chars] at hparse
  exact ⟨_, hparse⟩

/-- **The two parsers.** They agree on a budget exactly when the fraction of a fen
in it is below one half, or is one half behind an even number of fen. -/
theorem parsers_agree_iff (b : PlainBudget) : ParsersAgree b ↔
    b.numeral.value * b.printed.unit.fen - ⌊b.numeral.value * b.printed.unit.fen⌋ < 1 / 2 ∨
      (b.numeral.value * b.printed.unit.fen - ⌊b.numeral.value * b.printed.unit.fen⌋ = 1 / 2 ∧
        ⌊b.numeral.value * b.printed.unit.fen⌋ % 2 = 0) := by
  obtain ⟨raw, hnotice⟩ := parseMoney_plain b
  rw [← roundHalfEven_eq_floor]
  constructor
  · rintro ⟨notice, hparse, hfen, -⟩
    rw [hnotice] at hparse
    rw [← Option.some.inj hparse, parseBudgetToFen_eq] at hfen
    exact hfen.symm
  · intro h
    have hfen : parseBudgetToFen b.numeral.chars [b.printed.unit.char] =
        roundHalfEven (b.numeral.value * b.printed.unit.fen) := by
      rw [parseBudgetToFen_eq, h]
    refine ⟨_, hnotice, hfen, fun start rest hstart => ?_⟩
    exact ⟨_, _, extractBudget_eq b '上' hstart, extractBudget_eq b '下' hstart, hfen, hfen⟩

theorem fine_digits : ∀ c ∈ ['0', '0', '6'], c.isDigit = true := Text.forall_of_all (by decide)

/-- 1.006 -/
def fineNumeral : Numeral Char.isDigit where
  whole := ['1']
  frac := ['0', '0', '6']
  wholeNonempty := by decide
  wholeDigits := one_digit
  fracDigits := fine_digits

/-- A budget with six tenths of a fen. -/
def fineBudget : PlainBudget where
  numeral := fineNumeral
  printed := yuanUnit
  unitGiven := by decide

/-- A budget of 1.006 元 is 101 fen in a notice and 100 in a request, so the bound
"1.006元以下" excludes it. -/
theorem fine_budget_excluded :
    fineBudget.chars = "1.006元".toList ∧
      parseMoney (some "1.006元") = some ⟨101, "CNY", some "1.006元"⟩ ∧
      extractMaxBudget "1.006元以下" = some ⟨100, "CNY", some "1.006元以下"⟩ ∧
      ¬ ParsersAgree fineBudget := by
  have hread : parseMoney (some (.ofList fineBudget.chars)) = some ⟨101, "CNY", some "1.006元"⟩ := by
    decide +kernel
  refine ⟨by decide, by decide +kernel, by decide +kernel, ?_⟩
  rintro ⟨notice, hnotice, hfen, -⟩
  rw [hread] at hnotice
  rw [← Option.some.inj hnotice] at hfen
  exact absurd hfen (by decide +kernel)

end BidScope.L8
