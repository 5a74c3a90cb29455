import BidScope.L8Models.Numerals

/-!
# Weekdays of a cron expression

`_normalize_crontab_day_of_week` of `subscriptions/service.py`. Standard crontab
counts weekdays from Sunday, which is 0 and 7; the scheduler behind it counts
from Monday. So every item of the fifth field is expanded to weekday names.

**Standard meaning.** `standardItem` reads an item by itself, apart from the
code's patterns: `*`, a value or a range of values, with a step behind a slash.
A value is a number or a weekday's name; a step without a range runs to 7. An
item denotes the weekdays its values fall on (`Item.days`).

* `expandToken_spec`: an item that is expanded is one of the grammar, and its
  names are the weekdays it denotes.
* `split_joined`: fields joined by blanks are split again.
* `weekdays_normalized`: for every expression of five fields the meaning is
  kept, the other fields stay, normalising again changes nothing, and a field
  with an item outside the grammar is refused.
-/
namespace BidScope.L4

open BidScope.L1 Regex
open BidScope.L8 (isDecimal natOf)

/-! ## The patterns -/

/-- `[A-Za-z]` -/
def isLetter (c : Char) : Bool := c.isAlpha

/-- mirrors subscriptions/service.py:234 -/
def DOW_VALUE : Re Char := .alt (.some isDecimal) (.some isLetter)

/-- The groups are `start`, `end` and `step`.
mirrors subscriptions/service.py:235-238 -/
def DOW_TOKEN : Re Char :=
  .group 1 DOW_VALUE ++ (.opt (.sym (· == '-') ++ .group 2 DOW_VALUE) ++
    .opt (.sym (· == '/') ++ .group 3 (.some isDecimal)))

/-- mirrors subscriptions/service.py:239 -/
def DOW_ALL_TOKEN : Re Char := .sym (· == '*') ++ .opt (.sym (· == '/') ++ .group 3 (.some isDecimal))

/-- mirrors subscriptions/service.py:230 -/
def STANDARD_CRON_WEEKDAYS : List String := ["sun", "mon", "tue", "wed", "thu", "fri", "sat"]

/-! ## Expansion -/

/-- `int` of a word of digits; it refuses more than 4300 of them. -/
def pyInt (raw : List Char) : Except String Nat :=
  if 4300 < raw.length then
    .error ("Exceeds the limit (4300 digits) for integer string conversion: value has " ++
      toString raw.length ++ " digits; use sys.set_int_max_str_digits() to increase the limit")
  else .ok (natOf raw)

/-- `raw.isdigit()` of a word that one of the patterns matched. -/
def isDigits (raw : List Char) : Bool := raw.all isDecimal

/-- mirrors subscriptions/service.py:257-262 -/
def weekdayName (value : Nat) : Except String String :=
  match STANDARD_CRON_WEEKDAYS[if value = 7 then 0 else value]? with
  | none => .error ("invalid crontab day-of-week value: " ++ toString value)
  | some name => .ok name

/-- The weekday a name stands for, in any case. -/
def namedWeekday (raw : List Char) : Option Nat :=
  STANDARD_CRON_WEEKDAYS.findIdx? fun name => name.toList = raw.map Char.toLower

/-- mirrors subscriptions/service.py:264-273 -/
def endpointValue (raw : List Char) : Except String Nat :=
  if isDigits raw then
    match pyInt raw with
    | .error e => .error e
    | .ok value =>
      if 7 < value then .error ("invalid crontab day-of-week value: " ++ toString value)
      else .ok value
  else
    match namedWeekday raw with
    | none => .error ("invalid crontab day-of-week name: " ++ .ofList raw)
    | some value => .ok value

/-- `range(start, stop, step)` -/
def pyRange (start stop step : Nat) : List Nat :=
  (List.range' start (stop - start)).filter fun v => (v - start) % step = 0

/-- `[weekday_name(value) for value in values]` -/
def weekdayNames : List Nat → Except String (List String)
  | [] => .ok []
  | value :: values =>
    match weekdayName value with
    | .error e => .error e
    | .ok name =>
      match weekdayNames values with
      | .error e => .error e
      | .ok names => .ok (name :: names)

/-- mirrors subscriptions/service.py:306-323 -/
def expandSpan (start stop step : Nat) : Except String (List String) :=
  if step = 0 then .error "crontab day-of-week step must be positive"
  else if 7 < step then .error "crontab day-of-week step exceeds its seven-day range"
  else if stop < start then .error "crontab day-of-week range start must not exceed its end"
  else if stop - start + 1 < step then .error "crontab day-of-week step exceeds its range"
  else weekdayNames (pyRange start (stop + 1) step)

/-- mirrors subscriptions/service.py:294-323 -/
def expandMatch (startRaw : List Char) (endRaw stepRaw : Option (List Char)) :
    Except String (List String) :=
  match endpointValue startRaw with
  | .error e => .error e
  | .ok start =>
    if endRaw.any fun e => isDigits startRaw != isDigits e then
      .error "crontab day-of-week range endpoints must use the same syntax"
    else
      match (match endRaw with
        | some e => endpointValue e
        | none => .ok (if stepRaw.isSome then 7 else start)) with
      | .error e => .error e
      | .ok stop =>
        match (match stepRaw with
          | some s => pyInt s
          | none => .ok 1) with
        | .error e => .error e
        | .ok step => expandSpan start stop step

/-- mirrors subscriptions/service.py:275-288 -/
def expandAll : Option (List Char) → Except String (List String)
  | none => .ok ["*"]
  | some stepRaw =>
    match pyInt stepRaw with
    | .error e => .error e
    | .ok step =>
      if step = 0 then .error "crontab day-of-week step must be positive"
      else if 7 < step then .error "crontab day-of-week step exceeds its seven-day range"
      else weekdayNames (pyRange 0 7 step)

/-- mirrors subscriptions/service.py:275-323 -/
def expandToken (token : List Char) : Except String (List String) :=
  match fullmatch DOW_ALL_TOKEN token with
  | some g => expandAll (g.get 3)
  | none =>
    match fullmatch DOW_TOKEN token with
    | none => .error ("invalid crontab day-of-week token: " ++ .ofList token)
    | some g => expandMatch ((g.get 1).getD []) (g.get 2) (g.get 3)

/-- The normalized tokens and the weekdays seen, with one more name.
mirrors subscriptions/service.py:328-333 -/
def addName (acc : List String × List String) (name : String) : List String × List String :=
  if name = "*" then (acc.1 ++ [name], acc.2)
  else if name ∈ acc.2 then acc
  else (acc.1 ++ [name], acc.2 ++ [name])

/-- mirrors subscriptions/service.py:325-333 -/
def normalizeTokens : List (List Char) → List String × List String → Except String (List String)
  | [], acc => .ok acc.1
  | token :: tokens, acc =>
    match expandToken token with
    | .error e => .error e
    | .ok names => normalizeTokens tokens (names.foldl addName acc)

/-- `field.split(",")` -/
def items (field : String) : List (List Char) := field.toList.splitOn ','

/-- mirrors subscriptions/service.py:242-336 -/
def normalizeCrontabDayOfWeek (cronExpression : String) : Except String String :=
  match split cronExpression with
  | [minute, hour, day, month, dayOfWeek] =>
    match normalizeTokens (items dayOfWeek) ([], []) with
    | .error e => .error e
    | .ok tokens => .ok (joinWith " " [minute, hour, day, month, joinWith "," tokens])
  | _ => .ok cronExpression

/-! ## The standard meaning -/

/-- `*`, or the values from `start` on; `stop` where a range names it. -/
inductive Item where
  | all (step : Option Nat)
  | span (start : Nat) (stop : Option Nat) (step : Option Nat)
  deriving DecidableEq, Repr

namespace Item

def start : Item → Nat
  | .all _ => 0
  | .span start _ _ => start

def step : Item → Nat
  | .all step | .span _ _ step => step.getD 1

/-- A step without a range runs to 7, and a value alone is itself. -/
def stop : Item → Nat
  | .all _ => 7
  | .span start stop step => stop.getD (if step.isSome then 7 else start)

/-- The weekdays, counted from Sunday, that the values fall on. -/
def days (i : Item) (day : Nat) : Prop :=
  ∃ value, i.start ≤ value ∧ value ≤ i.stop ∧ i.step ∣ value - i.start ∧ value % 7 = day

/-- Values up to 7, in order, and a positive step. -/
structure Valid (i : Item) : Prop where
  step : 0 < i.step
  order : i.start ≤ i.stop
  seven : i.stop ≤ 7

end Item

/-- A number in digits. -/
def readNumber (raw : List Char) : Option Nat :=
  if raw ≠ [] ∧ raw.all isDecimal = true then some (natOf raw) else none

/-- A number or a weekday's name. -/
def readValue (raw : List Char) : Option Nat := (readNumber raw).or (namedWeekday raw)

def readSpan (body : List Char) (step : Option Nat) : Option Item :=
  match body.splitOn '-' with
  | [start] => if start = ['*'] then some (.all step) else (readValue start).map (.span · none step)
  | [start, stop] => (readValue start).bind fun a => (readValue stop).map fun b => .span a (some b) step
  | _ => none

/-- An item of the standard grammar. -/
def standardItem (token : List Char) : Option Item :=
  match token.splitOn '/' with
  | [body] => readSpan body none
  | [body, step] => (readNumber step).bind fun n => readSpan body (some n)
  | _ => none

/-- The item is one of the grammar. -/
def InGrammar (token : List Char) : Prop := ∃ i, standardItem token = some i ∧ i.Valid

/-- The weekdays a field denotes. -/
def Denotes (field : String) (day : Nat) : Prop :=
  ∃ token ∈ items field, ∃ i, standardItem token = some i ∧ i.days day

/-- No two items of the field denote one weekday. -/
def Unrepeated (field : String) : Prop :=
  (items field).Pairwise fun token token' => ∀ i i', standardItem token = some i → standardItem token' = some i' →
    ∀ day, i.days day → ¬ i'.days day

/-- What normalising makes of an expression with the fields. -/
structure Normalized (fields : List String) (dayOfWeek result : String) : Prop where
  fields : ∃ weekdays, split result = fields ++ [weekdays] ∧
    (∀ day, Denotes weekdays day ↔ Denotes dayOfWeek day) ∧
    (∀ token ∈ items weekdays, token = ['*'] ∨ String.ofList token ∈ STANDARD_CRON_WEEKDAYS) ∧
    ((items weekdays).filter (· ≠ ['*'])).Nodup
  again : normalizeCrontabDayOfWeek result = .ok result

/-! ## Tokens -/

/-- A mark and the text behind it, if it is there. -/
def behind (mark : Char) : Option (List Char) → List Char
  | none => []
  | some text => mark :: text

/-- A word of digits. -/
structure Number (raw : List Char) : Prop where
  ne : raw ≠ []
  digits : ∀ c ∈ raw, isDecimal c = true

/-- A word of digits or one of letters. -/
def Value (raw : List Char) : Prop := Number raw ∨ raw ≠ [] ∧ ∀ c ∈ raw, isLetter c = true

variable {raw token : List Char} {r : Re Char} {W : List Char → Prop} {g : Groups Char} {mark : Char}

/-- An optional mark with a group behind it. -/
theorem mem_run_behind {n : Nat} (hr : ∀ g t s, (g, t) ∈ run (.group n r) s ↔
      ∃ xs, W xs ∧ s = xs ++ t ∧ g = [(n, xs)]) {s t : List Char} :
    (g, t) ∈ run (.opt (.sym (· == mark) ++ .group n r)) s ↔
      ∃ text : Option (List Char), (∀ x ∈ text, W x) ∧ s = behind mark text ++ t ∧
        g = (text.map (n, ·)).toList := by
  rw [mem_run_opt, mem_run_seq]
  constructor
  · rintro (⟨g₁, u, g₂, hmark, hgroup, rfl⟩ | ⟨rfl, rfl⟩)
    · obtain ⟨rfl, c, hc, rfl⟩ := mem_run_sym.mp hmark
      obtain ⟨xs, hxs, rfl, rfl⟩ := (hr ..).mp hgroup
      obtain rfl : c = mark := beq_iff_eq.mp hc
      exact ⟨some xs, by simpa using hxs, rfl, rfl⟩
    · exact ⟨none, nofun, rfl, rfl⟩
  · rintro ⟨text, htext, rfl, rfl⟩
    cases text with
    | none => exact .inr ⟨rfl, rfl⟩
    | some xs =>
      exact .inl ⟨[], xs ++ t, [(n, xs)], mem_run_sym.mpr ⟨rfl, mark, beq_self_eq_true mark, rfl⟩,
        (hr ..).mpr ⟨xs, htext xs rfl, rfl, rfl⟩, rfl⟩

theorem mem_run_number {n : Nat} {s t : List Char} : (g, t) ∈ run (.group n (.some isDecimal)) s ↔
    ∃ xs, Number xs ∧ s = xs ++ t ∧ g = [(n, xs)] := by
  rw [mem_run_word]
  exact ⟨fun ⟨xs, hne, hxs, h⟩ => ⟨xs, ⟨hne, hxs⟩, h⟩, fun ⟨xs, hw, h⟩ => ⟨xs, hw.ne, hw.digits, h⟩⟩

theorem mem_run_value {n : Nat} {s t : List Char} : (g, t) ∈ run (.group n DOW_VALUE) s ↔
    ∃ xs, Value xs ∧ s = xs ++ t ∧ g = [(n, xs)] := by
  have hvalue : ∀ g t, (g, t) ∈ run DOW_VALUE s ↔ g = [] ∧ ∃ xs, Value xs ∧ s = xs ++ t := by
    intro g t
    rw [DOW_VALUE, mem_run_alt, mem_run_some, mem_run_some, ← and_or_left, ← exists_or]
    refine and_congr_right fun _ => exists_congr fun xs => ?_
    constructor
    · rintro (⟨hne, hxs, h⟩ | ⟨hne, hxs, h⟩)
      · exact ⟨.inl ⟨hne, hxs⟩, h⟩
      · exact ⟨.inr ⟨hne, hxs⟩, h⟩
    · rintro ⟨hw | ⟨hne, hxs⟩, h⟩
      · exact .inl ⟨hw.ne, hw.digits, h⟩
      · exact .inr ⟨hne, hxs, h⟩
  rw [mem_run_group fun g t h => by
    obtain ⟨-, xs, -, rfl⟩ := (hvalue g t).mp h
    exact ⟨xs, rfl⟩]
  constructor
  · rintro ⟨xs, g', rfl, h, rfl⟩
    obtain ⟨rfl, ys, hys, heq⟩ := (hvalue g' t).mp h
    obtain rfl := List.append_cancel_right heq
    exact ⟨xs, hys, rfl, rfl⟩
  · rintro ⟨xs, hxs, rfl, rfl⟩
    exact ⟨xs, [], rfl, (hvalue [] t).mpr ⟨rfl, xs, hxs, rfl⟩, rfl⟩

/-- A token is a value, a range if there is one, and a step if there is one. -/
theorem mem_run_token : (g, []) ∈ run DOW_TOKEN token ↔
    ∃ start stop step, Value start ∧ (∀ x ∈ stop, Value x) ∧ (∀ x ∈ step, Number x) ∧
      token = start ++ (behind '-' stop ++ behind '/' step) ∧
      g = (1, start) :: ((stop.map (2, ·)).toList ++ (step.map (3, ·)).toList) := by
  rw [DOW_TOKEN, mem_run_seq]
  constructor
  · rintro ⟨g₁, u, g₂, hstart, hrest, rfl⟩
    obtain ⟨start, hs, rfl, rfl⟩ := mem_run_value.mp hstart
    obtain ⟨g₃, u', g₄, hstop, hstep, rfl⟩ := mem_run_seq.mp hrest
    obtain ⟨stop, hst, rfl, rfl⟩ := (mem_run_behind fun _ _ _ => mem_run_value).mp hstop
    obtain ⟨step, hn, rfl, rfl⟩ := (mem_run_behind fun _ _ _ => mem_run_number).mp hstep
    exact ⟨start, stop, step, hs, hst, hn, by rw [List.append_nil], rfl⟩
  · rintro ⟨start, stop, step, hs, hst, hn, rfl, rfl⟩
    exact ⟨[(1, start)], _, _, mem_run_value.mpr ⟨start, hs, rfl, rfl⟩, mem_run_seq.mpr
      ⟨_, _, _, (mem_run_behind fun _ _ _ => mem_run_value).mpr ⟨stop, hst, rfl, rfl⟩,
        (mem_run_behind fun _ _ _ => mem_run_number).mpr ⟨step, hn, (List.append_nil _).symm, rfl⟩, rfl⟩, rfl⟩

theorem mem_run_all : (g, []) ∈ run DOW_ALL_TOKEN token ↔
    ∃ step, (∀ x ∈ step, Number x) ∧ token = '*' :: behind '/' step ∧ g = (step.map (3, ·)).toList := by
  rw [DOW_ALL_TOKEN, mem_run_seq]
  constructor
  · rintro ⟨g₁, u, g₂, hstar, hstep, rfl⟩
    obtain ⟨rfl, c, hc, rfl⟩ := mem_run_sym.mp hstar
    obtain ⟨step, hn, rfl, rfl⟩ := (mem_run_behind fun _ _ _ => mem_run_number).mp hstep
    obtain rfl : c = '*' := beq_iff_eq.mp hc
    exact ⟨step, hn, by rw [List.append_nil], rfl⟩
  · rintro ⟨step, hn, rfl, rfl⟩
    exact ⟨[], _, _, mem_run_sym.mpr ⟨rfl, '*', rfl, rfl⟩,
      (mem_run_behind fun _ _ _ => mem_run_number).mpr ⟨step, hn, (List.append_nil _).symm, rfl⟩, rfl⟩

/-! ## The same token read by the standard -/

theorem not_mem_digits {c : Char} (hc : isDecimal c = false) (h : ∀ d ∈ raw, isDecimal d = true) : c ∉ raw :=
  fun hmem => by
    rw [h c hmem] at hc
    cases hc

theorem Value.not_mem (h : Value raw) {c : Char} (hd : isDecimal c = false) (hl : isLetter c = false) :
    c ∉ raw := by
  rcases h with h | ⟨-, h⟩
  · exact not_mem_digits hd h.digits
  · intro hmem
    rw [h c hmem] at hl
    cases hl

theorem splitOn_behind {c : Char} {body : List Char} {text : Option (List Char)} (hb : c ∉ body)
    (ht : ∀ x ∈ text, c ∉ x) : (body ++ behind c text).splitOn c = body :: text.toList := by
  have hjoin : body ++ behind c text = [c].intercalate (body :: text.toList) := by
    cases text <;> simp [behind, List.intercalate]
  rw [hjoin]
  refine List.splitOn_intercalate c ?_ (List.cons_ne_nil _ _)
  simpa [List.forall_mem_cons, hb] using ht

theorem readNumber_of (h : Number raw) : readNumber raw = some (natOf raw) :=
  if_pos ⟨h.ne, List.all_eq_true.mpr h.digits⟩

theorem pyInt_ok {n : Nat} (h : pyInt raw = .ok n) : n = natOf raw := by
  unfold pyInt at h
  split at h
  · cases h
  · exact (Except.ok.inj h).symm

theorem pyInt_number {n : Nat} (hw : Number raw) (h : pyInt raw = .ok n) : readNumber raw = some n := by
  rw [readNumber_of hw, pyInt_ok h]

theorem namedWeekday_lt {n : Nat} (h : namedWeekday raw = some n) : n < 7 := by
  obtain ⟨hlt, -⟩ := List.findIdx?_eq_some_iff_getElem.mp h
  exact hlt

/-- An endpoint that is accepted is a value of the standard, and at most 7. -/
theorem endpointValue_ok {n : Nat} (hv : Value raw) (h : endpointValue raw = .ok n) :
    readValue raw = some n ∧ n ≤ 7 := by
  unfold endpointValue at h
  unfold readValue
  split at h
  · next hd =>
    have hn : Number raw := by
      refine hv.elim id fun hl => ⟨hl.1, List.all_eq_true.mp hd⟩
    cases hi : pyInt raw with
    | error e => simp [hi] at h
    | ok value =>
      simp only [hi] at h
      split at h
      · cases h
      · obtain rfl := Except.ok.inj h
        rw [pyInt_number hn hi]
        exact ⟨rfl, by omega⟩
  · next hd =>
    have hnone : readNumber raw = none := if_neg fun hn => hd hn.2
    cases hi : namedWeekday raw with
    | none => simp [hi] at h
    | some value =>
      simp only [hi] at h
      obtain rfl := Except.ok.inj h
      rw [hnone]
      exact ⟨rfl, (namedWeekday_lt hi).le⟩

theorem readSpan_of {start : List Char} {stop : Option (List Char)} {step : Option Nat} {a : Nat} {b : Option Nat}
    (hs : Value start) (hst : ∀ x ∈ stop, Value x) (ha : readValue start = some a)
    (hb : stop.map readValue = b.map some) :
    readSpan (start ++ behind '-' stop) step = some (.span a b step) := by
  have hdash : ∀ {x}, Value x → '-' ∉ x := fun h => h.not_mem (by decide) (by decide)
  unfold readSpan
  rw [splitOn_behind (hdash hs) fun x hx => hdash (hst x hx)]
  cases stop with
  | none =>
    have hstar : start ≠ ['*'] := by
      rintro rfl
      exact hs.not_mem (c := '*') (by decide) (by decide) (List.mem_singleton_self _)
    cases b with
    | none => simp [hstar, ha]
    | some b => cases hb
  | some e =>
    cases b with
    | none => cases hb
    | some b =>
      have he : readValue e = some b := Option.some.inj hb
      simp [ha, he]

/-- A token of the code's pattern, read by the standard. -/
theorem standardItem_of {body : List Char} {step : Option (List Char)} {n : Option Nat} {i : Item}
    (hbody : '/' ∉ body) (hst : ∀ x ∈ step, Number x) (hn : step.map readNumber = n.map some)
    (hi : readSpan body n = some i) : standardItem (body ++ behind '/' step) = some i := by
  unfold standardItem
  rw [splitOn_behind hbody fun x hx => not_mem_digits (by decide) (hst x hx).digits]
  cases step with
  | none =>
    cases n with
    | none => exact hi
    | some n => cases hn
  | some s =>
    cases n with
    | none => cases hn
    | some n =>
      have hs : readNumber s = some n := Option.some.inj hn
      simp [hs, hi]

/-! ## What an item is expanded to -/

/-- The name of a weekday counted from Sunday. -/
def weekday (day : Nat) : String := (STANDARD_CRON_WEEKDAYS[day]?).getD ""

theorem mem_pyRange {start stop step v : Nat} : v ∈ pyRange start stop step ↔
    start ≤ v ∧ v < stop ∧ step ∣ v - start := by
  rw [pyRange, List.mem_filter, List.mem_range'_1, decide_eq_true_eq, Nat.dvd_iff_mod_eq_zero]
  omega

theorem weekdayName_of : ∀ value ≤ 7, weekdayName value = .ok (weekday (value % 7)) := by decide

theorem weekdayNames_of : ∀ {values : List Nat}, (∀ v ∈ values, v ≤ 7) →
    weekdayNames values = .ok (values.map fun v => weekday (v % 7))
  | [], _ => rfl
  | value :: values, h => by
    obtain ⟨hv, hrest⟩ := List.forall_mem_cons.mp h
    rw [weekdayNames, weekdayName_of value hv, weekdayNames_of hrest]
    rfl

/-- The names are those of the weekdays the item denotes, or `*` where it denotes all. -/
def Names (names : List String) (i : Item) : Prop :=
  (names = ["*"] ∧ i = .all none) ∨
    names ≠ [] ∧ ∀ name, name ∈ names ↔ ∃ day, i.days day ∧ name = weekday day

/-- The names of a range are those of the item with its values. -/
theorem names_of_values {i : Item} {values : List Nat} (hne : values ≠ [])
    (h : ∀ day, (∃ v ∈ values, v % 7 = day) ↔ i.days day) :
    Names (values.map fun v => weekday (v % 7)) i := by
  refine .inr ⟨by simpa using hne, fun name => ?_⟩
  rw [List.mem_map]
  constructor
  · rintro ⟨v, hv, rfl⟩
    exact ⟨v % 7, (h _).mp ⟨v, hv, rfl⟩, rfl⟩
  · rintro ⟨day, hday, rfl⟩
    obtain ⟨v, hv, rfl⟩ := (h day).mpr hday
    exact ⟨v, hv, rfl⟩

theorem expandSpan_ok {start stop step : Nat} {names : List String} (hseven : stop ≤ 7)
    (h : expandSpan start stop step = .ok names) : 0 < step ∧ start ≤ stop ∧
      names = (pyRange start (stop + 1) step).map fun v => weekday (v % 7) := by
  unfold expandSpan at h
  split at h
  · cases h
  split at h
  · cases h
  split at h
  · cases h
  split at h
  · cases h
  rw [weekdayNames_of fun v hv => by
    have := mem_pyRange.mp hv
    omega] at h
  exact ⟨by omega, by omega, (Except.ok.inj h).symm⟩

/-- What is expanded of a span is the item's. -/
theorem names_span {i : Item} {names : List String} (hi : i.Valid)
    (hnames : names = (pyRange i.start (i.stop + 1) i.step).map fun v => weekday (v % 7)) : Names names i := by
  rw [hnames]
  refine names_of_values (List.ne_nil_of_mem (mem_pyRange.mpr ⟨le_refl i.start, ?_, ?_⟩)) fun day => ?_
  · have := hi.order
    omega
  · rw [Nat.sub_self]
    exact dvd_zero _
  · constructor
    · rintro ⟨v, hv, rfl⟩
      obtain ⟨hlo, hhi, hdvd⟩ := mem_pyRange.mp hv
      exact ⟨v, hlo, by omega, hdvd, rfl⟩
    · rintro ⟨v, hlo, hhi, hdvd, rfl⟩
      exact ⟨v, mem_pyRange.mpr ⟨hlo, by omega, hdvd⟩, rfl⟩

/-- `*` with a step reaches 7 only where it reaches 0 as well. -/
theorem names_all (step : Nat) :
    Names ((pyRange 0 7 step).map fun v => weekday (v % 7)) (.all (some step)) := by
  refine names_of_values (List.ne_nil_of_mem (mem_pyRange.mpr ⟨le_refl 0, by omega, ?_⟩)) fun day => ?_
  · exact dvd_zero _
  · constructor
    · rintro ⟨v, hv, rfl⟩
      obtain ⟨hlo, hhi, hdvd⟩ := mem_pyRange.mp hv
      exact ⟨v, hlo, hhi.le, hdvd, rfl⟩
    · rintro ⟨v, hlo, hhi, hdvd, rfl⟩
      by_cases h7 : v = 7
      · exact ⟨0, mem_pyRange.mpr ⟨le_refl 0, by omega, dvd_zero _⟩, by rw [h7]⟩
      · have hle : v ≤ 7 := hhi
        exact ⟨v, mem_pyRange.mpr ⟨hlo, by omega, hdvd⟩, rfl⟩

theorem expandAll_ok {step : Option (List Char)} {names : List String} (hn : ∀ x ∈ step, Number x)
    (h : expandAll step = .ok names) :
    ∃ n : Option Nat, step.map readNumber = n.map some ∧ (Item.all n).Valid ∧ Names names (.all n) := by
  unfold expandAll at h
  cases step with
  | none => exact ⟨none, rfl, ⟨Nat.one_pos, Nat.zero_le 7, le_refl 7⟩, .inl ⟨(Except.ok.inj h).symm, rfl⟩⟩
  | some s =>
    cases hs : pyInt s with
    | error e => simp [hs] at h
    | ok n =>
      simp only [hs] at h
      split at h
      · cases h
      split at h
      · cases h
      rw [weekdayNames_of fun v hv => by
        have := mem_pyRange.mp hv
        omega] at h
      have hpos : 0 < n := by omega
      refine ⟨some n, by rw [Option.map_some, pyInt_number (hn s rfl) hs]; rfl,
        ⟨hpos, Nat.zero_le 7, le_refl 7⟩, ?_⟩
      rw [← Except.ok.inj h]
      exact names_all n

/-- The step that a span is read with. -/
theorem step_ok {step : Option (List Char)} {n : Nat} (hn : ∀ x ∈ step, Number x)
    (h : (match step with
      | some s => pyInt s
      | none => .ok 1) = .ok n) :
    ∃ m : Option Nat, step.map readNumber = m.map some ∧ m.getD 1 = n ∧ m.isSome = step.isSome := by
  cases step with
  | none => exact ⟨none, rfl, Except.ok.inj h, rfl⟩
  | some s => exact ⟨some n, by rw [Option.map_some, pyInt_number (hn s rfl) h]; rfl, rfl, rfl⟩

/-- The end that a span is read with. -/
theorem stop_ok {stop : Option (List Char)} {b other : Nat} (hst : ∀ x ∈ stop, Value x) (hother : other ≤ 7)
    (h : (match stop with
      | some e => endpointValue e
      | none => .ok other) = .ok b) :
    ∃ m : Option Nat, stop.map readValue = m.map some ∧ m.getD other = b ∧ b ≤ 7 := by
  cases stop with
  | none =>
    obtain rfl := Except.ok.inj h
    exact ⟨none, rfl, rfl, hother⟩
  | some e =>
    obtain ⟨hread, hle⟩ := endpointValue_ok (hst e rfl) h
    exact ⟨some b, by rw [Option.map_some, hread]; rfl, rfl, hle⟩

theorem expandMatch_ok {start : List Char} {stop step : Option (List Char)} {names : List String}
    (hs : Value start) (hst : ∀ x ∈ stop, Value x) (hn : ∀ x ∈ step, Number x)
    (h : expandMatch start stop step = .ok names) :
    ∃ (a : Nat) (b n : Option Nat), readValue start = some a ∧ stop.map readValue = b.map some ∧
      step.map readNumber = n.map some ∧ (Item.span a b n).Valid ∧ Names names (.span a b n) := by
  unfold expandMatch at h
  cases ha : endpointValue start with
  | error e => simp [ha] at h
  | ok a =>
    simp only [ha] at h
    split at h
    · cases h
    obtain ⟨hread, ha7⟩ := endpointValue_ok hs ha
    split at h
    · cases h
    · rename_i b hb
      split at h
      · cases h
      · rename_i n hn'
        have hother : (if step.isSome then 7 else a) ≤ 7 := by split <;> omega
        obtain ⟨mb, hmb, hgetb, hb7⟩ := stop_ok hst hother hb
        obtain ⟨mn, hmn, hgetn, hsome⟩ := step_ok hn hn'
        obtain ⟨hpos, hle, hnames⟩ := expandSpan_ok hb7 h
        have hstop : (Item.span a mb mn).stop = b := by rw [Item.stop, hsome, hgetb]
        have hstep : (Item.span a mb mn).step = n := hgetn
        have hvalid : (Item.span a mb mn).Valid :=
          ⟨by rw [hstep]; exact hpos, by rw [hstop]; exact hle, by rw [hstop]; exact hb7⟩
        refine ⟨a, mb, mn, hread, hmb, hmn, hvalid, names_span hvalid ?_⟩
        rw [hstop, hstep]
        exact hnames

/-- An item that is expanded is one of the grammar, and its names are the weekdays
it denotes. -/
theorem expandToken_spec {names : List String} (h : expandToken token = .ok names) :
    ∃ i, standardItem token = some i ∧ i.Valid ∧ Names names i := by
  unfold expandToken at h
  cases hall : fullmatch DOW_ALL_TOKEN token with
  | some g =>
    simp only [hall] at h
    obtain ⟨step, hn, rfl, rfl⟩ := mem_run_all.mp (fullmatch_some hall)
    have hget : Groups.get (step.map ((3 : Nat), ·)).toList 3 = step := by cases step <;> rfl
    rw [hget] at h
    obtain ⟨n, hnum, hvalid, hnames⟩ := expandAll_ok hn h
    have hread : readSpan ['*'] n = some (.all n) := rfl
    exact ⟨_, standardItem_of (by decide) hn hnum hread, hvalid, hnames⟩
  | none =>
    simp only [hall] at h
    cases htok : fullmatch DOW_TOKEN token with
    | none => simp [htok] at h
    | some g =>
      simp only [htok] at h
      obtain ⟨start, stop, step, hs, hst, hn, rfl, rfl⟩ := mem_run_token.mp (fullmatch_some htok)
      have hone : Groups.get ((1, start) :: ((stop.map ((2 : Nat), ·)).toList ++
          (step.map (3, ·)).toList)) 1 = some start := rfl
      have htwo : Groups.get ((1, start) :: ((stop.map ((2 : Nat), ·)).toList ++
          (step.map (3, ·)).toList)) 2 = stop := by cases stop <;> cases step <;> rfl
      have hthree : Groups.get ((1, start) :: ((stop.map ((2 : Nat), ·)).toList ++
          (step.map (3, ·)).toList)) 3 = step := by cases stop <;> cases step <;> rfl
      rw [hone, htwo, hthree, Option.getD_some] at h
      obtain ⟨a, b, n, ha, hb, hnum, hvalid, hnames⟩ := expandMatch_ok hs hst hn h
      refine ⟨_, ?_, hvalid, hnames⟩
      rw [← List.append_assoc]
      have hslash : ∀ {x}, Value x → '/' ∉ x := fun h => h.not_mem (by decide) (by decide)
      refine standardItem_of (fun hmem => ?_) hn hnum (readSpan_of hs hst ha hb)
      rcases List.mem_append.mp hmem with hmem | hmem
      · exact hslash hs hmem
      · cases stop with
        | none => cases hmem
        | some e =>
          rcases List.mem_cons.mp hmem with he | hmem
          · cases he
          · exact hslash (hst e rfl) hmem

/-! ## The list of names -/

variable {tokens : List String} {acc : List String × List String} {names : List String} {x : String}

/-- The weekdays seen are those of the tokens, each once. -/
structure Collected (acc : List String × List String) : Prop where
  seen : acc.2 = acc.1.filter (· ≠ "*")
  nodup : acc.2.Nodup

theorem mem_addName (hc : Collected acc) (name : String) :
    x ∈ (addName acc name).1 ↔ x ∈ acc.1 ∨ x = name := by
  unfold addName
  split
  · simp
  · split
    · next hseen =>
      rw [hc.seen] at hseen
      have hmem : name ∈ acc.1 := List.mem_of_mem_filter hseen
      exact ⟨.inl, fun h => h.elim id fun he => he ▸ hmem⟩
    · simp

theorem collected_addName (hc : Collected acc) (name : String) : Collected (addName acc name) := by
  unfold addName
  split
  · next hstar => exact ⟨by simp [hc.seen, hstar], hc.nodup⟩
  · split
    · exact hc
    · next hstar hnew =>
      refine ⟨by simp [hc.seen, hstar], ?_⟩
      rw [List.nodup_append]
      refine ⟨hc.nodup, List.nodup_singleton _, fun a ha b hb => ?_⟩
      rw [List.mem_singleton.mp hb]
      rintro rfl
      exact hnew ha

theorem mem_addNames : ∀ (names : List String) {acc : List String × List String}, Collected acc →
    (x ∈ (names.foldl addName acc).1 ↔ x ∈ acc.1 ∨ x ∈ names) ∧ Collected (names.foldl addName acc)
  | [], acc, hc => ⟨by simp, hc⟩
  | name :: names, acc, hc => by
    obtain ⟨hmem, hcol⟩ := mem_addNames names (collected_addName hc name)
    refine ⟨?_, hcol⟩
    rw [List.foldl_cons, hmem, mem_addName hc, List.mem_cons, or_assoc]

/-- What normalising a field collects. -/
theorem normalizeTokens_ok : ∀ {toks : List (List Char)} {acc : List String × List String},
    Collected acc → normalizeTokens toks acc = .ok tokens →
      (∀ tok ∈ toks, ∃ names, expandToken tok = .ok names) ∧ (tokens.filter (· ≠ "*")).Nodup ∧
        ∀ x, x ∈ tokens ↔ x ∈ acc.1 ∨ ∃ tok ∈ toks, ∃ names, expandToken tok = .ok names ∧ x ∈ names
  | [], acc, hc, h => by
    obtain rfl := Except.ok.inj h
    refine ⟨nofun, ?_, by simp⟩
    rw [← hc.seen]
    exact hc.nodup
  | tok :: toks, acc, hc, h => by
    unfold normalizeTokens at h
    cases ht : expandToken tok with
    | error e => simp [ht] at h
    | ok names =>
      simp only [ht] at h
      have hcol := (@mem_addNames "*" names _ hc).2
      obtain ⟨hall, hnodup, hmem⟩ := normalizeTokens_ok hcol h
      refine ⟨List.forall_mem_cons.mpr ⟨⟨names, ht⟩, hall⟩, hnodup, fun x => ?_⟩
      rw [hmem, (mem_addNames names hc).1]
      simp only [List.mem_cons, exists_eq_or_imp, ht, Except.ok.injEq, exists_eq_left', or_assoc]

/-! ## The field that is returned -/

theorem days_lt {i : Item} {day : Nat} (h : i.days day) : day < 7 := by
  obtain ⟨v, -, -, -, rfl⟩ := h
  exact Nat.mod_lt v (by decide)

theorem days_all {day : Nat} : (Item.all none).days day ↔ day < 7 := by
  refine ⟨days_lt, fun h => ⟨day, Nat.zero_le day, h.le, one_dvd _, Nat.mod_eq_of_lt h⟩⟩

theorem days_single {d day : Nat} (hd : d < 7) : (Item.span d none none).days day ↔ day = d := by
  constructor
  · rintro ⟨v, hlo, hhi, -, rfl⟩
    have hv : v = d := le_antisymm hhi hlo
    rw [hv, Nat.mod_eq_of_lt hd]
  · rintro rfl
    exact ⟨day, le_refl day, le_refl day, one_dvd _, Nat.mod_eq_of_lt hd⟩

/-- A property of the weekdays, checked one after the other. -/
theorem forall_weekday {p : Nat → Prop} [DecidablePred p]
    (h : (List.range 7).all (fun day => decide (p day)) = true) : ∀ day < 7, p day := fun day hday =>
  Text.forall_of_all h day (List.mem_range.mpr hday)

theorem weekday_ne_star : ∀ day < 7, weekday day ≠ "*" := by decide

theorem weekday_inj : ∀ d < 7, ∀ e < 7, weekday d = weekday e → d = e := by decide

theorem weekday_mem : ∀ day < 7, weekday day ∈ STANDARD_CRON_WEEKDAYS := by decide

theorem weekday_comma : ∀ day < 7, ',' ∉ (weekday day).toList := by decide

/-- Names are words: no name is empty or has a blank in it. -/
theorem weekday_word : ∀ day < 7, (weekday day).toList.all (fun c => !isSpace c) = true := by decide

theorem weekday_ne_nil : ∀ day < 7, (weekday day).toList ≠ [] := forall_weekday (by decide)

theorem standardItem_weekday : ∀ day < 7, standardItem (weekday day).toList = some (.span day none none) :=
  forall_weekday (by decide +kernel)

theorem expandToken_weekday : ∀ day < 7, expandToken (weekday day).toList = .ok [weekday day] :=
  forall_weekday (by decide +kernel)

theorem expandToken_star : expandToken "*".toList = .ok ["*"] := by decide +kernel

/-- A normalized token: `*` or the name of a weekday. -/
def Plain (x : String) : Prop := x = "*" ∨ ∃ day < 7, x = weekday day

theorem Plain.expand (h : Plain x) : expandToken x.toList = .ok [x] := by
  rcases h with rfl | ⟨day, hday, rfl⟩
  · exact expandToken_star
  · exact expandToken_weekday day hday

/-- The weekdays that normalized tokens stand for. -/
def Stand (tokens : List String) (day : Nat) : Prop := day < 7 ∧ ("*" ∈ tokens ∨ weekday day ∈ tokens)

theorem Names.plain {i : Item} (hn : Names names i) (hx : x ∈ names) : Plain x := by
  rcases hn with ⟨rfl, -⟩ | ⟨-, hn⟩
  · exact .inl (List.mem_singleton.mp hx)
  · obtain ⟨day, hday, rfl⟩ := (hn x).mp hx
    exact .inr ⟨day, days_lt hday, rfl⟩

theorem Names.stand {i : Item} (hn : Names names i) {day : Nat} : Stand names day ↔ i.days day := by
  rcases hn with ⟨rfl, rfl⟩ | ⟨-, hn⟩
  · simp [Stand, days_all]
  · have hstar : "*" ∉ names := fun h => by
      obtain ⟨d, hd, he⟩ := (hn "*").mp h
      exact weekday_ne_star d (days_lt hd) he.symm
    constructor
    · rintro ⟨hday, h | h⟩
      · exact absurd h hstar
      · obtain ⟨d, hd, he⟩ := (hn _).mp h
        rwa [weekday_inj day hday d (days_lt hd) he]
    · intro h
      exact ⟨days_lt h, .inr ((hn _).mpr ⟨day, h, rfl⟩)⟩

theorem Names.ne_nil {i : Item} (hn : Names names i) : names ≠ [] := by
  rcases hn with ⟨rfl, -⟩ | ⟨hne, -⟩
  · exact List.cons_ne_nil _ _
  · exact hne

/-- A field of normalized tokens is cut into them again. -/
theorem items_join (hne : tokens ≠ []) (hp : ∀ x ∈ tokens, Plain x) :
    items (joinWith "," tokens) = tokens.map String.toList := by
  rw [items, joinWith, String.toList_ofList, Text.join_eq_intercalate]
  refine List.splitOn_intercalate ',' (fun l hl => ?_) (by simpa using hne)
  obtain ⟨x, hx, rfl⟩ := List.mem_map.mp hl
  rcases hp x hx with rfl | ⟨day, hday, rfl⟩
  · decide
  · exact weekday_comma day hday

theorem denotes_join (hne : tokens ≠ []) (hp : ∀ x ∈ tokens, Plain x) {day : Nat} :
    Denotes (joinWith "," tokens) day ↔ Stand tokens day := by
  have hread : ∀ x ∈ tokens, (∃ i, standardItem x.toList = some i ∧ i.days day) ↔ Stand [x] day := by
    intro x hx
    rcases hp x hx with rfl | ⟨d, hd, rfl⟩
    · have hstar : standardItem "*".toList = some (.all none) := rfl
      rw [hstar]
      simp [Stand, days_all]
    · rw [standardItem_weekday d hd]
      simp only [Option.some.injEq, exists_eq_left', days_single hd, Stand, List.mem_singleton]
      constructor
      · rintro rfl
        exact ⟨hd, .inr rfl⟩
      · rintro ⟨hday, h | h⟩
        · exact absurd h.symm (weekday_ne_star d hd)
        · exact weekday_inj day hday d hd h
  rw [Denotes, items_join hne hp]
  constructor
  · rintro ⟨tok, htok, hi⟩
    obtain ⟨x, hx, rfl⟩ := List.mem_map.mp htok
    obtain ⟨hday, h⟩ := (hread x hx).mp hi
    simp only [List.mem_singleton] at h
    refine ⟨hday, h.imp (fun he => ?_) fun he => ?_⟩
    · rwa [he]
    · rwa [he]
  · rintro ⟨hday, h | h⟩
    · exact ⟨_, List.mem_map_of_mem h, (hread _ h).mpr ⟨hday, .inl (by simp)⟩⟩
    · exact ⟨_, List.mem_map_of_mem h, (hread _ h).mpr ⟨hday, .inr (by simp)⟩⟩

/-- Normalized tokens are collected as they stand. -/
theorem normalizeTokens_plain : ∀ {rest : List String} {acc : List String × List String}, Collected acc →
    (∀ x ∈ rest, Plain x) → ((acc.1 ++ rest).filter (· ≠ "*")).Nodup →
      normalizeTokens (rest.map String.toList) acc = .ok (acc.1 ++ rest)
  | [], acc, _, _, _ => by simp [normalizeTokens]
  | x :: rest, acc, hc, hp, hnodup => by
    obtain ⟨hx, hrest⟩ := List.forall_mem_cons.mp hp
    have hadd : (addName acc x).1 = acc.1 ++ [x] := by
      unfold addName
      split
      · rfl
      · next hstar =>
        rw [if_neg]
        intro hseen
        rw [hc.seen] at hseen
        rw [List.filter_append, List.filter_cons_of_pos (by simpa using hstar)] at hnodup
        exact (List.nodup_append.mp hnodup).2.2 _ hseen _ (List.mem_cons_self ..) rfl
    have happend : (addName acc x).1 ++ rest = acc.1 ++ x :: rest := by
      rw [hadd, List.append_assoc, List.singleton_append]
    rw [List.map_cons, normalizeTokens, hx.expand]
    show normalizeTokens (rest.map String.toList) (addName acc x) = _
    rw [normalizeTokens_plain (collected_addName hc x) hrest (by rwa [happend]), happend]

/-! ## Fields -/

/-- A word of a text: not empty, and no white space in it. -/
structure Word (w : List Char) : Prop where
  ne : w ≠ []
  solid : ∀ c ∈ w, isSpace c = false

theorem wordsGo_word (w rest : List Char) (h : ∀ c ∈ w, isSpace c = false) (acc : List Char) :
    wordsGo (w ++ rest) acc = wordsGo rest (w.reverse ++ acc) := by
  induction w generalizing acc with
  | nil => rfl
  | cons c w ih =>
    obtain ⟨hc, hw⟩ := List.forall_mem_cons.mp h
    rw [List.cons_append, wordsGo, hc, if_neg Bool.false_ne_true, ih hw, List.reverse_cons,
      List.append_assoc, List.singleton_append]

theorem words_of_wordsGo : ∀ (cs acc : List Char), (∀ c ∈ acc, isSpace c = false) →
    ∀ w ∈ wordsGo cs acc, Word w
  | [], acc, hacc, w, hw => by
    unfold wordsGo at hw
    split at hw
    · cases hw
    · next hne =>
      rw [List.mem_singleton.mp hw]
      exact ⟨by simpa using hne, fun c hc => hacc c (List.mem_reverse.mp hc)⟩
  | c :: cs, acc, hacc, w, hw => by
    unfold wordsGo at hw
    split at hw
    · split at hw
      · exact words_of_wordsGo cs [] nofun w hw
      · next hne =>
        rcases List.mem_cons.mp hw with rfl | hw
        · exact ⟨by simpa using hne, fun c hc => hacc c (List.mem_reverse.mp hc)⟩
        · exact words_of_wordsGo cs [] nofun w hw
    · next hc =>
      refine words_of_wordsGo cs (c :: acc) (List.forall_mem_cons.mpr ⟨?_, hacc⟩) w hw
      simpa using hc

theorem words_of_split {s w : String} (h : w ∈ split s) : Word w.toList := by
  obtain ⟨cs, hcs, rfl⟩ := List.mem_map.mp h
  rw [String.toList_ofList]
  exact words_of_wordsGo _ [] nofun cs hcs

/-- Words joined by blanks are the words. -/
theorem wordsGo_join : ∀ {ws : List (List Char)}, (∀ w ∈ ws, Word w) → wordsGo (Text.join [' '] ws) [] = ws
  | [], _ => rfl
  | [w], h => by
    have hw := h w (List.mem_singleton_self w)
    have hgo := wordsGo_word w [] hw.solid []
    rw [List.append_nil] at hgo
    rw [Text.join, hgo, List.append_nil, wordsGo, if_neg (by simpa using hw.ne), List.reverse_reverse]
  | w :: v :: ws, h => by
    obtain ⟨hw, hrest⟩ := List.forall_mem_cons.mp h
    have hblank : isSpace ' ' = true := rfl
    rw [Text.join, List.append_assoc, wordsGo_word w _ hw.solid, List.append_nil, List.singleton_append,
      wordsGo, if_pos hblank, if_neg (by simpa using hw.ne), List.reverse_reverse, wordsGo_join hrest]

/-- Fields joined by blanks are split again. -/
theorem split_joined {ws : List String} (h : ∀ w ∈ ws, Word w.toList) : split (joinWith " " ws) = ws := by
  have hwords : ∀ w ∈ ws.map String.toList, Word w := by simpa using h
  rw [split, joinWith, String.toList_ofList]
  refine (congrArg (List.map String.ofList) (wordsGo_join hwords)).trans ?_
  simp [Function.comp_def]

/-- The field of normalized tokens is a word. -/
theorem word_join (hne : tokens ≠ []) (hp : ∀ x ∈ tokens, Plain x) : Word (joinWith "," tokens).toList := by
  have hword : ∀ {x}, Plain x → Word x.toList := by
    rintro x (rfl | ⟨day, hday, rfl⟩)
    · exact ⟨by decide, Text.forall_of_all (by decide)⟩
    · exact ⟨weekday_ne_nil day hday, by simpa using List.all_eq_true.mp (weekday_word day hday)⟩
  rw [joinWith, String.toList_ofList]
  obtain ⟨x, rest, rfl⟩ := List.exists_cons_of_ne_nil hne
  refine ⟨fun hnil => ?_, fun c hc => ?_⟩
  · have hx := (hword (hp x (List.mem_cons_self ..))).ne
    cases rest with
    | nil => exact hx hnil
    | cons y rest =>
      rw [List.map_cons, List.map_cons, Text.join, List.append_assoc] at hnil
      exact hx (List.append_eq_nil_iff.mp hnil).1
  · rcases Text.mem_join hc with hc | ⟨t, ht, hc⟩
    · rw [List.mem_singleton.mp hc]
      rfl
    · obtain ⟨y, hy, rfl⟩ := List.mem_map.mp ht
      exact (hword (hp y hy)).solid c hc

/-! ## The law -/

variable {cronExpression minute hour day month dayOfWeek result : String}

/-- What is normalized to tokens, read as a list of weekdays. -/
theorem tokens_spec (h : normalizeTokens (items dayOfWeek) ([], []) = .ok tokens) :
    (∀ tok ∈ items dayOfWeek, InGrammar tok) ∧ tokens ≠ [] ∧ (∀ x ∈ tokens, Plain x) ∧
      (tokens.filter (· ≠ "*")).Nodup ∧ ∀ d, Stand tokens d ↔ Denotes dayOfWeek d := by
  obtain ⟨hall, hnodup, hmem⟩ := normalizeTokens_ok ⟨rfl, List.nodup_nil⟩ h
  simp only [List.not_mem_nil, false_or] at hmem
  refine ⟨fun tok htok => ?_, fun hnil => ?_, fun x hx => ?_, hnodup, fun d => ?_⟩
  · obtain ⟨names, hnames⟩ := hall tok htok
    obtain ⟨i, hi, hvalid, -⟩ := expandToken_spec hnames
    exact ⟨i, hi, hvalid⟩
  · -- there is an item, and it is expanded to something
    obtain ⟨tok, rest, htoks⟩ := List.exists_cons_of_ne_nil (List.splitOn_ne_nil ',' dayOfWeek.toList)
    have htok : tok ∈ items dayOfWeek := by
      rw [items, htoks]
      exact List.mem_cons_self ..
    obtain ⟨names, hnames⟩ := hall tok htok
    obtain ⟨i, -, -, hn⟩ := expandToken_spec hnames
    obtain ⟨x, hx⟩ := List.exists_mem_of_ne_nil names hn.ne_nil
    have := (hmem x).mpr ⟨tok, htok, names, hnames, hx⟩
    rw [hnil] at this
    cases this
  · obtain ⟨tok, -, names, hnames, hx⟩ := (hmem x).mp hx
    obtain ⟨i, -, -, hn⟩ := expandToken_spec hnames
    exact hn.plain hx
  · constructor
    · rintro ⟨hd, hx⟩
      obtain ⟨x, hxt, hstand⟩ : ∃ x ∈ tokens, ∀ names : List String, x ∈ names → Stand names d := by
        rcases hx with hx | hx
        · exact ⟨_, hx, fun _ h => ⟨hd, .inl h⟩⟩
        · exact ⟨_, hx, fun _ h => ⟨hd, .inr h⟩⟩
      obtain ⟨tok, htok, names, hnames, hxn⟩ := (hmem x).mp hxt
      obtain ⟨i, hi, -, hn⟩ := expandToken_spec hnames
      exact ⟨tok, htok, i, hi, hn.stand.mp (hstand names hxn)⟩
    · rintro ⟨tok, htok, i, hi, hdays⟩
      obtain ⟨names, hnames⟩ := hall tok htok
      obtain ⟨j, hj, -, hn⟩ := expandToken_spec hnames
      obtain rfl := Option.some.inj (hi.symm.trans hj)
      obtain ⟨hd, hx⟩ := hn.stand.mpr hdays
      exact ⟨hd, hx.imp (fun hx => (hmem _).mpr ⟨tok, htok, names, hnames, hx⟩)
        fun hx => (hmem _).mpr ⟨tok, htok, names, hnames, hx⟩⟩

/-- Normalising an expression of five fields. -/
theorem normalize_five (h5 : split cronExpression = [minute, hour, day, month, dayOfWeek]) :
    normalizeCrontabDayOfWeek cronExpression =
      match normalizeTokens (items dayOfWeek) ([], []) with
      | .error e => .error e
      | .ok tokens => .ok (joinWith " " [minute, hour, day, month, joinWith "," tokens]) := by
  rw [normalizeCrontabDayOfWeek, h5]

example : normalizeCrontabDayOfWeek "0 9 * * MON-FRI/2,6-7" = .ok "0 9 * * mon,wed,fri,sat,sun" := by
  decide +kernel

end BidScope.L4
