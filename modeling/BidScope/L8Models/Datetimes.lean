import BidScope.L8Models.Budgets

/-!
# Datetimes in a text

`parse_datetime` (`snapshots/_parse.py`) hands what begins like an ISO date with
a full clock to `datetime.fromisoformat`, reads the Chinese year, month and day
marks by a pattern whose clock is optional and has ASCII colons, and refuses the
rest. A `PrintedTime` prints a day in one of the two styles, with or without a
clock and an offset.

* `takes_clockRe`, `fails_clockRe`: which clocks the Chinese pattern sees.
* `clockHead_of_isoRe`: what the ISO pattern asks of the text behind the day.
* `hhMmSsFf_clock`, `zoneOf_offset`: a printed clock and a printed offset are
  read as they are.
-/
namespace BidScope.L8

open BidScope.L1 Regex

/-! ## `datetime` -/

def isLeap (year : Nat) : Bool := year % 4 == 0 && (year % 100 != 0 || year % 400 == 0)

def monthDays (year : Nat) : List Nat :=
  [31, if isLeap year then 29 else 28, 31, 30, 31, 30, 31, 31, 30, 31, 30, 31]

def daysInMonth (year month : Nat) : Nat := (monthDays year).getD (month - 1) 0

/-- `date.toordinal`: the first of January of the year 1 is day 1. -/
def toordinal (year month day : Nat) : Nat :=
  let y := year - 1
  y * 365 + y / 4 - y / 100 + y / 400 + ((monthDays year).take (month - 1)).sum + day

def MICROS : Int := 1000000

/-- A `datetime`; `tz` is its offset in microseconds. -/
structure Stamp where
  year : Nat
  month : Nat
  day : Nat
  hour : Nat
  minute : Nat
  second : Nat
  micro : Nat
  tz : Option Int
  deriving DecidableEq, Repr

/-- What a clock with its offset denotes; without one it is a clock only. -/
inductive Moment where
  | instant (utc : Int)
  | naive (clock : Int)
  deriving DecidableEq, Repr

def Moment.of (clock : Int) : Option Int → Moment
  | some tz => .instant (clock - tz)
  | none => .naive clock

/-- Seconds of the day. -/
def secondsOf (hour minute second : Nat) : Int := (hour * 60 + minute) * 60 + second

/-- Microseconds on a clock that began with day 0. -/
def clockOf (year month day : Nat) (seconds : Int) : Int :=
  (toordinal year month day * 86400 + seconds) * MICROS

def Stamp.moment (s : Stamp) : Moment :=
  .of (clockOf s.year s.month s.day (secondsOf s.hour s.minute s.second) + s.micro) s.tz

/-- A day of the calendar from the year 1 to 9999. -/
def ValidDay (year month day : Nat) : Prop :=
  (1 ≤ year ∧ year ≤ 9999) ∧ (1 ≤ month ∧ month ≤ 12) ∧ 1 ≤ day ∧ day ≤ daysInMonth year month

instance : Decidable (ValidDay y m d) := by unfold ValidDay; infer_instance

/-- `datetime(...)`; `none` is a `ValueError`. -/
def newDatetime (s : Stamp) : Option Stamp :=
  if ValidDay s.year s.month s.day ∧ s.hour ≤ 23 ∧ s.minute ≤ 59 ∧ s.second ≤ 59 then some s else none

/-! ## `datetime.fromisoformat` -/

/-- Two digits of ASCII and the text behind them. -/
def twoDigits : List Char → Option (Nat × List Char)
  | a :: b :: s => if a.isDigit && b.isDigit then some (natOf [a, b], s) else none
  | _ => none

def expect (c : Char) : List Char → Option (List Char)
  | d :: s => if d = c then some s else none
  | [] => none

/-- Six digits are read as microseconds, those behind them are dropped. The flag
says that text is left. -/
def fractionOf (s : List Char) : Option (Nat × Bool) :=
  let read := s.take 6
  let rest := (s.drop 6).dropWhile Char.isDigit
  if read.all Char.isDigit then some (natOf read * 10 ^ (6 - read.length), rest.head?.any (· != '\x00'))
  else none

/-- The fields, the microseconds, and whether text is left. -/
structure Fields where
  values : List Nat
  micro : Nat
  left : Bool
  deriving DecidableEq, Repr

def Fields.push (v : Nat) (f : Fields) : Fields := { f with values := v :: f.values }

/-- At most `n` more fields; `colons` says whether the first was followed by a
colon. One character of ASCII behind a field ends the text, whichever it is. -/
def fieldsGo : Nat → Option Bool → List Char → Option Fields
  | 0, _, s => (fractionOf s).map fun f => ⟨[], f.1, f.2⟩
  | n + 1, colons, s =>
    match twoDigits s with
    | none => none
    | some (v, []) => some ⟨[v], 0, false⟩
    | some (v, [c]) => if c.toNat < 128 then some ⟨[v], 0, c != '\x00'⟩ else none
    | some (v, c :: rest) =>
      let colons := colons.getD (c == ':')
      if colons && c == ':' then (fieldsGo n (some colons) rest).map (Fields.push v)
      else if c = '.' ∨ c = ',' then (fractionOf rest).map fun f => ⟨[v], f.1, f.2⟩
      else if colons then none
      else (fieldsGo n (some colons) (c :: rest)).map (Fields.push v)

/-- `HH[:MM[:SS[.f]]]`, with all the colons or with none. -/
def hhMmSsFf (s : List Char) : Option Fields := fieldsGo 3 none s

def Fields.seconds (f : Fields) : Int :=
  secondsOf (f.values.getD 0 0) (f.values.getD 1 0) (f.values.getD 2 0)

def isZoneMark (c : Char) : Bool := c == '+' || c == '-' || c == 'Z'

/-- The offset; an offset of a day or more is a `ValueError`, and one of less than a
second is UTC. Text left in front of it is not looked at. -/
def zoneOf (left : Bool) : List Char → Option (Option Int)
  | [] => if left then none else some none
  | sign :: rest =>
    if sign = 'Z' then if rest.head?.any (· != '\x00') then none else some (some 0)
    else
      match hhMmSsFf rest with
      | none => none
      | some f =>
        let size := if f.seconds = 0 then 0 else f.seconds * MICROS + f.micro
        if f.left then none
        else if size < 86400 * MICROS then some (some (if sign = '-' then -size else size))
        else none

/-- `datetime.fromisoformat` of a text that begins as `_ISO_RE` asks; `none` is
a `ValueError`. -/
def fromisoformat (s : List Char) : Option Stamp := do
  let (century, s) ← twoDigits s
  let (year, s) ← twoDigits s
  let s ← expect '-' s
  let (month, s) ← twoDigits s
  let s ← expect '-' s
  let (day, s) ← twoDigits s
  let time := s.drop 1
  let f ← hhMmSsFf (time.takeWhile fun c => !isZoneMark c)
  let tz ← zoneOf f.left (time.dropWhile fun c => !isZoneMark c)
  newDatetime ⟨century * 100 + year, month, day, f.values.getD 0 0, f.values.getD 1 0,
    f.values.getD 2 0, f.micro, tz⟩

/-! ## `parse_datetime` -/

/-- The offset of China time. -/
def CHN_TZ : Int := 28800 * MICROS

def charRe (c : Char) : Re Char := .sym (· == c)

/-- `\d{2}` -/
def twoRe : Re Char := .sym isDecimal ++ .sym isDecimal

/-- `\d{4}` -/
def fourRe : Re Char := twoRe ++ twoRe

/-- `\d{1,2}` -/
def upToTwoRe : Re Char := .sym isDecimal ++ .opt (.sym isDecimal)

/-- mirrors snapshots/_parse.py:75 -/
def isoRe : Re Char :=
  fourRe ++ charRe '-' ++ twoRe ++ charRe '-' ++ twoRe ++ .sym (fun c => c == 'T' || c == ' ') ++
    twoRe ++ charRe ':' ++ twoRe ++ charRe ':' ++ twoRe

/-- `\s*(\d{1,2}):(\d{2})(?::(\d{2}))?` -/
def clockRe : Re Char :=
  .many isSpace ++ .group 4 upToTwoRe ++ charRe ':' ++ .group 5 twoRe ++
    .opt (charRe ':' ++ .group 6 twoRe)

/-- mirrors snapshots/_parse.py:76-78 -/
def chineseDtRe : Re Char :=
  .group 1 fourRe ++ charRe '年' ++ .group 2 upToTwoRe ++ charRe '月' ++ .group 3 upToTwoRe ++
    charRe '日' ++ .opt clockRe

/-- `int(match.group(n)) if match.group(n) else 0` -/
def groupNat (g : Groups Char) (n : Nat) : Nat := natOf ((g.get n).getD [])

/-- `.error ()` is a `ValueError`.

mirrors snapshots/_parse.py:81-106 -/
def parseDatetime (raw : Option String) : Except Unit (Option Stamp) :=
  match raw with
  | none => .ok none
  | some raw =>
    let raw := strip raw
    if raw = "" then .ok none
    else if (run isoRe raw.toList).head?.isSome then
      match fromisoformat raw.toList with
      | none => .error ()
      | some s => .ok (some s)
    else
      match (run chineseDtRe raw.toList).head? with
      | none => .ok none
      | some (g, _) =>
        match newDatetime ⟨groupNat g 1, groupNat g 2, groupNat g 3, groupNat g 4, groupNat g 5,
            groupNat g 6, 0, some CHN_TZ⟩ with
        | none => .error ()
        | some s => .ok (some s)

/-! ## Renderings of an instant -/

/-- White space. -/
abbrev Blanks := { cs : List Char // ∀ c ∈ cs, isSpace c = true }

theorem no_blanks : ∀ c ∈ ([] : List Char), isSpace c = true := nofun

def Blanks.none : Blanks := ⟨[], no_blanks⟩

theorem space_blank : ∀ c ∈ [' '], isSpace c = true := List.forall_mem_singleton.mpr (by decide)

def Blanks.space : Blanks := ⟨[' '], space_blank⟩

structure Day where
  year : Nat
  month : Nat
  day : Nat
  valid : ValidDay year month day

/-- How the day is written: `2026-07-01` or with 年, 月 and 日. -/
inductive DateText where
  | dashes
  | marks (padMonth padDay : Bool)

/-- What stands between the day and the clock. -/
inductive Gap where
  | t
  | blanks (b : Blanks)

/-- A time of day, with colons of ASCII or wide ones, or with 时, 分 and 秒. -/
inductive TimeText where
  | colons (wide padHour : Bool) (hour : Fin 24) (minute : Fin 60) (second : Option (Fin 60))
  | marks (pad : Bool) (hour : Fin 24) (minute : Option (Fin 60 × Option (Fin 60)))

inductive OffsetText where
  | zulu
  | hours (east : Bool) (hour : Fin 24)
  | minutes (east colon : Bool) (hour : Fin 24) (minute : Fin 60)

structure PrintedTime where
  lead : Blanks
  day : Day
  date : DateText
  time : Option (Gap × TimeText)
  offset : Option (Blanks × OffsetText)
  trail : Blanks

/-- Two digits. -/
def two (n : Nat) : List Char := [(n / 10).digitChar, (n % 10).digitChar]

/-- One digit where the number has one and is not padded. -/
def number (pad : Bool) (n : Nat) : List Char := if n < 10 ∧ pad = false then [n.digitChar] else two n

def DateText.chars (d : Day) : DateText → List Char
  | .dashes => two (d.year / 100) ++ two (d.year % 100) ++ '-' :: two d.month ++ '-' :: two d.day
  | .marks padMonth padDay =>
    two (d.year / 100) ++ two (d.year % 100) ++ '年' :: number padMonth d.month ++
      '月' :: number padDay d.day ++ ['日']

def Gap.chars : Gap → List Char
  | .t => ['T']
  | .blanks b => b.1

def colon (wide : Bool) : Char := if wide then '：' else ':'

def TimeText.chars : TimeText → List Char
  | .colons wide padHour hour minute second =>
    number padHour hour ++ colon wide :: two minute ++ second.elim [] fun s => colon wide :: two s
  | .marks pad hour minute =>
    number pad hour ++ '时' :: minute.elim [] fun m =>
      number pad m.1 ++ '分' :: m.2.elim [] fun s => number pad s ++ ['秒']

def sign (east : Bool) : Char := if east then '+' else '-'

def OffsetText.chars : OffsetText → List Char
  | .zulu => ['Z']
  | .hours east hour => sign east :: two hour
  | .minutes east colon hour minute => sign east :: two hour ++ (if colon then [':'] else []) ++ two minute

/-- The time of day in seconds. -/
def TimeText.seconds : TimeText → Int
  | .colons _ _ hour minute second => secondsOf hour minute (second.elim 0 (·.val))
  | .marks _ hour minute =>
    secondsOf hour (minute.elim 0 (·.1.val)) ((minute.bind (·.2)).elim 0 (·.val))

def OffsetText.seconds : OffsetText → Int
  | .zulu => 0
  | .hours east hour => if east then secondsOf hour 0 0 else -secondsOf hour 0 0
  | .minutes east _ hour minute => if east then secondsOf hour minute 0 else -secondsOf hour minute 0

namespace PrintedTime

def timeChars (r : PrintedTime) : List Char := r.time.elim [] fun t => t.1.chars ++ t.2.chars

def offsetChars (r : PrintedTime) : List Char := r.offset.elim [] fun o => o.1.1 ++ o.2.chars

def chars (r : PrintedTime) : List Char := r.date.chars r.day ++ (r.timeChars ++ r.offsetChars)

def text (r : PrintedTime) : String := .ofList (r.lead.1 ++ (r.chars ++ r.trail.1))

/-- The time of day that is printed; the day begins at midnight. -/
def seconds (r : PrintedTime) : Int := r.time.elim 0 (·.2.seconds)

/-- The offset that is printed; the Chinese form is in China time without one. -/
def tz (r : PrintedTime) : Option Int :=
  match r.offset, r.date with
  | some o, _ => some (o.2.seconds * MICROS)
  | none, .marks .. => some CHN_TZ
  | none, .dashes => none

/-- What the text denotes. -/
def moment (r : PrintedTime) : Moment := .of (clockOf r.day.year r.day.month r.day.day r.seconds) r.tz

end PrintedTime

/-! ## Digits of a rendering -/

theorem isDigit_digitChar : ∀ {k : Nat}, k < 10 → k.digitChar.isDigit = true := by decide

theorem decimal_digitChar : ∀ {k : Nat}, k < 10 → L3.decimal k.digitChar = some k := by decide

variable {n : Nat} {s t u : List Char} {p : Bool}

theorem isDigit_two (h : n < 100) : (n / 10).digitChar.isDigit = true ∧ (n % 10).digitChar.isDigit = true :=
  ⟨isDigit_digitChar (by omega), isDigit_digitChar (Nat.mod_lt _ (by decide))⟩

theorem natOf_two (h : n < 100) : natOf (two n) = n := by
  simp only [natOf, two, List.foldl_cons, List.foldl_nil, decimal_digitChar (show n / 10 < 10 by omega),
    decimal_digitChar (Nat.mod_lt n (show 0 < 10 by decide)), Option.getD_some]
  omega

theorem natOf_number (h : n < 100) : natOf (number p n) = n := by
  unfold number
  split
  · next hn => simp only [natOf, List.foldl_cons, List.foldl_nil, decimal_digitChar hn.1, Option.getD_some,
      Nat.mul_zero, Nat.zero_add]
  · exact natOf_two h

theorem twoDigits_two (h : n < 100) : twoDigits (two n ++ s) = some (n, s) := by
  have hnat := natOf_two h
  rw [two] at hnat
  simp only [twoDigits, two, List.cons_append, List.nil_append, (isDigit_two h).1, (isDigit_two h).2,
    Bool.and_self, if_true, hnat]

theorem isDigit_number (h : n < 100) : ∀ c ∈ number p n, c.isDigit = true := by
  intro c hc
  unfold number at hc
  split at hc
  · next hn =>
    rw [List.mem_singleton.mp hc]
    exact isDigit_digitChar hn.1
  · simp only [two, List.mem_cons, List.not_mem_nil, or_false] at hc
    rcases hc with rfl | rfl
    · exact (isDigit_two h).1
    · exact (isDigit_two h).2

theorem isDecimal_of_isDigit {c : Char} (h : c.isDigit = true) : isDecimal c = true :=
  digits_isDigit c h

/-! ## The patterns on a rendering -/

theorem takes_twoRe (h : n < 100) : Takes twoRe (two n ++ t) [] t :=
  takes_seq (takes_sym (isDecimal_of_isDigit (isDigit_two h).1))
    (takes_sym (isDecimal_of_isDigit (isDigit_two h).2))

theorem takes_fourRe {m : Nat} (hn : n < 100) (hm : m < 100) : Takes fourRe (two n ++ two m ++ t) [] t := by
  rw [List.append_assoc]
  exact takes_seq (takes_twoRe hn) (takes_twoRe hm)

theorem takes_upToTwoRe (h : n < 100) (ht : Stops isDecimal t) :
    Takes upToTwoRe (number p n ++ t) [] t := by
  unfold number
  split
  · next hn =>
    exact takes_seq (takes_sym (isDecimal_of_isDigit (isDigit_digitChar hn.1)))
      (takes_opt_none (fails_sym ht))
  · exact takes_seq (takes_sym (isDecimal_of_isDigit (isDigit_two h).1))
      (takes_opt (takes_sym (isDecimal_of_isDigit (isDigit_two h).2)))

theorem leaves_twoRe {a b : Char} : Leaves twoRe (a :: b :: t) (· = t) := by
  refine leaves_seq leaves_sym ?_
  rintro u ⟨c, -, hu⟩
  obtain ⟨-, rfl⟩ := List.cons.inj hu
  refine leaves_sym.imp ?_
  rintro v ⟨d, -, hv⟩
  exact (List.cons.inj hv).2.symm

theorem leaves_fourRe {m : Nat} : Leaves fourRe (two n ++ two m ++ t) (· = t) := by
  rw [List.append_assoc]
  refine leaves_seq leaves_twoRe ?_
  rintro u rfl
  exact leaves_twoRe

theorem takes_charRe {c : Char} : Takes (charRe c) (c :: t) [] t := takes_sym (beq_self_eq_true c)

theorem fails_charRe {c d : Char} (h : d ≠ c) : Fails (charRe c) (d :: t) :=
  fails_sym (stops_cons.mpr (beq_eq_false_iff_ne.mpr h))

theorem not_isDecimal_of_isSpace {c : Char} (h : isSpace c = true) : isDecimal c = false := by
  cases hd : isDecimal c with
  | false => rfl
  | true => exact absurd (not_isSpace_of_isDecimal hd) (by rw [h]; exact Bool.noConfusion)

theorem ne_colon_of_isDecimal {c : Char} (h : isDecimal c = true) : c ≠ ':' := by
  rintro rfl
  exact absurd h (by decide)

theorem fails_upToTwoRe (h : Stops isDecimal t) : Fails upToTwoRe t := fails_seq_left (fails_sym h)

/-- What the digits of a number leave is the text behind it or one of its digits. -/
theorem leaves_number {c : Char} (hc : isDecimal c = false) (hcolon : c ≠ ':') :
    Leaves upToTwoRe (number p n ++ c :: t) (Stops (· == ':')) := by
  have hbehind : Stops (· == ':') (c :: t) := stops_cons.mpr (beq_eq_false_iff_ne.mpr hcolon)
  refine leaves_seq leaves_sym ?_
  rintro u ⟨d, -, hu⟩
  unfold number at hu
  split at hu
  · obtain ⟨-, rfl⟩ := List.cons.inj hu
    exact leaves_opt (leaves_of_fails (fails_sym (stops_cons.mpr hc))) hbehind
  · obtain ⟨-, rfl⟩ := List.cons.inj hu
    refine leaves_opt ?_ ?_
    · refine leaves_sym.imp ?_
      rintro v ⟨e, -, hv⟩
      obtain ⟨-, rfl⟩ := List.cons.inj hv
      exact hbehind
    · have hdigit : isDecimal (n % 10).digitChar = true :=
        isDecimal_of_isDigit (isDigit_digitChar (Nat.mod_lt _ (by decide)))
      exact stops_cons.mpr (beq_eq_false_iff_ne.mpr (ne_colon_of_isDecimal hdigit))

/-- Without one or two digits and a colon behind the blanks the clock is not seen. -/
theorem fails_clockRe (b : Blanks) (hstop : Stops isSpace t)
    (h : Leaves upToTwoRe t (Stops (· == ':'))) : Fails clockRe (b.1 ++ t) := by
  refine fails_seq_left (fails_seq_left (fails_seq (leaves_seq (leaves_many b.2 hstop) ?_)))
  rintro u (rfl | ⟨c, v, rfl, hc⟩)
  · exact (leaves_group h).imp fun v hv => fails_sym hv
  · have hdec : Stops isDecimal (c :: v) := stops_cons.mpr (not_isDecimal_of_isSpace hc)
    exact leaves_of_fails (fails_group (fails_upToTwoRe hdec))

theorem stops_space_number (h : n < 100) : Stops isSpace (number p n ++ t) := by
  have hdigit := isDigit_number (p := p) h
  cases hn : number p n with
  | nil =>
    unfold number at hn
    split at hn <;> cases hn
  | cons c s =>
    rw [hn] at hdigit
    exact stops_cons.mpr (digits_isDigit.not_isSpace (hdigit c (List.mem_cons_self ..)))

theorem takes_clockRe {h m : Nat} (b : Blanks) (hh : h < 100) (hm : m < 100) (second : Option (Fin 60))
    (ht : Stops (· == ':') t) :
    Takes clockRe (b.1 ++ (number p h ++ ':' :: (two m ++ (second.elim [] (fun s => ':' :: two s) ++ t))))
      ((4, number p h) :: (5, two m) :: second.elim [] fun s => [(6, two s)]) t := by
  have hhour : Takes (.group 4 upToTwoRe) _ _ _ :=
    takes_group (takes_upToTwoRe (p := p) hh (t := ':' :: (two m ++ (second.elim [] (fun s => ':' :: two s) ++ t)))
      (stops_cons.mpr (by decide)))
  have hsecond : Takes (.opt (charRe ':' ++ .group 6 twoRe)) (second.elim [] (fun s => ':' :: two s) ++ t)
      (second.elim [] fun s => [(6, two s)]) t := by
    cases second with
    | none => exact takes_opt_none (fails_seq_left (fails_sym ht))
    | some s => exact takes_opt (takes_seq takes_charRe (takes_group (takes_twoRe (by omega))))
  have hmany := takes_many b.2 (stops_space_number (p := p) hh
    (t := ':' :: (two m ++ (second.elim [] (fun s => ':' :: two s) ++ t))))
  exact takes_seq (takes_seq (takes_seq (takes_seq hmany hhour) takes_charRe)
    (takes_group (takes_twoRe hm))) hsecond

theorem mem_run_twoRe {g : Groups Char} (h : (g, t) ∈ run twoRe s) :
    ∃ a b, isDecimal a = true ∧ isDecimal b = true ∧ s = a :: b :: t := by
  obtain ⟨_, u, _, hleft, hright, -⟩ := mem_run_seq.mp h
  obtain ⟨-, a, ha, rfl⟩ := mem_run_sym.mp hleft
  obtain ⟨-, b, hb, rfl⟩ := mem_run_sym.mp hright
  exact ⟨a, b, ha, hb, rfl⟩

theorem mem_run_charRe {c : Char} {g : Groups Char} (h : (g, t) ∈ run (charRe c) s) : s = c :: t := by
  obtain ⟨-, d, hd, rfl⟩ := mem_run_sym.mp h
  rw [beq_iff_eq.mp hd]

/-- Two digits and a colon are a number of two digits and the character behind it. -/
theorem number_colon {c h h' : Char} (hs : number p n ++ c :: s = h :: h' :: ':' :: t)
    (hh' : isDecimal h' = true) (hc : isDecimal c = false) : number p n = two n ∧ c = ':' ∧ s = t := by
  unfold number at hs ⊢
  split at hs
  · simp only [List.cons_append, List.nil_append, List.cons.injEq] at hs
    rw [hs.2.1, hh'] at hc
    cases hc
  · next hn =>
    simp only [two, List.cons_append, List.nil_append, List.cons.injEq] at hs
    exact ⟨if_neg hn, hs.2.2⟩

theorem time_head (time : TimeText) : ∃ c s, time.chars = c :: s ∧ isDecimal c = true := by
  have hhead : ∀ (p : Bool) (hour : Fin 24) (s : List Char), ∃ c t, number p hour ++ s = c :: t ∧
      isDecimal c = true := by
    intro p hour s
    have hdigit := isDigit_number (p := p) (n := hour) (by omega)
    cases hn : number p hour with
    | nil =>
      unfold number at hn
      split at hn <;> cases hn
    | cons c t => exact ⟨c, t ++ s, rfl, isDecimal_of_isDigit (hdigit c (hn ▸ List.mem_cons_self ..))⟩
  cases time with
  | colons wide padHour hour minute second =>
    obtain ⟨c, t, hs, hc⟩ := hhead padHour hour (colon wide :: two minute ++ second.elim [] fun s => colon wide :: two s)
    exact ⟨c, t, by rw [TimeText.chars, List.append_assoc, hs], hc⟩
  | marks pad hour minute => exact hhead pad hour _

/-- A separator and a clock of two digits each with ASCII colons. -/
def ClockHead (s : List Char) : Prop := ∃ sep h h' m m' x x' t,
  s = sep :: h :: h' :: ':' :: m :: m' :: ':' :: x :: x' :: t ∧ (sep = 'T' ∨ sep = ' ') ∧
    isDecimal h = true ∧ isDecimal h' = true

theorem clockHead_of_isoRe {g : Groups Char} {a b c d e f a' b' : Char}
    (h : (g, t) ∈ run isoRe (a :: b :: c :: d :: '-' :: e :: f :: '-' :: a' :: b' :: s)) : ClockHead s := by
  obtain ⟨_, _, _, h, hsecond, -⟩ := mem_run_seq.mp h
  obtain ⟨x, x', -, -, rfl⟩ := mem_run_twoRe hsecond
  obtain ⟨_, _, _, h, hcolon, -⟩ := mem_run_seq.mp h
  obtain rfl := mem_run_charRe hcolon
  obtain ⟨_, _, _, h, hminute, -⟩ := mem_run_seq.mp h
  obtain ⟨m, m', -, -, rfl⟩ := mem_run_twoRe hminute
  obtain ⟨_, _, _, h, hcolon, -⟩ := mem_run_seq.mp h
  obtain rfl := mem_run_charRe hcolon
  obtain ⟨_, _, _, h, hhour, -⟩ := mem_run_seq.mp h
  obtain ⟨h₁, h₂, hh₁, hh₂, rfl⟩ := mem_run_twoRe hhour
  obtain ⟨_, _, _, h, hsep, -⟩ := mem_run_seq.mp h
  obtain ⟨-, sep, hchar, rfl⟩ := mem_run_sym.mp hsep
  obtain ⟨_, _, _, h, hday, -⟩ := mem_run_seq.mp h
  obtain ⟨d₁, d₂, -, -, rfl⟩ := mem_run_twoRe hday
  obtain ⟨_, _, _, h, hdash, -⟩ := mem_run_seq.mp h
  obtain rfl := mem_run_charRe hdash
  obtain ⟨_, _, _, h, hmonth, -⟩ := mem_run_seq.mp h
  obtain ⟨m₁, m₂, -, -, rfl⟩ := mem_run_twoRe hmonth
  obtain ⟨_, _, _, h, hdash, -⟩ := mem_run_seq.mp h
  obtain rfl := mem_run_charRe hdash
  obtain ⟨_, _, _, hcentury, hyear, -⟩ := mem_run_seq.mp h
  obtain ⟨y₃, y₄, -, -, rfl⟩ := mem_run_twoRe hyear
  obtain ⟨y₁, y₂, -, -, hs⟩ := mem_run_twoRe hcentury
  simp only [List.cons.injEq, true_and] at hs
  obtain ⟨-, -, -, -, -, -, -, -, rfl⟩ := hs
  exact ⟨sep, h₁, h₂, m, m', x, x', t, rfl, by simpa using hchar, hh₁, hh₂⟩

/-! ## `fromisoformat` on a clock -/

theorem fieldsGo_end {k : Nat} {colons : Option Bool} (h : n < 100) :
    fieldsGo (k + 1) colons (two n) = some ⟨[n], 0, false⟩ := by
  have hread := twoDigits_two (s := []) h
  rw [List.append_nil] at hread
  simp only [fieldsGo, hread]

theorem fieldsGo_colon {k m : Nat} {c : Option Bool} (h : n < 100) (hc : c.getD true = true) :
    fieldsGo (k + 1) c (two n ++ ':' :: (two m ++ s)) =
      (fieldsGo k (some true) (two m ++ s)).map (Fields.push n) := by
  have hread := twoDigits_two (s := ':' :: (two m ++ s)) h
  have hcons : two m ++ s = (m / 10).digitChar :: (m % 10).digitChar :: s := rfl
  simp only [fieldsGo, hread]
  simp only [hcons, beq_self_eq_true, hc, Bool.and_self, if_true]

theorem fieldsGo_plain {k m : Nat} (h : n < 100) (hm : m < 100) :
    fieldsGo (k + 1) none (two n ++ two m) = (fieldsGo k (some false) (two m)).map (Fields.push n) := by
  have hread := twoDigits_two (s := two m) h
  have hdigit := (isDigit_two hm).1
  have hcolon : ((m / 10).digitChar == ':') = false := by
    rw [beq_eq_false_iff_ne]
    exact ne_colon_of_isDecimal (isDecimal_of_isDigit hdigit)
  have hpoint : ¬ ((m / 10).digitChar = '.' ∨ (m / 10).digitChar = ',') := by
    rintro (he | he) <;> rw [he] at hdigit <;> exact absurd hdigit (by decide)
  have hcons : two m = (m / 10).digitChar :: [(m % 10).digitChar] := rfl
  simp only [fieldsGo, hread]
  simp only [hcons, hcolon, Option.getD_none, Bool.false_and, if_neg hpoint, Bool.false_eq_true, if_false]

/-- Behind a clock white space ends the text or is refused. -/
theorem fieldsGo_blanks {k : Nat} {f : Fields} {b : List Char} (h : n < 100)
    (hb : ∀ c ∈ b, isSpace c = true) (hf : fieldsGo (k + 1) (some true) (two n ++ b) = some f) :
    f.values = [n] ∧ f.micro = 0 := by
  have hread := twoDigits_two (s := b) h
  rcases b with _ | ⟨c, _ | ⟨d, b⟩⟩
  · simp only [fieldsGo, hread, Option.some.injEq] at hf
    rw [← hf]
    exact ⟨rfl, rfl⟩
  · simp only [fieldsGo, hread] at hf
    split at hf
    · rw [← Option.some.inj hf]
      exact ⟨rfl, rfl⟩
    · cases hf
  · have hspace := hb c (List.mem_cons_self ..)
    have hcolon : (c == ':') = false := by
      rw [beq_eq_false_iff_ne]
      rintro rfl
      exact absurd hspace (by decide)
    have hpoint : ¬ (c = '.' ∨ c = ',') := by
      rintro (rfl | rfl) <;> exact absurd hspace (by decide)
    simp only [fieldsGo, hread, hcolon, Option.getD_some, Bool.true_and, Bool.false_eq_true, if_false,
      if_neg hpoint, if_true] at hf
    cases hf

theorem hhMmSsFf_clock {hour minute second : Nat} {f : Fields} {b : List Char} (hh : hour < 100)
    (hm : minute < 100) (hs : second < 100) (hb : ∀ c ∈ b, isSpace c = true)
    (hf : hhMmSsFf (two hour ++ ':' :: (two minute ++ ':' :: (two second ++ b))) = some f) :
    f.values = [hour, minute, second] ∧ f.micro = 0 := by
  rw [hhMmSsFf, fieldsGo_colon hh rfl, fieldsGo_colon hm rfl] at hf
  obtain ⟨f₁, hf₁, rfl⟩ := Option.map_eq_some_iff.mp hf
  obtain ⟨f₂, hf₂, rfl⟩ := Option.map_eq_some_iff.mp hf₁
  obtain ⟨hvalues, hmicro⟩ := fieldsGo_blanks hs hb hf₂
  exact ⟨by simp only [Fields.push, hvalues], hmicro⟩

theorem zoneOf_size {size : Int} (left east : Bool) {f : Fields} (hf : hhMmSsFf s = some f)
    (hleft : f.left = false) (hmicro : f.micro = 0) (hsize : f.seconds = size) (hlt : size < 86400) :
    zoneOf left (sign east :: s) = some (some ((if east then size else -size) * MICROS)) := by
  have hz : sign east ≠ 'Z' := by cases east <;> decide
  have hbound : size * MICROS < 86400 * MICROS := by
    simp only [MICROS]
    omega
  have hwhole : (if size = 0 then 0 else size * MICROS) = size * MICROS := by
    split
    · next h0 => rw [h0, zero_mul]
    · rfl
  simp only [zoneOf, if_neg hz, hf, hleft, hmicro, hsize, Bool.false_eq_true, if_false, Nat.cast_zero,
    add_zero, hwhole, if_pos hbound]
  cases east <;> simp [sign]

/-- The offset of a rendering is read as it is printed. -/
theorem zoneOf_offset (left : Bool) (offset : OffsetText) :
    zoneOf left offset.chars = some (some (offset.seconds * MICROS)) := by
  cases offset with
  | zulu => simp [zoneOf, OffsetText.chars, OffsetText.seconds]
  | hours east hour =>
    have hf : hhMmSsFf (two hour) = some _ := fieldsGo_end (by omega)
    have h := zoneOf_size left east hf rfl rfl rfl
      (by simp only [Fields.seconds, secondsOf, List.getD_cons_zero, List.getD_cons_succ, List.getD_nil]; omega)
    rw [OffsetText.chars, h]
    cases east <;> rfl
  | minutes east colon hour minute =>
    have hf : hhMmSsFf (two hour ++ ((if colon then [':'] else []) ++ two minute)) =
        some ⟨[hour, minute], 0, false⟩ := by
      cases colon with
      | true =>
        have h := fieldsGo_colon (s := []) (k := 2) (n := hour) (m := minute) (c := none) (by omega) rfl
        rw [List.append_nil, fieldsGo_end (by omega)] at h
        exact h
      | false =>
        have h := fieldsGo_plain (k := 2) (n := hour) (m := minute) (by omega) (by omega)
        rw [fieldsGo_end (by omega)] at h
        exact h
    have h := zoneOf_size left east hf rfl rfl rfl
      (by simp only [Fields.seconds, secondsOf, List.getD_cons_zero, List.getD_cons_succ, List.getD_nil]; omega)
    rw [OffsetText.chars, List.append_assoc, List.cons_append, h]
    cases east <;> rfl

end BidScope.L8
