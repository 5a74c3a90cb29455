import BidScope.L8Models.Datetimes

/-!
# Renderings of an instant, read back

Behind dashes `parse_datetime` is exact or silent: a clock that its pattern
recognises is the printed one, and the offset is read with it
(`PrintedTime.parse_dashes`). Behind the Chinese marks it always answers, in
China time, at the clock its pattern sees (`PrintedTime.parse_marks`): midnight
for a clock in marks or with wide colons, and no offset is read.

* `exactOrSilent_iff`: so the answer is another instant exactly when the clock
  seen is not, in China time, the printed one at the printed offset.
* `nineThirty_midnight`: half past nine in Chinese marks comes back as midnight.
-/
namespace BidScope.L8

open BidScope.L1 Regex

variable {n : Nat} {s t : List Char} {p : Bool}

/-! ## The text of a rendering -/

/-- A text without white space. -/
def Solid (s : List Char) : Prop := ∀ c ∈ s, isSpace c = false

@[simp] theorem solid_nil : Solid [] := nofun

@[simp] theorem solid_cons {c : Char} : Solid (c :: s) ↔ isSpace c = false ∧ Solid s := List.forall_mem_cons

@[simp] theorem solid_append : Solid (s ++ t) ↔ Solid s ∧ Solid t := List.forall_mem_append

theorem stops_reverse_append {l r : List Char} (hne : r ≠ []) (h : Solid r) :
    Stops isSpace (l ++ r).reverse := by
  rw [List.reverse_append]
  cases hr : r.reverse with
  | nil => exact absurd (List.reverse_eq_nil_iff.mp hr) hne
  | cons c t =>
    have hc : c ∈ r := List.mem_reverse.mp (hr ▸ List.mem_cons_self ..)
    exact stops_cons.mpr (h c hc)

theorem toList_strip_blanks {l r t : List Char} (hl : ∀ c ∈ l, isSpace c = true)
    (ht : ∀ c ∈ t, isSpace c = true) (hr : Stops isSpace r) (hlast : Stops isSpace r.reverse) (hne : r ≠ []) :
    (strip (.ofList (l ++ (r ++ t)))).toList = r := by
  have hdrop : ∀ {a b : List Char}, (∀ c ∈ a, isSpace c = true) → Stops isSpace b →
      (a ++ b).dropWhile isSpace = b := by
    intro a b ha hb
    rw [List.dropWhile_append_of_pos ha]
    cases b with
    | nil => rfl
    | cons c b => exact List.dropWhile_cons_of_neg (Bool.eq_false_iff.mp (stops_cons.mp hb))
  have hfront : Stops isSpace (r ++ t) := by
    cases r with
    | nil => exact absurd rfl hne
    | cons c r => exact stops_cons.mpr (stops_cons.mp hr)
  have hback : ∀ c ∈ t.reverse, isSpace c = true := fun c hc => ht c (List.mem_reverse.mp hc)
  rw [strip, String.toList_ofList, String.toList_ofList, hdrop hl hfront, List.reverse_append,
    hdrop hback hlast, List.reverse_reverse]

theorem ValidDay.lt_hundred {year month day : Nat} (h : ValidDay year month day) :
    year / 100 < 100 ∧ year % 100 < 100 ∧ month < 100 ∧ day < 100 := by
  obtain ⟨⟨-, hyear⟩, ⟨hone, hmonth⟩, -, hday⟩ := h
  have hdays : ∀ d ∈ monthDays year, d ≤ 31 := by
    unfold monthDays
    intro d hd
    split at hd <;> simp only [List.mem_cons, List.not_mem_nil, or_false] at hd <;> omega
  have hbound : daysInMonth year month ≤ 31 := by
    unfold daysInMonth
    rw [List.getD_eq_getElem?_getD]
    cases hget : (monthDays year)[month - 1]? with
    | none => decide
    | some d => exact hdays d (List.mem_of_getElem? hget)
  omega

theorem solid_number (h : n < 100) : Solid (number p n) := fun c hc =>
  digits_isDigit.not_isSpace (isDigit_number h c hc)

theorem solid_two (h : n < 100) : Solid (two n) := by
  have hnum := solid_number (p := true) h
  rwa [number, if_neg (by simp)] at hnum

theorem solid_hour (hour : Fin 24) : Solid (number p hour) := solid_number (by omega)

theorem solid_date (d : Day) (date : DateText) : Solid (date.chars d) := by
  obtain ⟨hcentury, hyear, hmonth, hday⟩ := d.valid.lt_hundred
  cases date with
  | dashes =>
    have hdash : isSpace '-' = false := by decide
    simp only [DateText.chars, solid_append, solid_cons, solid_two, hcentury, hyear, hmonth, hday, hdash,
      and_self]
  | marks padMonth padDay =>
    have hmarks : isSpace '年' = false ∧ isSpace '月' = false ∧ isSpace '日' = false := by decide
    simp only [DateText.chars, solid_append, solid_cons, solid_two, solid_number, hcentury, hyear, hmonth,
      hday, hmarks, solid_nil, and_self]

theorem solid_time (time : TimeText) : Solid time.chars := by
  cases time with
  | colons wide padHour hour minute second =>
    have hcolon : isSpace (colon wide) = false := by cases wide <;> decide
    have hsecond : Solid (second.elim [] fun s => colon wide :: two s) := by
      cases second with
      | none => exact solid_nil
      | some s => exact solid_cons.mpr ⟨hcolon, solid_two (by omega)⟩
    simp only [TimeText.chars, solid_append, solid_cons]
    exact ⟨⟨solid_hour hour, hcolon, solid_two (by omega)⟩, hsecond⟩
  | marks pad hour minute =>
    have hmarks : isSpace '时' = false ∧ isSpace '分' = false ∧ isSpace '秒' = false := by decide
    simp only [TimeText.chars, solid_append, solid_cons]
    refine ⟨solid_hour hour, hmarks.1, ?_⟩
    rcases minute with _ | ⟨m, _ | s⟩
    · exact solid_nil
    · simpa [hmarks] using solid_number (n := m) (by omega)
    · simpa [hmarks] using ⟨solid_number (n := m) (by omega), solid_number (n := s) (by omega)⟩

theorem solid_offset (offset : OffsetText) : Solid offset.chars := by
  have hsign : ∀ east, isSpace (sign east) = false := fun east => by cases east <;> decide
  cases offset with
  | zulu => exact solid_cons.mpr ⟨by decide, solid_nil⟩
  | hours east hour => exact solid_cons.mpr ⟨hsign east, solid_two (by omega)⟩
  | minutes east colon hour minute =>
    have hcolon : Solid (if colon then [':'] else []) := by
      cases colon with
      | false => exact solid_nil
      | true => exact solid_cons.mpr ⟨by decide, solid_nil⟩
    simp only [OffsetText.chars, solid_append, solid_cons]
    exact ⟨⟨⟨hsign east, solid_two (by omega)⟩, hcolon⟩, solid_two (by omega)⟩

theorem offset_head_mark (offset : OffsetText) : ∃ c s, offset.chars = c :: s ∧ isZoneMark c = true := by
  have hsign : ∀ east, isZoneMark (sign east) = true := fun east => by cases east <;> decide
  cases offset with
  | zulu => exact ⟨_, _, rfl, by decide⟩
  | hours east hour => exact ⟨_, _, rfl, hsign east⟩
  | minutes east colon hour minute => exact ⟨_, _, rfl, hsign east⟩

theorem zoneMark_cases {c : Char} (h : isZoneMark c = true) : c = '+' ∨ c = '-' ∨ c = 'Z' := by
  simpa [isZoneMark, or_assoc] using h

/-- A zone's mark is neither a digit, white space nor a colon. -/
theorem zoneMark_spec {c : Char} (h : isZoneMark c = true) :
    isDecimal c = false ∧ isSpace c = false ∧ c ≠ ':' := by
  rcases zoneMark_cases h with rfl | rfl | rfl <;> decide

theorem offset_ne_nil (offset : OffsetText) : offset.chars ≠ [] := by
  cases offset <;> simp [OffsetText.chars]

namespace PrintedTime

variable (r : PrintedTime)

theorem date_head : ∃ c s, r.date.chars r.day = c :: s ∧ isSpace c = false := by
  have hsolid := solid_date r.day r.date
  cases hd : r.date.chars r.day with
  | nil => cases hdate : r.date <;> simp [hdate, DateText.chars, two] at hd
  | cons c s => exact ⟨c, s, rfl, hsolid c (hd ▸ List.mem_cons_self ..)⟩

theorem last_solid : Stops isSpace r.chars.reverse := by
  obtain ⟨c, s, hdate, -⟩ := r.date_head
  have hne : r.date.chars r.day ≠ [] := by rw [hdate]; exact List.cons_ne_nil c s
  unfold chars offsetChars
  cases ho : r.offset with
  | some o =>
    rw [Option.elim_some, ← List.append_assoc, ← List.append_assoc]
    exact stops_reverse_append (offset_ne_nil o.2) (solid_offset o.2)
  | none =>
    rw [Option.elim_none, List.append_nil, timeChars]
    cases ht : r.time with
    | none =>
      have h := stops_reverse_append (l := []) hne (solid_date r.day r.date)
      rwa [Option.elim_none, List.append_nil]
    | some t =>
      have htime : t.2.chars ≠ [] := by
        cases t.2 <;> simp [TimeText.chars]
      rw [Option.elim_some, ← List.append_assoc]
      exact stops_reverse_append htime (solid_time t.2)

theorem toList_strip : (strip r.text).toList = r.chars := by
  obtain ⟨c, s, hdate, hc⟩ := r.date_head
  refine toList_strip_blanks r.lead.2 r.trail.2 ?_ r.last_solid ?_
  · rw [chars, hdate]
    exact stops_cons.mpr hc
  · rw [chars, hdate]
    exact List.cons_ne_nil c _

theorem strip_ne_empty : strip r.text ≠ "" := by
  obtain ⟨c, s, hdate, -⟩ := r.date_head
  intro h
  have hnil := r.toList_strip
  rw [h, chars, hdate] at hnil
  cases hnil

/-- What stands behind the clock, or behind a day without one, begins with white
space or a sign. -/
theorem offset_head : ∀ c ∈ r.offsetChars.head?, isDecimal c = false ∧ c ≠ ':' := by
  intro c hc
  unfold offsetChars at hc
  cases ho : r.offset with
  | none => simp [ho] at hc
  | some o =>
    obtain ⟨⟨blanks, hblanks⟩, offset⟩ := o
    rw [ho, Option.elim_some] at hc
    cases blanks with
    | cons b bs =>
      obtain rfl : b = c := by simpa using hc
      have hspace := hblanks b (List.mem_cons_self ..)
      refine ⟨not_isDecimal_of_isSpace hspace, ?_⟩
      rintro rfl
      exact absurd hspace (by decide)
    | nil =>
      obtain ⟨z, zs, hz, hmark⟩ := offset_head_mark offset
      obtain rfl : z = c := by simpa [hz] using hc
      exact ⟨(zoneMark_spec hmark).1, (zoneMark_spec hmark).2.2⟩

/-! ### The Chinese form -/

/-- The clock the pattern sees: one with colons of ASCII behind white space. -/
def seen : Nat × Nat × Nat :=
  match r.time with
  | some (.blanks _, .colons false _ hour minute second) => (hour, minute, second.elim 0 (·.val))
  | _ => (0, 0, 0)

theorem fails_offset : Fails clockRe r.offsetChars := by
  unfold offsetChars
  cases ho : r.offset with
  | none =>
    refine fails_clockRe .none stops_nil (leaves_of_fails (fails_upToTwoRe stops_nil))
  | some o =>
    obtain ⟨z, zs, hz, hmark⟩ := offset_head_mark o.2
    obtain ⟨hdecimal, hspace, -⟩ := zoneMark_spec hmark
    rw [Option.elim_some, hz]
    exact fails_clockRe o.1 (stops_cons.mpr hspace) (leaves_of_fails (fails_upToTwoRe (stops_cons.mpr hdecimal)))

theorem takes_optClock : ∃ g u, Takes (.opt clockRe) (r.timeChars ++ r.offsetChars) g u ∧
    (groupNat g 4, groupNat g 5, groupNat g 6) = r.seen := by
  have hmissed : Fails clockRe (r.timeChars ++ r.offsetChars) → r.seen = (0, 0, 0) →
      ∃ g u, Takes (.opt clockRe) (r.timeChars ++ r.offsetChars) g u ∧
        (groupNat g 4, groupNat g 5, groupNat g 6) = r.seen :=
    fun hfails hseen => ⟨[], _, takes_opt_none hfails, hseen.symm⟩
  unfold timeChars seen at *
  cases ht : r.time with
  | none =>
    simp only [ht, Option.elim_none, List.nil_append] at hmissed ⊢
    exact hmissed r.fails_offset trivial
  | some t =>
    obtain ⟨gap, time⟩ := t
    simp only [ht, Option.elim_some] at hmissed ⊢
    cases gap with
    | t =>
      have hstop : Stops isDecimal ('T' :: (time.chars ++ r.offsetChars)) := stops_cons.mpr (by decide)
      exact hmissed (fails_clockRe .none (stops_cons.mpr (by decide))
        (leaves_of_fails (fails_upToTwoRe hstop))) rfl
    | blanks b =>
      cases time with
      | marks pad hour minute =>
        refine hmissed ?_ rfl
        simp only [Gap.chars, TimeText.chars, List.append_assoc, List.cons_append]
        exact fails_clockRe b (stops_space_number (by omega)) (leaves_number (by decide) (by decide))
      | colons wide padHour hour minute second =>
        cases wide with
        | true =>
          refine hmissed ?_ rfl
          simp only [Gap.chars, TimeText.chars, List.append_assoc, List.cons_append]
          exact fails_clockRe b (stops_space_number (by omega)) (leaves_number (by decide) (by decide))
        | false =>
          have hstop : Stops (· == ':') r.offsetChars := fun c hc =>
            beq_eq_false_iff_ne.mpr (r.offset_head c hc).2
          have htakes := takes_clockRe (h := hour) (m := minute) (p := padHour) b (by omega) (by omega) second hstop
          have hchars : (Gap.blanks b).chars ++ (TimeText.colons false padHour hour minute second).chars ++
              r.offsetChars = b.1 ++ (number padHour hour ++ ':' :: (two minute ++
                (second.elim [] (fun s => ':' :: two s) ++ r.offsetChars))) := by
            simp only [Gap.chars, TimeText.chars, colon, List.append_assoc, List.cons_append,
              Bool.false_eq_true, if_false]
          rw [hchars]
          refine ⟨_, _, takes_opt htakes, ?_⟩
          have hhour : natOf (number padHour hour) = hour := natOf_number (by omega)
          have hminute : natOf (two minute) = minute := natOf_two (by omega)
          cases second with
          | none =>
            change (natOf (number padHour hour), natOf (two minute), 0) = (hour.val, minute.val, 0)
            rw [hhour, hminute]
          | some s =>
            have hsecond : natOf (two s) = s := natOf_two (by omega)
            change (natOf (number padHour hour), natOf (two minute), natOf (two s)) =
              (hour.val, minute.val, s.val)
            rw [hhour, hminute, hsecond]

theorem seen_le : r.seen.1 ≤ 23 ∧ r.seen.2.1 ≤ 59 ∧ r.seen.2.2 ≤ 59 := by
  unfold seen
  split
  · next hour minute second _ =>
    refine ⟨Nat.le_of_lt_succ hour.isLt, Nat.le_of_lt_succ minute.isLt, ?_⟩
    cases second with
    | none => exact Nat.zero_le _
    | some s => exact Nat.le_of_lt_succ s.isLt
  · simp

/-- What the groups of the Chinese pattern say. -/
theorem takes_marks {padMonth padDay : Bool} (hdate : r.date = .marks padMonth padDay) :
    ∃ g u, Takes chineseDtRe r.chars g u ∧
      (groupNat g 1, groupNat g 2, groupNat g 3) = (r.day.year, r.day.month, r.day.day) ∧
      (groupNat g 4, groupNat g 5, groupNat g 6) = r.seen := by
  obtain ⟨hcentury, hyear, hmonth, hday⟩ := r.day.valid.lt_hundred
  obtain ⟨g, u, hclock, hseen⟩ := r.takes_optClock
  have hchars : r.chars = two (r.day.year / 100) ++ two (r.day.year % 100) ++ ('年' ::
      (number padMonth r.day.month ++ ('月' :: (number padDay r.day.day ++ ('日' ::
        (r.timeChars ++ r.offsetChars)))))) := by
    simp only [chars, hdate, DateText.chars, List.append_assoc, List.cons_append, List.nil_append]
  refine ⟨(1, two (r.day.year / 100) ++ two (r.day.year % 100)) :: (2, number padMonth r.day.month) ::
    (3, number padDay r.day.day) :: g, u, ?_, ?_, hseen⟩
  · rw [hchars]
    exact takes_seq (takes_seq (takes_seq (takes_seq (takes_seq (takes_seq
      (takes_group (takes_fourRe hcentury hyear)) takes_charRe)
      (takes_group (takes_upToTwoRe hmonth (stops_cons.mpr (by decide))))) takes_charRe)
      (takes_group (takes_upToTwoRe hday (stops_cons.mpr (by decide))))) takes_charRe) hclock
  · have hyearNat : natOf (two (r.day.year / 100) ++ two (r.day.year % 100)) = r.day.year := by
      rw [natOf_append, natOf_two hcentury, natOf_two hyear]
      simp only [two, List.length_cons, List.length_nil]
      omega
    change (natOf (two (r.day.year / 100) ++ two (r.day.year % 100)),
      natOf (number padMonth r.day.month), natOf (number padDay r.day.day)) = _
    rw [hyearNat, natOf_number hmonth, natOf_number hday]

theorem fails_isoRe {padMonth padDay : Bool} (hdate : r.date = .marks padMonth padDay) :
    Fails isoRe r.chars := by
  have hchars : ∃ t, r.chars = two (r.day.year / 100) ++ two (r.day.year % 100) ++ '年' :: t :=
    ⟨_, by simp only [chars, hdate, DateText.chars, List.append_assoc, List.cons_append, List.nil_append]; rfl⟩
  obtain ⟨t, ht⟩ := hchars
  rw [ht]
  refine fails_seq_left (fails_seq_left (fails_seq_left (fails_seq_left (fails_seq_left
    (fails_seq_left (fails_seq_left (fails_seq_left (fails_seq_left (fails_seq ?_)))))))))
  refine leaves_fourRe.imp fun u hu => ?_
  subst hu
  exact fails_charRe (by decide)

/-- Behind the marks the answer is China time, at the clock the pattern sees. -/
theorem parse_marks {padMonth padDay : Bool} (hdate : r.date = .marks padMonth padDay) :
    parseDatetime (some r.text) = .ok (some ⟨r.day.year, r.day.month, r.day.day, r.seen.1, r.seen.2.1,
      r.seen.2.2, 0, some CHN_TZ⟩) := by
  obtain ⟨g, u, htakes, hday, hseen⟩ := r.takes_marks hdate
  have hiso : run isoRe r.chars = [] := r.fails_isoRe hdate
  have hmatch : (run chineseDtRe r.chars).head? = some (g, u) := htakes
  have hnew : newDatetime ⟨r.day.year, r.day.month, r.day.day, r.seen.1, r.seen.2.1, r.seen.2.2, 0,
      some CHN_TZ⟩ = some _ := if_pos ⟨r.day.valid, r.seen_le⟩
  obtain ⟨hy, hm, hd⟩ : groupNat g 1 = r.day.year ∧ groupNat g 2 = r.day.month ∧
      groupNat g 3 = r.day.day := by simpa using hday
  obtain ⟨hh, hmin, hs⟩ : groupNat g 4 = r.seen.1 ∧ groupNat g 5 = r.seen.2.1 ∧
      groupNat g 6 = r.seen.2.2 := by simp [← hseen]
  simp only [parseDatetime, if_neg r.strip_ne_empty, r.toList_strip, hiso, hmatch, List.head?_nil,
    Option.isSome_none, Bool.false_eq_true, if_false, hy, hm, hd, hh, hmin, hs, hnew]

/-! ### The form with dashes -/

theorem chars_dashes (hdate : r.date = .dashes) :
    r.chars = two (r.day.year / 100) ++ (two (r.day.year % 100) ++ '-' :: (two r.day.month ++ '-' ::
      (two r.day.day ++ (r.timeChars ++ r.offsetChars)))) := by
  simp only [chars, hdate, DateText.chars, List.append_assoc, List.cons_append]

theorem fails_chineseDtRe (hdate : r.date = .dashes) : Fails chineseDtRe r.chars := by
  rw [r.chars_dashes hdate, ← List.append_assoc]
  refine fails_seq_left (fails_seq_left (fails_seq_left (fails_seq_left (fails_seq_left (fails_seq ?_)))))
  refine (leaves_group leaves_fourRe).imp fun u hu => ?_
  subst hu
  exact fails_charRe (by decide)

/-- A text that begins like a clock has its hour behind the separator, in two
digits, and colons of ASCII. -/
theorem clock_of_head (h : ClockHead (r.timeChars ++ r.offsetChars)) :
    ∃ gap sep pad hour minute second, r.time = some (gap, .colons false pad hour minute (some second)) ∧
      gap.chars = [sep] ∧ number pad hour.val = two hour := by
  obtain ⟨sep, h, h', m, m', x, x', t, hs, hsep, hh, hh'⟩ := h
  have hsepDecimal : isDecimal sep = false := by rcases hsep with rfl | rfl <;> decide
  cases ht : r.time with
  | none =>
    rw [timeChars, ht, Option.elim_none, List.nil_append, offsetChars] at hs
    cases ho : r.offset with
    | none => simp [ho] at hs
    | some o =>
      obtain ⟨⟨b, hb⟩, offset⟩ := o
      obtain ⟨z, zs, hz, hmark⟩ := offset_head_mark offset
      rw [ho, Option.elim_some, hz] at hs
      rcases b with _ | ⟨c, _ | ⟨d, b⟩⟩
      · obtain ⟨rfl, -⟩ := List.cons.inj hs
        rcases hsep with rfl | rfl <;> cases hmark
      · simp only [List.cons_append, List.nil_append, List.cons.injEq] at hs
        obtain ⟨-, rfl, -⟩ := hs
        rw [(zoneMark_spec hmark).1] at hh
        cases hh
      · simp only [List.cons_append, List.cons.injEq] at hs
        obtain ⟨-, rfl, -⟩ := hs
        rw [not_isDecimal_of_isSpace (hb _ (List.mem_cons_of_mem _ (List.mem_cons_self ..)))] at hh
        cases hh
  | some p =>
    obtain ⟨gap, time⟩ := p
    rw [timeChars, ht, Option.elim_some, List.append_assoc] at hs
    obtain ⟨c, cs, hc, hdigit⟩ := time_head time
    have hgap : gap.chars = [sep] ∧ time.chars ++ r.offsetChars =
        h :: h' :: ':' :: m :: m' :: ':' :: x :: x' :: t := by
      rcases gap with _ | ⟨_ | ⟨d, _ | ⟨e, b⟩⟩, hb⟩
      · obtain ⟨rfl, hrest⟩ := List.cons.inj hs
        exact ⟨rfl, hrest⟩
      · rw [hc] at hs
        obtain ⟨rfl, -⟩ := List.cons.inj hs
        rw [hsepDecimal] at hdigit
        cases hdigit
      · obtain ⟨rfl, hrest⟩ := List.cons.inj hs
        exact ⟨rfl, hrest⟩
      · simp only [Gap.chars, List.cons_append, List.cons.injEq] at hs
        obtain ⟨-, rfl, -⟩ := hs
        rw [not_isDecimal_of_isSpace (hb _ (List.mem_cons_of_mem _ (List.mem_cons_self ..)))] at hh
        cases hh
    obtain ⟨hgap, hs⟩ := hgap
    cases time with
    | marks pad hour minute =>
      rw [TimeText.chars, List.append_assoc] at hs
      obtain ⟨-, hmark, -⟩ := number_colon hs hh' (by decide)
      cases hmark
    | colons wide pad hour minute second =>
      simp only [TimeText.chars, List.append_assoc, List.cons_append] at hs
      obtain ⟨htwo, hcolon, hs⟩ := number_colon hs hh' (by cases wide <;> decide)
      cases wide with
      | true => cases hcolon
      | false =>
        cases second with
        | some second => exact ⟨gap, sep, pad, hour, minute, second, rfl, hgap, htwo⟩
        | none =>
          simp only [two, Option.elim_none, List.cons_append, List.nil_append, List.cons.injEq] at hs
          have hne := (r.offset_head ':' (by rw [hs.2.2]; rfl)).2
          exact absurd rfl hne

theorem takeWhile_zone {a z : List Char} (ha : ∀ c ∈ a, isZoneMark c = false)
    (hz : ∀ c ∈ z.head?, isZoneMark c = true) :
    (a ++ z).takeWhile (fun c => !isZoneMark c) = a ∧ (a ++ z).dropWhile (fun c => !isZoneMark c) = z := by
  have hpos : ∀ c ∈ a, (!isZoneMark c) = true := fun c hc => by rw [ha c hc]; rfl
  rw [List.takeWhile_append_of_pos hpos, List.dropWhile_append_of_pos hpos]
  cases z with
  | nil => exact ⟨List.append_nil a, rfl⟩
  | cons c z =>
    simp only [List.takeWhile_cons, List.dropWhile_cons, hz c rfl, Bool.not_true, Bool.false_eq_true,
      if_false, List.append_nil, and_self]

/-- What `fromisoformat` makes of a clock with white space and a zone behind it. -/
theorem fromisoformat_clock {century year month day hour minute second : Nat} {sep : Char}
    {b z : List Char} {stamp : Stamp} (hcentury : century < 100) (hyear : year < 100) (hmonth : month < 100)
    (hday : day < 100) (hh : hour < 100) (hm : minute < 100) (hs : second < 100)
    (hb : ∀ c ∈ b, isSpace c = true) (hz : ∀ c ∈ z.head?, isZoneMark c = true)
    (h : fromisoformat (two century ++ (two year ++ '-' :: (two month ++ '-' :: (two day ++ sep ::
      (two hour ++ ':' :: (two minute ++ ':' :: (two second ++ (b ++ z)))))))) = some stamp) :
    ∃ left tz, zoneOf left z = some tz ∧
      stamp = ⟨century * 100 + year, month, day, hour, minute, second, 0, tz⟩ := by
  have hnot : ∀ {c : Char}, isDecimal c = true ∨ isSpace c = true ∨ c = ':' → isZoneMark c = false := by
    intro c hc
    rw [Bool.eq_false_iff]
    intro hmark
    obtain ⟨hdecimal, hspace, hcolon⟩ := zoneMark_spec hmark
    simp [hdecimal, hspace, hcolon] at hc
  have htwo : ∀ {n : Nat}, n < 100 → ∀ c ∈ two n, isDecimal c = true := by
    intro n hn c hc
    simp only [two, List.mem_cons, List.not_mem_nil, or_false] at hc
    rcases hc with rfl | rfl
    · exact isDecimal_of_isDigit (isDigit_two hn).1
    · exact isDecimal_of_isDigit (isDigit_two hn).2
  have hclock : ∀ c ∈ two hour ++ ':' :: (two minute ++ ':' :: (two second ++ b)), isZoneMark c = false := by
    intro c hc
    simp only [List.mem_append, List.mem_cons] at hc
    rcases hc with hc | rfl | hc | rfl | hc | hc
    · exact hnot (Or.inl (htwo hh c hc))
    · exact hnot (Or.inr (Or.inr rfl))
    · exact hnot (Or.inl (htwo hm c hc))
    · exact hnot (Or.inr (Or.inr rfl))
    · exact hnot (Or.inl (htwo hs c hc))
    · exact hnot (Or.inr (Or.inl (hb c hc)))
  obtain ⟨hbody, hzone⟩ := takeWhile_zone hclock hz
  simp only [List.append_assoc, List.cons_append] at hbody hzone
  simp only [fromisoformat, twoDigits_two, hcentury, hyear, hmonth, hday, expect, if_true, Option.bind_eq_bind,
    Option.bind_some, List.drop_succ_cons, List.drop_zero, hbody, hzone] at h
  obtain ⟨f, hf, h⟩ := Option.bind_eq_some_iff.mp h
  obtain ⟨tz, htz, h⟩ := Option.bind_eq_some_iff.mp h
  obtain ⟨hvalues, hmicro⟩ := hhMmSsFf_clock hh hm hs hb hf
  unfold newDatetime at h
  split at h
  · refine ⟨f.left, tz, htz, ?_⟩
    rw [← Option.some.inj h, hvalues, hmicro]
    rfl
  · cases h

theorem exists_tail : ∃ b z, r.offsetChars = b ++ z ∧ (∀ c ∈ b, isSpace c = true) ∧
    (∀ c ∈ z.head?, isZoneMark c = true) ∧ ∀ left tz, zoneOf left z = some tz →
      tz = r.offset.map fun o => o.2.seconds * MICROS := by
  unfold offsetChars
  cases ho : r.offset with
  | none =>
    refine ⟨[], [], rfl, nofun, nofun, fun left tz h => ?_⟩
    cases left
    · exact (Option.some.inj h).symm
    · cases h
  | some o =>
    obtain ⟨z, zs, hz, hmark⟩ := offset_head_mark o.2
    refine ⟨o.1.1, o.2.chars, rfl, o.1.2, ?_, fun left tz h => ?_⟩
    · rw [hz]
      rintro c ⟨⟩
      exact hmark
    · rw [zoneOf_offset] at h
      exact (Option.some.inj h).symm

/-- Behind dashes the answer is what the text denotes, when there is one. -/
theorem parse_dashes (hdate : r.date = .dashes) {s : Stamp}
    (h : parseDatetime (some r.text) = .ok (some s)) : s.moment = r.moment := by
  have hfails : run chineseDtRe r.chars = [] := r.fails_chineseDtRe hdate
  simp only [parseDatetime, if_neg r.strip_ne_empty, r.toList_strip, hfails] at h
  split at h
  · next hiso =>
    obtain ⟨⟨g, t⟩, hm⟩ := Option.isSome_iff_exists.mp hiso
    have hmem := List.mem_of_head? hm
    have hchars := r.chars_dashes hdate
    have hhead : ClockHead (r.timeChars ++ r.offsetChars) := by
      rw [hchars] at hmem
      exact clockHead_of_isoRe hmem
    obtain ⟨gap, sep, pad, hour, minute, second, htime, hgap, hnumber⟩ := r.clock_of_head hhead
    obtain ⟨b, z, htail, hb, hz, htz⟩ := r.exists_tail
    obtain ⟨hcentury, hyear, hmonth, hday⟩ := r.day.valid.lt_hundred
    have hclock : r.timeChars ++ r.offsetChars = sep :: (two hour ++ ':' :: (two minute ++ ':' ::
        (two second ++ (b ++ z)))) := by
      simp only [timeChars, htime, Option.elim_some, hgap, TimeText.chars, hnumber, colon, Bool.false_eq_true,
        if_false, htail, List.append_assoc, List.cons_append, List.nil_append]
    cases hread : fromisoformat r.chars with
    | none => simp [hread] at h
    | some stamp =>
      simp only [hread, Except.ok.injEq, Option.some.injEq] at h
      rw [hchars, hclock] at hread
      obtain ⟨left, tz, hzone, hstamp⟩ := fromisoformat_clock hcentury hyear hmonth hday (by omega) (by omega)
        (by omega) hb hz hread
      obtain rfl := htz left tz hzone
      have hyears : r.day.year / 100 * 100 + r.day.year % 100 = r.day.year := by omega
      have htz' : r.tz = r.offset.map fun o => o.2.seconds * MICROS := by
        unfold tz
        cases r.offset <;> simp [hdate]
      have hseconds : r.seconds = secondsOf hour minute second := by
        simp only [seconds, htime, Option.elim_some, TimeText.seconds]
      rw [← h, hstamp, Stamp.moment, moment, hyears, htz', hseconds, Nat.cast_zero, add_zero]
  · simp at h

/-! ## Exact or silent -/

/-- The parser answers with what the text denotes, or not at all. -/
def ExactOrSilent (r : PrintedTime) : Prop :=
  ∀ s, parseDatetime (some r.text) = .ok (some s) → s.moment = r.moment

/-- The day is behind dashes, or the clock the Chinese pattern sees is in China
time what the printed one is at the printed offset. -/
def Understood (r : PrintedTime) : Prop :=
  r.date = .dashes ∨ secondsOf r.seen.1 r.seen.2.1 r.seen.2.2 - 28800 =
    r.seconds - r.offset.elim 28800 (·.2.seconds)

end PrintedTime

theorem clockOf_sub_inj {year month day : Nat} {a b p q : Int} :
    clockOf year month day a - p * MICROS = clockOf year month day b - q * MICROS ↔ a - p = b - q := by
  simp only [clockOf, MICROS]
  omega

/-- A rendering is understood exactly when its day is behind dashes or the clock
seen behind the Chinese marks is the printed one, at the offset of China. -/
theorem exactOrSilent_iff (r : PrintedTime) : r.ExactOrSilent ↔ r.Understood := by
  unfold PrintedTime.ExactOrSilent PrintedTime.Understood
  cases hdate : r.date with
  | dashes => exact iff_of_true (fun s => r.parse_dashes hdate) (Or.inl rfl)
  | marks padMonth padDay =>
    have htz : r.tz = some (r.offset.elim 28800 (·.2.seconds) * MICROS) := by
      unfold PrintedTime.tz
      cases r.offset <;> simp [hdate, CHN_TZ]
    simp only [r.parse_marks hdate, Except.ok.injEq, Option.some.injEq, forall_eq', reduceCtorEq, false_or,
      Stamp.moment, PrintedTime.moment, htz, Moment.of, CHN_TZ, Moment.instant.injEq, Nat.cast_zero, add_zero]
    exact clockOf_sub_inj

theorem first_valid : ValidDay 2026 7 1 := by decide

/-- Half past nine, in Chinese marks throughout. -/
def nineThirty : PrintedTime where
  lead := .none
  day := ⟨2026, 7, 1, first_valid⟩
  date := .marks false false
  time := some (.blanks .space, .marks false 9 (some (30, none)))
  offset := none
  trail := .none

/-- Its clock is dropped: the answer is midnight. -/
theorem nineThirty_midnight : nineThirty.text = "2026年7月1日 9时30分" ∧
    parseDatetime (some "2026年7月1日 9时30分") = .ok (some ⟨2026, 7, 1, 0, 0, 0, 0, some CHN_TZ⟩) ∧
      ¬ nineThirty.ExactOrSilent := by
  have hparse := nineThirty.parse_marks rfl
  have htext : nineThirty.text = "2026年7月1日 9时30分" := by decide
  refine ⟨htext, htext ▸ hparse, fun h => ?_⟩
  exact absurd (h _ hparse) (by decide)

end BidScope.L8
