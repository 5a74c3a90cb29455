import BidScope.Core.Canonical

/-!
# JSON texts that Python reads

Python opens a text file with universal newlines: `\r\n` and `\r` are read as
`\n`. In a JSON text a line end stands between tokens only, so the value is the
one that the bytes hold. A string of the value is made of characters.

* `value_shorter`, `value_stable`: every call of the parser is paid by what it
  consumes, so that a text of length `l` takes no more than `2 * l + 1`.
* `value_newlines`: the parser reads the same value, and the rest is the rest
  with its line ends translated.
* `parse_newlines`: a text and its translation are one to `parse`.
* `text_units`: the characters behind the code units of a string.
-/
namespace Json

/-- A `\r` before a `\n` goes, any other is a `\n`. -/
def newlines : List Char → List Char
  | [] => []
  | c :: cs =>
    if c = '\r' then if cs.head? = some '\n' then newlines cs else '\n' :: newlines cs
    else c :: newlines cs

attribute [local simp] literal value items fields newlines

variable {c : Char} {cs rest : List Char} {p : Char → Bool}

/-! ## Line ends -/

theorem newlines_cons (h : c ≠ '\r') : newlines (c :: cs) = c :: newlines cs := by simp [h]

theorem newlines_cr : ∃ t, newlines ('\r' :: cs) = '\n' :: t := by
  cases cs with
  | nil => exact ⟨[], by simp⟩
  | cons d t =>
    by_cases h : d = '\n'
    · exact ⟨newlines t, by simp [h]⟩
    · exact ⟨newlines (d :: t), by simp [h]⟩

theorem length_newlines : (newlines cs).length ≤ cs.length := by
  induction cs with
  | nil => simp
  | cons c t ih =>
    simp only [newlines, List.length_cons]
    split
    · split
      · omega
      · simp only [List.length_cons]; omega
    · simp only [List.length_cons]; omega

theorem dropWhile_newlines (h : p '\r' = p '\n') : (newlines cs).dropWhile p = newlines (cs.dropWhile p) := by
  induction cs with
  | nil => simp
  | cons c t ih =>
    by_cases hc : c = '\r'
    · subst hc
      obtain ⟨u, hu⟩ := @newlines_cr t
      cases hp : p '\n' with
      | false => rw [List.dropWhile_cons, if_neg (by simp [h, hp]), hu, List.dropWhile_cons, if_neg (by simp [hp])]
      | true =>
        rw [List.dropWhile_cons, if_pos (by simp [h, hp]), ← ih]
        simp only [newlines, if_true]
        split
        · rfl
        · rw [List.dropWhile_cons, if_pos hp]
    · rw [newlines_cons hc, List.dropWhile_cons, List.dropWhile_cons]
      split
      · exact ih
      · rw [newlines_cons hc]

theorem takeWhile_newlines (hr : p '\r' = false) (hn : p '\n' = false) :
    (newlines cs).takeWhile p = cs.takeWhile p := by
  induction cs with
  | nil => simp
  | cons c t ih =>
    by_cases hc : c = '\r'
    · subst hc
      obtain ⟨u, hu⟩ := @newlines_cr t
      rw [hu, List.takeWhile_cons, List.takeWhile_cons, hr, hn]
      rfl
    · rw [newlines_cons hc, List.takeWhile_cons, List.takeWhile_cons, ih]

/-- What stands behind white space begins with no line end. -/
theorem skipWs_cases (cs : List Char) : (skipWs cs = [] ∧ skipWs (newlines cs) = []) ∨
    ∃ c t, skipWs cs = c :: t ∧ c ≠ '\r' ∧ skipWs (newlines cs) = c :: newlines t := by
  have hskip : skipWs (newlines cs) = newlines (skipWs cs) := dropWhile_newlines rfl
  rw [hskip]
  cases h : skipWs cs with
  | nil => exact .inl ⟨rfl, rfl⟩
  | cons c t =>
    have hc : ¬ isWs c = true := by
      have := List.head_dropWhile_not isWs (l := cs) (by rw [show cs.dropWhile isWs = c :: t from h]; simp)
      simpa [show cs.dropWhile isWs = c :: t from h] using this
    have hne : c ≠ '\r' := fun he => hc (by rw [he]; rfl)
    exact .inr ⟨c, t, rfl, hne, newlines_cons hne⟩

/-! ## What a call consumes -/

variable {n : Nat} {v : Json Number}

theorem rest_of_map {α β : Type} {x : Option (α × List Char)} {g : α × List Char → β × List Char} {b : β}
    (h : x.map g = some (b, rest)) (hg : ∀ a, (g a).2 = a.2) : ∃ a, x = some (a, rest) := by
  obtain ⟨⟨a, r⟩, hr, heq⟩ := Option.map_eq_some_iff.mp h
  have hrest := congrArg Prod.snd heq
  rw [hg] at hrest
  exact ⟨a, by rw [hr]; exact congrArg (fun r => some (a, r)) hrest⟩

theorem length_skipWs : (skipWs cs).length ≤ cs.length := (List.dropWhile_suffix _).length_le

theorem literal_shorter : ∀ (st : Lit) (cs : List Char) (us : List UInt16) (rest : List Char),
    literal st cs = some (us, rest) → rest.length < cs.length := by
  intro st cs
  induction cs generalizing st with
  | nil => simp
  | cons c t ih =>
    intro us rest h
    have hmap : ∀ {st : Lit} {g : List UInt16 × List Char → List UInt16 × List Char},
        (literal st t).map g = some (us, rest) → (∀ a, (g a).2 = a.2) → rest.length < t.length := fun hm hg => by
      obtain ⟨vs, hr⟩ := rest_of_map hm hg
      exact ih _ vs rest hr
    rw [List.length_cons]
    cases st with
    | plain =>
      simp only [literal] at h
      split at h
      · obtain ⟨-, rfl⟩ := Prod.mk.inj (Option.some.inj h)
        omega
      · split at h
        · have := ih _ _ _ h; omega
        · split at h
          · cases h
          · have := hmap h fun _ => rfl; omega
    | escaped =>
      simp only [literal] at h
      split at h
      · have := ih _ _ _ h; omega
      · obtain ⟨u, -, h⟩ := Option.bind_eq_some_iff.mp h
        have := hmap h fun _ => rfl
        omega
    | hex k m =>
      cases k with
      | zero =>
        obtain ⟨d, -, h⟩ := Option.bind_eq_some_iff.mp h
        have := hmap h fun _ => rfl
        omega
      | succ k =>
        obtain ⟨d, -, h⟩ := Option.bind_eq_some_iff.mp h
        have := ih _ _ _ h
        omega

theorem digits_shorter {ds : List Char} (h : digits cs = some (ds, rest)) : rest.length < cs.length := by
  unfold digits at h
  split at h
  · cases h
  · next hne =>
    obtain ⟨-, rfl⟩ := Prod.mk.inj (Option.some.inj h)
    have hsplit := congrArg List.length (List.takeWhile_append_dropWhile (p := Char.isDigit) (l := cs))
    have hpos := List.length_pos_iff.mpr fun h => hne (List.isEmpty_iff.mpr h)
    rw [List.length_append] at hsplit
    omega

theorem fraction_shorter {ds : List Char} (h : fraction cs = some (ds, rest)) : rest.length ≤ cs.length := by
  unfold fraction at h
  split at h
  · have := digits_shorter h
    simp only [List.length_cons]
    omega
  · obtain ⟨-, rfl⟩ := Prod.mk.inj (Option.some.inj h)
    exact Nat.le_refl _

theorem exponent_shorter {e : Option Int} (h : exponent cs = some (e, rest)) : rest.length ≤ cs.length := by
  have hdigits : ∀ {sign : Int} {cs : List Char}, exponentDigits sign cs = some (e, rest) →
      rest.length < cs.length := fun hd => by
    rw [exponentDigits] at hd
    obtain ⟨ds, hr⟩ := rest_of_map hd fun _ => rfl
    exact digits_shorter hr
  unfold exponent at h
  split at h
  · split at h
    · split at h
      · have := hdigits h; simp only [List.length_cons]; omega
      · have := hdigits h; simp only [List.length_cons]; omega
      · have := hdigits h; simp only [List.length_cons]; omega
    · obtain ⟨-, rfl⟩ := Prod.mk.inj (Option.some.inj h)
      exact Nat.le_refl _
  · obtain ⟨-, rfl⟩ := Prod.mk.inj (Option.some.inj h)
    exact Nat.le_refl _

theorem unsigned_shorter {q : Number} (h : unsigned cs = some (q, rest)) : rest.length < cs.length := by
  obtain ⟨⟨ds, r⟩, hd, h⟩ := Option.bind_eq_some_iff.mp h
  dsimp only at h
  split at h
  · cases h
  · obtain ⟨⟨fs, r'⟩, hf, h⟩ := Option.bind_eq_some_iff.mp h
    dsimp only at h
    obtain ⟨e, he⟩ := rest_of_map h fun _ => rfl
    have := digits_shorter hd
    have := fraction_shorter hf
    have := exponent_shorter he
    omega

theorem number_shorter {q : Number} (h : number cs = some (q, rest)) : rest.length < cs.length := by
  unfold number at h
  split at h
  · obtain ⟨q, hr⟩ := rest_of_map h fun _ => rfl
    have := unsigned_shorter hr
    simp only [List.length_cons]
    omega
  · exact unsigned_shorter h

theorem keyword_shorter {word : List Char} {w : Json Number} (h : keyword word w cs = some (v, rest)) :
    rest.length ≤ cs.length := by
  unfold keyword at h
  split at h
  · obtain ⟨-, rfl⟩ := Prod.mk.inj (Option.some.inj h)
    simp
  · cases h

/-- The rest behind a value, and behind the items or members of one. -/
theorem shorter : ∀ n : Nat,
    (∀ (cs : List Char) (v : Json Number) (rest : List Char), value n cs = some (v, rest) → rest.length < cs.length) ∧
    (∀ (cs : List Char) (l : List (Json Number)) (rest : List Char),
      items n cs = some (l, rest) → rest.length < cs.length) ∧
    ∀ (cs : List Char) (l : List (List UInt16 × Json Number)) (rest : List Char),
      fields n cs = some (l, rest) → rest.length < cs.length := by
  intro n
  induction n with
  | zero => simp
  | succ n ih =>
    obtain ⟨ihValue, ihItems, ihFields⟩ := ih
    refine ⟨fun cs v rest h => ?_, fun cs l rest h => ?_, fun cs l rest h => ?_⟩
    · have hle := @length_skipWs cs
      unfold value at h
      split at h
      · cases h
      · next c t hskip =>
        rw [hskip, List.length_cons] at hle
        have ht := @length_skipWs t
        split at h
        · obtain ⟨us, hr⟩ := rest_of_map h fun _ => rfl
          have := literal_shorter _ _ _ _ hr
          omega
        split at h
        · split at h
          · next hclose =>
            obtain ⟨-, rfl⟩ := Prod.mk.inj (Option.some.inj h)
            rw [hclose, List.length_cons] at ht
            omega
          · obtain ⟨l, hr⟩ := rest_of_map h fun _ => rfl
            have := ihItems _ _ _ hr
            omega
        split at h
        · split at h
          · next hclose =>
            obtain ⟨-, rfl⟩ := Prod.mk.inj (Option.some.inj h)
            rw [hclose, List.length_cons] at ht
            omega
          · obtain ⟨l, hr⟩ := rest_of_map h fun _ => rfl
            have := ihFields _ _ _ hr
            omega
        split at h
        · have := keyword_shorter h; omega
        split at h
        · have := keyword_shorter h; omega
        split at h
        · have := keyword_shorter h; omega
        · obtain ⟨q, hr⟩ := rest_of_map h fun _ => rfl
          have := number_shorter hr
          simp only [List.length_cons] at this
          omega
    · unfold items at h
      obtain ⟨⟨v, r⟩, hr, h⟩ := Option.bind_eq_some_iff.mp h
      have hlt := ihValue _ _ _ hr
      have hle := @length_skipWs r
      dsimp only at h
      split at h
      · next hskip =>
        obtain ⟨l, hr'⟩ := rest_of_map h fun _ => rfl
        have := ihItems _ _ _ hr'
        rw [hskip, List.length_cons] at hle
        omega
      · next hskip =>
        obtain ⟨-, rfl⟩ := Prod.mk.inj (Option.some.inj h)
        rw [hskip, List.length_cons] at hle
        omega
      · cases h
    · have hle := @length_skipWs cs
      unfold fields at h
      split at h
      · next hquote =>
        rw [hquote, List.length_cons] at hle
        obtain ⟨⟨k, r⟩, hr, h⟩ := Option.bind_eq_some_iff.mp h
        have hk := literal_shorter _ _ _ _ hr
        have hr' := @length_skipWs r
        dsimp only at h
        split at h
        · next hcolon =>
          rw [hcolon, List.length_cons] at hr'
          obtain ⟨⟨v, r'⟩, hv, h⟩ := Option.bind_eq_some_iff.mp h
          have hlt := ihValue _ _ _ hv
          have hle' := @length_skipWs r'
          dsimp only at h
          split at h
          · next hskip =>
            obtain ⟨l, hl⟩ := rest_of_map h fun _ => rfl
            have := ihFields _ _ _ hl
            rw [hskip, List.length_cons] at hle'
            omega
          · next hskip =>
            obtain ⟨-, rfl⟩ := Prod.mk.inj (Option.some.inj h)
            rw [hskip, List.length_cons] at hle'
            omega
          · cases h
        · cases h
      · cases h

theorem value_shorter (h : value n cs = some (v, rest)) : rest.length < cs.length := (shorter n).1 cs v rest h

/-- More fuel than is paid for changes nothing. -/
theorem stable : ∀ n : Nat,
    (∀ cs : List Char, 2 * cs.length + 1 ≤ n → value (n + 1) cs = value n cs) ∧
    (∀ cs : List Char, 2 * cs.length + 2 ≤ n → items (n + 1) cs = items n cs) ∧
    ∀ cs : List Char, 2 * cs.length + 2 ≤ n → fields (n + 1) cs = fields n cs := by
  intro n
  induction n with
  | zero => exact ⟨fun cs h => by omega, fun cs h => by omega, fun cs h => by omega⟩
  | succ n ih =>
    obtain ⟨ihValue, ihItems, ihFields⟩ := ih
    refine ⟨fun cs h => ?_, fun cs h => ?_, fun cs h => ?_⟩
    · have hle := @length_skipWs cs
      cases hskip : skipWs cs with
      | nil => simp [hskip]
      | cons c t =>
        have ht := @length_skipWs t
        rw [hskip, List.length_cons] at hle
        have hitems := ihItems (skipWs t) (by omega)
        have hfields := ihFields (skipWs t) (by omega)
        rw [value, value]
        simp only [hskip]
        split
        · rfl
        split
        · split
          · rfl
          · rw [hitems]
        split
        · split
          · rfl
          · rw [hfields]
        · rfl
    · rw [items, items, ihValue cs (by omega)]
      cases hv : value n cs with
      | none => rfl
      | some vr =>
        obtain ⟨v, r⟩ := vr
        have hlt := value_shorter hv
        have hle := @length_skipWs r
        simp only [Option.bind_some]
        split
        · next hskip =>
          rw [hskip, List.length_cons] at hle
          rw [ihItems _ (by omega)]
        · rfl
        · rfl
    · have hle := @length_skipWs cs
      rw [fields, fields]
      split
      · next hquote =>
        rw [hquote, List.length_cons] at hle
        cases hk : literal .plain _ with
        | none => rfl
        | some kr =>
          obtain ⟨k, r⟩ := kr
          have hlt := literal_shorter _ _ _ _ hk
          have hr := @length_skipWs r
          simp only [Option.bind_some]
          split
          · next hcolon =>
            rw [hcolon, List.length_cons] at hr
            rw [ihValue _ (by omega)]
            cases hv : value n _ with
            | none => rfl
            | some vr =>
              obtain ⟨v, r'⟩ := vr
              have hlt' := value_shorter hv
              have hle' := @length_skipWs r'
              simp only [Option.bind_some]
              split
              · next hskip =>
                rw [hskip, List.length_cons] at hle'
                rw [ihFields _ (by omega)]
              · rfl
              · rfl
          · rfl
      · rfl

theorem value_stable {m : Nat} (h : 2 * cs.length + 1 ≤ n) (hm : n ≤ m) : value m cs = value n cs := by
  induction hm with
  | refl => rfl
  | step hm ih => rw [(stable _).1 cs (Nat.le_trans h hm), ih]

/-! ## The same value -/

/-- What a parser returns, with the line ends of the rest translated. -/
def onRest {α : Type} (x : Option (α × List Char)) : Option (α × List Char) := x.map fun r => (r.1, newlines r.2)

theorem onRest_map {α β : Type} {x : Option (α × List Char)} {g : α × List Char → β × List Char}
    (hg : ∀ a r, g (a, newlines r) = ((g (a, r)).1, newlines (g (a, r)).2)) :
    (onRest x).map g = onRest (x.map g) := by
  cases x with
  | none => rfl
  | some r => exact congrArg some (hg r.1 r.2)

theorem literal_newlines : ∀ (st : Lit) (cs : List Char), literal st (newlines cs) = onRest (literal st cs) := by
  intro st cs
  induction cs generalizing st with
  | nil => cases st <;> rfl
  | cons c t ih =>
    by_cases hc : c = '\r'
    · -- no line end stands in a literal
      obtain ⟨u, hu⟩ := @newlines_cr t
      subst hc
      rw [hu]
      cases st with
      | hex k m => cases k <;> rfl
      | _ => rfl
    · rw [newlines_cons hc]
      have hmap : ∀ {st : Lit} {f : List UInt16 → List UInt16},
          ((literal st (newlines t)).map fun r => (f r.1, r.2)) = onRest ((literal st t).map fun r => (f r.1, r.2)) :=
        fun {st f} => by rw [ih]; exact onRest_map fun _ _ => rfl
      cases st with
      | plain =>
        simp only [literal]
        split
        · rfl
        · split
          · exact ih _
          · split
            · rfl
            · exact hmap
      | escaped =>
        simp only [literal]
        split
        · exact ih _
        · cases unescape c with
          | none => rfl
          | some u => exact hmap
      | hex k m =>
        cases k with
        | zero =>
          simp only [literal]
          cases hexVal c with
          | none => rfl
          | some d => exact hmap
        | succ k =>
          simp only [literal]
          cases hexVal c with
          | none => rfl
          | some d => exact ih _

theorem digits_newlines : digits (newlines cs) = onRest (digits cs) := by
  unfold digits
  rw [takeWhile_newlines rfl rfl, dropWhile_newlines rfl]
  split <;> rfl

/-- A text begins with no line end, or its translation begins as it does. -/
theorem head_cases (cs : List Char) : (cs = [] ∧ newlines cs = []) ∨
    (∃ t u, cs = '\r' :: t ∧ newlines cs = '\n' :: u) ∨
    ∃ c t, cs = c :: t ∧ c ≠ '\r' ∧ newlines cs = c :: newlines t := by
  cases cs with
  | nil => exact .inl ⟨rfl, rfl⟩
  | cons c t =>
    by_cases hc : c = '\r'
    · subst hc
      obtain ⟨u, hu⟩ := @newlines_cr t
      exact .inr (.inl ⟨t, u, rfl, hu⟩)
    · exact .inr (.inr ⟨c, t, rfl, hc, newlines_cons hc⟩)

theorem fraction_newlines : fraction (newlines cs) = onRest (fraction cs) := by
  rcases head_cases cs with ⟨rfl, -⟩ | ⟨t, u, rfl, hu⟩ | ⟨c, t, rfl, hc, ht⟩
  · rfl
  · rw [hu, fraction, fraction]
    · rw [← hu]; rfl
    · simp
    · simp
  · rw [ht]
    by_cases hdot : c = '.'
    · subst hdot
      exact digits_newlines
    · rw [fraction, fraction]
      · rw [← ht]; rfl
      · simpa using fun h => absurd h hdot
      · simpa using fun h => absurd h hdot

theorem exponentDigits_newlines (sign : Int) :
    exponentDigits sign (newlines cs) = onRest (exponentDigits sign cs) := by
  rw [exponentDigits, exponentDigits, digits_newlines]
  exact onRest_map fun _ _ => rfl

theorem exponent_newlines : exponent (newlines cs) = onRest (exponent cs) := by
  rcases head_cases cs with ⟨rfl, -⟩ | ⟨t, u, rfl, hu⟩ | ⟨c, t, rfl, hc, ht⟩
  · rfl
  · rw [hu]
    show some (none, '\n' :: u) = onRest (some (none, '\r' :: t))
    rw [← hu]
    rfl
  · rw [ht]
    unfold exponent
    dsimp only
    split
    · -- behind the letter
      rcases head_cases t with ⟨rfl, -⟩ | ⟨t', u, rfl, hu⟩ | ⟨d, t', rfl, hd, ht'⟩
      · rfl
      · have hdigits := @exponentDigits_newlines ('\r' :: t') 1
        rw [hu] at hdigits ⊢
        exact hdigits
      · have hdigits := @exponentDigits_newlines (d :: t') 1
        rw [ht'] at hdigits ⊢
        by_cases hplus : d = '+'
        · subst hplus
          exact @exponentDigits_newlines t' 1
        · by_cases hminus : d = '-'
          · subst hminus
            exact @exponentDigits_newlines t' (-1)
          · simpa [hplus, hminus] using hdigits
    · rw [← ht]
      rfl

theorem unsigned_newlines : unsigned (newlines cs) = onRest (unsigned cs) := by
  rw [unsigned, unsigned, digits_newlines]
  cases digits cs with
  | none => rfl
  | some r =>
    obtain ⟨ds, r⟩ := r
    simp only [onRest, Option.map_some, Option.bind_some]
    split
    · rfl
    · rw [fraction_newlines]
      cases fraction r with
      | none => rfl
      | some r =>
        obtain ⟨fs, r⟩ := r
        simp only [onRest, Option.map_some, Option.bind_some, exponent_newlines, Option.map_map]
        rfl

theorem number_newlines : number (newlines cs) = onRest (number cs) := by
  rcases head_cases cs with ⟨rfl, -⟩ | ⟨t, u, rfl, hu⟩ | ⟨c, t, rfl, hc, ht⟩
  · rfl
  · have hunsigned := @unsigned_newlines ('\r' :: t)
    rw [hu] at hunsigned ⊢
    exact hunsigned
  · have hunsigned := @unsigned_newlines (c :: t)
    rw [ht] at hunsigned ⊢
    by_cases hminus : c = '-'
    · subst hminus
      rw [number, number, unsigned_newlines]
      exact onRest_map fun _ _ => rfl
    · simpa [number, hminus] using hunsigned

theorem keyword_newlines {word : List Char} (w : Json Number) (hr : '\r' ∉ word) (hn : '\n' ∉ word) :
    keyword word w (newlines cs) = onRest (keyword word w cs) := by
  have hlead : ∀ {cs : List Char}, word.isPrefixOf (newlines cs) = word.isPrefixOf cs ∧
      (word.isPrefixOf cs = true → (newlines cs).drop word.length = newlines (cs.drop word.length)) := by
    induction word with
    | nil => simp
    | cons k word ih =>
      intro cs
      simp only [List.mem_cons, not_or] at hr hn
      rcases head_cases cs with ⟨rfl, -⟩ | ⟨t, u, rfl, hu⟩ | ⟨c, t, rfl, hc, ht⟩
      · simp
      · rw [hu]
        simp [List.isPrefixOf, beq_eq_false_iff_ne.mpr (Ne.symm hr.1), beq_eq_false_iff_ne.mpr (Ne.symm hn.1)]
      · rw [ht]
        obtain ⟨heq, hdrop⟩ := @ih hr.2 hn.2 t
        simp only [List.isPrefixOf, heq, List.length_cons, List.drop_succ_cons, Bool.and_eq_true]
        exact ⟨trivial, fun h => hdrop h.2⟩
  obtain ⟨heq, hdrop⟩ := @hlead cs
  rw [keyword, keyword, heq]
  split
  · next h => rw [hdrop h]; rfl
  · rfl

/-- The parser reads the same and leaves the same, translated. -/
theorem reads_newlines : ∀ n : Nat,
    (∀ cs : List Char, value n (newlines cs) = onRest (value n cs)) ∧
    (∀ cs : List Char, items n (newlines cs) = onRest (items n cs)) ∧
    ∀ cs : List Char, fields n (newlines cs) = onRest (fields n cs) := by
  intro n
  induction n with
  | zero => exact ⟨fun _ => rfl, fun _ => rfl, fun _ => rfl⟩
  | succ n ih =>
    obtain ⟨ihValue, ihItems, ihFields⟩ := ih
    refine ⟨fun cs => ?_, fun cs => ?_, fun cs => ?_⟩
    · rw [value, value]
      rcases skipWs_cases cs with ⟨hnil, hnil'⟩ | ⟨c, t, hskip, hc, hskip'⟩
      · rw [hnil, hnil']
        rfl
      · have hitems := ihItems (skipWs t)
        have hfields := ihFields (skipWs t)
        rw [hskip, hskip']
        dsimp only
        split
        · rw [literal_newlines]
          exact onRest_map fun _ _ => rfl
        split
        · rcases skipWs_cases t with ⟨hnil, hnil'⟩ | ⟨d, u, hopen, hd, hopen'⟩
          · rw [hnil] at hitems
            rw [hnil, hnil']
            exact (congrArg _ hitems).trans (onRest_map fun _ _ => rfl)
          · rw [hopen, hopen']
            by_cases hclose : d = ']'
            · subst hclose
              rfl
            · rw [hopen, newlines_cons hd] at hitems
              have hmap := (congrArg _ hitems).trans (onRest_map (g := fun r => (arr r.1, r.2)) fun _ _ => rfl)
              simpa [hclose] using hmap
        split
        · rcases skipWs_cases t with ⟨hnil, hnil'⟩ | ⟨d, u, hopen, hd, hopen'⟩
          · rw [hnil] at hfields
            rw [hnil, hnil']
            exact (congrArg _ hfields).trans (onRest_map fun _ _ => rfl)
          · rw [hopen, hopen']
            by_cases hclose : d = '\x7d'
            · subst hclose
              rfl
            · rw [hopen, newlines_cons hd] at hfields
              have hmap := (congrArg _ hfields).trans (onRest_map (g := fun r => (obj r.1, r.2)) fun _ _ => rfl)
              simpa [hclose] using hmap
        split
        · exact keyword_newlines _ (by decide) (by decide)
        split
        · exact keyword_newlines _ (by decide) (by decide)
        split
        · exact keyword_newlines _ (by decide) (by decide)
        · rw [← newlines_cons hc, number_newlines]
          exact onRest_map fun _ _ => rfl
    · rw [items, items, ihValue]
      cases value n cs with
      | none => rfl
      | some vr =>
        obtain ⟨v, r⟩ := vr
        simp only [onRest, Option.map_some, Option.bind_some]
        rcases skipWs_cases r with ⟨hnil, hnil'⟩ | ⟨d, u, hskip, hd, hskip'⟩
        · rw [hnil, hnil']
          rfl
        · rw [hskip, hskip']
          by_cases hcomma : d = ','
          · subst hcomma
            simp only [ihItems]
            exact onRest_map fun _ _ => rfl
          · by_cases hclose : d = ']'
            · subst hclose
              rfl
            · simp [hcomma, hclose]
    · rw [fields, fields]
      rcases skipWs_cases cs with ⟨hnil, hnil'⟩ | ⟨c, t, hskip, hc, hskip'⟩
      · rw [hnil, hnil']
        rfl
      · rw [hskip, hskip']
        by_cases hquote : c = '"'
        · subst hquote
          simp only [literal_newlines]
          cases literal .plain t with
          | none => rfl
          | some kr =>
            obtain ⟨k, r⟩ := kr
            simp only [onRest, Option.map_some, Option.bind_some]
            rcases skipWs_cases r with ⟨hnil, hnil'⟩ | ⟨d, u, hskip, hd, hskip'⟩
            · rw [hnil, hnil']
              rfl
            · rw [hskip, hskip']
              by_cases hcolon : d = ':'
              · subst hcolon
                simp only [ihValue]
                cases value n u with
                | none => rfl
                | some vr =>
                  obtain ⟨v, r'⟩ := vr
                  simp only [onRest, Option.map_some, Option.bind_some]
                  rcases skipWs_cases r' with ⟨hnil, hnil'⟩ | ⟨d', u', hskip, hd', hskip'⟩
                  · rw [hnil, hnil']
                    rfl
                  · rw [hskip, hskip']
                    by_cases hcomma : d' = ','
                    · subst hcomma
                      simp only [ihFields]
                      exact onRest_map fun _ _ => rfl
                    · by_cases hclose : d' = '\x7d'
                      · subst hclose
                        rfl
                      · simp [hcomma, hclose]
              · simp [hcolon]
        · simp [hquote, onRest]

theorem value_newlines (n : Nat) (cs : List Char) : value n (newlines cs) = onRest (value n cs) :=
  (reads_newlines n).1 cs

/-- A JSON text read with universal newlines is the same value, or none as well. -/
theorem parse_newlines (text : List Char) : parse (newlines text) = parse text := by
  have hlen := @length_newlines text
  have hvalue : value (2 * (newlines text).length + 2) (newlines text) =
      onRest (value (2 * text.length + 2) text) := by
    rw [← value_newlines]
    exact (value_stable (by omega) (by omega)).symm
  rw [parse, parse, hvalue]
  cases value (2 * text.length + 2) text with
  | none => rfl
  | some vr =>
    obtain ⟨v, r⟩ := vr
    simp only [onRest, Option.map_some, Option.bind_some]
    rcases skipWs_cases r with ⟨hnil, hnil'⟩ | ⟨c, t, hskip, -, hskip'⟩
    · rw [hnil, hnil']
    · rw [hskip, hskip']
      rfl

/-! ## Characters -/

def isHigh (u : UInt16) : Bool := decide (0xD800 ≤ u.toNat ∧ u.toNat < 0xDC00)

def isLow (u : UInt16) : Bool := decide (0xDC00 ≤ u.toNat ∧ u.toNat < 0xE000)

/-- A surrogate that stands alone, which no `Char` is, is U+FFFD. -/
def single (u : UInt16) : Char := if isHigh u || isLow u then '\uFFFD' else .ofNat u.toNat

def chars : List UInt16 → List Char
  | [] => []
  | [u] => [single u]
  | u :: v :: us =>
    if isHigh u && isLow v then .ofNat (0x10000 + (u.toNat - 0xD800) * 0x400 + (v.toNat - 0xDC00)) :: chars us
    else single u :: chars (v :: us)

def text (us : List UInt16) : String := String.ofList (chars us)

/-- No surrogate stands alone. -/
def paired : List UInt16 → Bool
  | [] => true
  | [u] => !(isHigh u || isLow u)
  | u :: v :: us => if isHigh u && isLow v then paired us else !(isHigh u || isLow u) && paired (v :: us)

theorem chars_plain {u : UInt16} {us : List UInt16} (h : isHigh u = false) (hl : isLow u = false) :
    chars (u :: us) = .ofNat u.toNat :: chars us := by
  cases us with
  | nil => simp [chars, single, h, hl]
  | cons v us => simp [chars, single, h, hl]

theorem chars_utf16 (c : Char) (us : List UInt16) : chars (utf16 c ++ us) = c :: chars us := by
  have hsurrogate := not_surrogate c
  have hlt := toNat_lt c
  unfold utf16
  split
  · next h =>
    have hn : (UInt16.ofNat c.toNat).toNat = c.toNat := toNat_ofNat_unit h
    have hhigh : isHigh (UInt16.ofNat c.toNat) = false := decide_eq_false (by rw [hn]; omega)
    have hlow : isLow (UInt16.ofNat c.toNat) = false := decide_eq_false (by rw [hn]; omega)
    rw [List.singleton_append, chars_plain hhigh hlow, hn, Char.ofNat_toNat]
  · next h =>
    have hu : (UInt16.ofNat (0xD800 + (c.toNat - 0x10000) / 0x400)).toNat = 0xD800 + (c.toNat - 0x10000) / 0x400 :=
      toNat_ofNat_unit (by omega)
    have hv : (UInt16.ofNat (0xDC00 + (c.toNat - 0x10000) % 0x400)).toNat = 0xDC00 + (c.toNat - 0x10000) % 0x400 :=
      toNat_ofNat_unit (by omega)
    have hhigh : isHigh (UInt16.ofNat (0xD800 + (c.toNat - 0x10000) / 0x400)) = true :=
      decide_eq_true (by rw [hu]; omega)
    have hlow : isLow (UInt16.ofNat (0xDC00 + (c.toNat - 0x10000) % 0x400)) = true :=
      decide_eq_true (by rw [hv]; omega)
    have hsum : 0x10000 + (0xD800 + (c.toNat - 0x10000) / 0x400 - 0xD800) * 0x400 +
        (0xDC00 + (c.toNat - 0x10000) % 0x400 - 0xDC00) = c.toNat := by omega
    simp only [List.cons_append, List.nil_append, chars, hhigh, hlow, hu, hv, hsum, Bool.and_self, if_true,
      Char.ofNat_toNat]

theorem text_units (s : String) : text (units s) = s := by
  have hchars : ∀ cs : List Char, chars (cs.flatMap utf16) = cs := fun cs => by
    induction cs with
    | nil => rfl
    | cons c cs ih => rw [List.flatMap_cons, chars_utf16, ih]
  rw [text, units, hchars, String.ofList_toList]

end Json
