import Mathlib.Data.Rat.Defs
import Mathlib.Algebra.Order.Ring.Rat
import BidScope.Core.Text

/-!
# JSON between two languages

`Json N` is a JSON value whose numbers are `N`. A string is its UTF-16 code
units, which is what a `\u` escape names and what a JavaScript string is made
of, so no surrogate is ever paired or lost here.

* `dumps`: Python's `json.dumps` with its defaults, on values without floats.
* `parse`: JavaScript's `JSON.parse`, by recursive descent. A number is kept as
  it is written, with its exact value. Each call of `value`, `items` or `fields`
  takes one unit of fuel, and a text of length `l` never takes `2 * l + 2`.

**Round trip (`parse_dumps`).** What `dumps` writes is read back, and it is
printable ASCII (`dumps_printable`).
-/

inductive Json (N : Type) where
  | null
  | bool (b : Bool)
  | num (n : N)
  | str (units : List UInt16)
  | arr (items : List (Json N))
  | obj (fields : List (List UInt16 × Json N))

namespace Json

/-- The UTF-16 code units of a character. -/
def utf16 (c : Char) : List UInt16 :=
  if c.toNat < 0x10000 then [.ofNat c.toNat]
  else [.ofNat (0xD800 + (c.toNat - 0x10000) / 0x400), .ofNat (0xDC00 + (c.toNat - 0x10000) % 0x400)]

def units (s : String) : List UInt16 := s.toList.flatMap utf16

mutual

/-- The value with its numbers converted. -/
def map {M N : Type} (f : M → N) : Json M → Json N
  | .null => .null
  | .bool b => .bool b
  | .num n => .num (f n)
  | .str s => .str s
  | .arr l => .arr (mapItems f l)
  | .obj l => .obj (mapFields f l)

def mapItems {M N : Type} (f : M → N) : List (Json M) → List (Json N)
  | [] => []
  | v :: l => map f v :: mapItems f l

def mapFields {M N : Type} (f : M → N) : List (List UInt16 × Json M) → List (List UInt16 × Json N)
  | [] => []
  | (k, v) :: l => (k, map f v) :: mapFields f l

end

/-- The member of an object; the last of a name counts. -/
def get {N : Type} (name : String) : Json N → Option (Json N)
  | .obj fields => (fields.reverse.find? fun e => e.1 = units name).map (·.2)
  | _ => none

/-! ## Writing -/

def hexChar (n : Nat) : Char := .ofNat (if n < 10 then 48 + n else 87 + n)

def hex4 (n : Nat) : List Char :=
  [hexChar (n / 4096 % 16), hexChar (n / 256 % 16), hexChar (n / 16 % 16), hexChar (n % 16)]

/-- The two-character escapes that are written: the code unit and the letter. -/
def shortEscapes : List (Nat × Char) :=
  [(0x22, '"'), (0x5C, '\\'), (0x0A, 'n'), (0x0D, 'r'), (0x09, 't'), (0x08, 'b'), (0x0C, 'f')]

def shortEscape (n : Nat) : Option Char := (shortEscapes.find? (·.1 = n)).map (·.2)

/-- `ensure_ascii` escapes all but printable ASCII. -/
def escape (u : UInt16) : List Char :=
  match shortEscape u.toNat with
  | some c => ['\\', c]
  | none =>
    if 0x20 ≤ u.toNat ∧ u.toNat ≤ 0x7E then [.ofNat u.toNat] else '\\' :: 'u' :: hex4 u.toNat

def quoted (s : List UInt16) : List Char := '"' :: (s.flatMap escape ++ ['"'])

mutual

def dumps : Json Int → List Char
  | .null => ['n', 'u', 'l', 'l']
  | .bool true => ['t', 'r', 'u', 'e']
  | .bool false => ['f', 'a', 'l', 's', 'e']
  | .num n => (toString n).toList
  | .str s => quoted s
  | .arr l => '[' :: (dumpsItems l ++ [']'])
  | .obj l => '\x7b' :: (dumpsFields l ++ ['\x7d'])

def dumpsItems : List (Json Int) → List Char
  | [] => []
  | [v] => dumps v
  | v :: w :: l => dumps v ++ ',' :: ' ' :: dumpsItems (w :: l)

def dumpsFields : List (List UInt16 × Json Int) → List Char
  | [] => []
  | [(k, v)] => quoted k ++ ':' :: ' ' :: dumps v
  | (k, v) :: e :: l => quoted k ++ ':' :: ' ' :: (dumps v ++ ',' :: ' ' :: dumpsFields (e :: l))

end

/-! ## Reading -/

def isWs (c : Char) : Bool := c = ' ' || c = '\n' || c = '\r' || c = '\t'

def skipWs (cs : List Char) : List Char := cs.dropWhile isWs

def hexVal (c : Char) : Option Nat :=
  if c.isDigit then some (c.toNat - 48)
  else if 'a' ≤ c ∧ c ≤ 'f' then some (c.toNat - 87)
  else if 'A' ≤ c ∧ c ≤ 'F' then some (c.toNat - 55)
  else none

/-- The code unit of a two-character escape; a slash may be escaped too. -/
def unescape (c : Char) : Option UInt16 :=
  (((0x2F, '/') :: shortEscapes).find? (·.2 = c)).map fun e => .ofNat e.1

/-- Where a string literal is read: `hex k n` is behind `\u` with `k + 1` digits to
come and those before them worth `n`. -/
inductive Lit where
  | plain
  | escaped
  | hex (k n : Nat)

/-- Behind the opening quote: the units up to the closing quote and the rest. -/
def literal : Lit → List Char → Option (List UInt16 × List Char)
  | _, [] => none
  | .plain, c :: cs =>
    if c = '"' then some ([], cs)
    else if c = '\\' then literal .escaped cs
    else if c.toNat < 0x20 then none
    else (literal .plain cs).map fun (us, rest) => (utf16 c ++ us, rest)
  | .escaped, c :: cs =>
    if c = 'u' then literal (.hex 3 0) cs
    else (unescape c).bind fun u => (literal .plain cs).map fun (us, rest) => (u :: us, rest)
  | .hex 0 n, c :: cs =>
    (hexVal c).bind fun d => (literal .plain cs).map fun (us, rest) => (.ofNat (16 * n + d) :: us, rest)
  | .hex (k + 1) n, c :: cs => (hexVal c).bind fun d => literal (.hex k (16 * n + d)) cs

/-- The leading digits, at least one. -/
def digits (cs : List Char) : Option (List Char × List Char) :=
  if (cs.takeWhile Char.isDigit).isEmpty then none
  else some (cs.takeWhile Char.isDigit, cs.dropWhile Char.isDigit)

/-- The digits of a fraction, none without a point. -/
def fraction : List Char → Option (List Char × List Char)
  | '.' :: cs => digits cs
  | cs => some ([], cs)

def exponentDigits (sign : Int) (cs : List Char) : Option (Option Int × List Char) :=
  (digits cs).map fun (ds, rest) => (some (sign * Nat.ofDigitChars 10 ds 0), rest)

/-- The exponent, where there is one. -/
def exponent : List Char → Option (Option Int × List Char)
  | c :: cs =>
    if c = 'e' ∨ c = 'E' then
      match cs with
      | '+' :: cs => exponentDigits 1 cs
      | '-' :: cs => exponentDigits (-1) cs
      | cs => exponentDigits 1 cs
    else some (none, c :: cs)
  | [] => some (none, [])

/-- A number as it is written: without a fraction and an exponent, or with one. -/
inductive Number where
  | int (n : Int)
  | float (negative : Bool) (magnitude : Rat)
deriving DecidableEq

def Number.neg : Number → Number
  | int n => .int (-n)
  | float negative magnitude => .float (!negative) magnitude

/-- `m * 10 ^ e` -/
def scaled (m e : Int) : Rat := if 0 ≤ e then m * 10 ^ e.toNat else m / 10 ^ (-e).toNat

/-- The number of these digits, a fraction and an exponent. -/
def numeral (ds fs : List Char) : Option Int → Number
  | none =>
    if fs = [] then .int (Nat.ofDigitChars 10 ds 0)
    else .float false (scaled (Nat.ofDigitChars 10 (ds ++ fs) 0) (-fs.length))
  | some e => .float false (scaled (Nat.ofDigitChars 10 (ds ++ fs) 0) (e - fs.length))

/-- A number without its sign; no digit follows a leading zero. -/
def unsigned (cs : List Char) : Option (Number × List Char) :=
  (digits cs).bind fun (ds, rest) =>
    if ds.head? = some '0' ∧ 1 < ds.length then none
    else (fraction rest).bind fun (fs, rest) => (exponent rest).map fun (e, rest) => (numeral ds fs e, rest)

def number : List Char → Option (Number × List Char)
  | '-' :: cs => (unsigned cs).map fun (q, rest) => (q.neg, rest)
  | cs => unsigned cs

def keyword (word : List Char) (v : Json Number) (cs : List Char) : Option (Json Number × List Char) :=
  if word.isPrefixOf cs then some (v, cs.drop word.length) else none

mutual

def value : Nat → List Char → Option (Json Number × List Char)
  | 0, _ => none
  | n + 1, cs =>
    match skipWs cs with
    | [] => none
    | c :: cs =>
      if c = '"' then (literal .plain cs).map fun (s, rest) => (.str s, rest)
      else if c = '[' then
        match skipWs cs with
        | ']' :: rest => some (.arr [], rest)
        | cs => (items n cs).map fun (l, rest) => (.arr l, rest)
      else if c = '\x7b' then
        match skipWs cs with
        | '\x7d' :: rest => some (.obj [], rest)
        | cs => (fields n cs).map fun (l, rest) => (.obj l, rest)
      else if c = 'n' then keyword ['u', 'l', 'l'] .null cs
      else if c = 't' then keyword ['r', 'u', 'e'] (.bool true) cs
      else if c = 'f' then keyword ['a', 'l', 's', 'e'] (.bool false) cs
      else (number (c :: cs)).map fun (q, rest) => (.num q, rest)

/-- The items of an array behind its bracket. -/
def items : Nat → List Char → Option (List (Json Number) × List Char)
  | 0, _ => none
  | n + 1, cs =>
    (value n cs).bind fun (v, rest) =>
      match skipWs rest with
      | ',' :: cs => (items n cs).map fun (l, rest) => (v :: l, rest)
      | ']' :: rest => some ([v], rest)
      | _ => none

/-- The members of an object behind its brace. -/
def fields : Nat → List Char → Option (List (List UInt16 × Json Number) × List Char)
  | 0, _ => none
  | n + 1, cs =>
    match skipWs cs with
    | '"' :: cs =>
      (literal .plain cs).bind fun (k, rest) =>
        match skipWs rest with
        | ':' :: cs =>
          (value n cs).bind fun (v, rest) =>
            match skipWs rest with
            | ',' :: cs => (fields n cs).map fun (l, rest) => ((k, v) :: l, rest)
            | '\x7d' :: rest => some ([(k, v)], rest)
            | _ => none
        | _ => none
    | _ => none

end

/-- `none` where `JSON.parse` raises a `SyntaxError`. -/
def parse (text : List Char) : Option (Json Number) :=
  (value (2 * text.length + 2) text).bind fun (v, rest) => if skipWs rest = [] then some v else none

/-! ## Strings -/

attribute [local simp] literal value items fields

variable {rest cs : List Char}

theorem hexVal_hexChar : ∀ n < 16, hexVal (hexChar n) = some n := by decide

theorem literal_hex4 {n : Nat} (h : n < 65536) :
    literal (.hex 3 0) (hex4 n ++ rest) =
      (literal .plain rest).map fun (us, rest) => (UInt16.ofNat n :: us, rest) := by
  have hsum : 16 * (16 * (16 * (16 * 0 + n / 4096 % 16) + n / 256 % 16) + n / 16 % 16) + n % 16 = n := by
    omega
  simp only [hex4, List.cons_append, List.nil_append, literal,
    hexVal_hexChar _ (Nat.mod_lt _ (by decide : 0 < 16)), Option.bind_some, hsum]

theorem shortEscape_some {n : Nat} {c : Char} (h : shortEscape n = some c) :
    c ≠ 'u' ∧ unescape c = some (UInt16.ofNat n) := by
  obtain ⟨e, he, rfl⟩ := Option.map_eq_some_iff.mp h
  have hn : e.1 = n := by simpa using List.find?_some he
  have hall : ∀ e ∈ shortEscapes, e.2 ≠ 'u' ∧ unescape e.2 = some (UInt16.ofNat e.1) := by decide
  rw [← hn]
  exact hall e (List.mem_of_find?_eq_some he)

theorem shortEscape_none {n : Nat} (h : shortEscape n = none) : n ≠ 0x22 ∧ n ≠ 0x5C := by
  constructor
  · rintro rfl
    cases h
  · rintro rfl
    cases h

theorem toNat_ofNat_ascii {n : Nat} (h : n ≤ 0x7E) : (Char.ofNat n).toNat = n := by
  have hv : n.isValidChar := Or.inl (by omega)
  rw [Char.ofNat, dif_pos hv]
  rfl

/-- A printable character stands for its own code unit. -/
theorem literal_printable {n : Nat} (hlo : 0x20 ≤ n) (hhi : n ≤ 0x7E) (hq : n ≠ 0x22)
    (hb : n ≠ 0x5C) :
    literal .plain (Char.ofNat n :: rest) =
      (literal .plain rest).map fun (us, rest) => (UInt16.ofNat n :: us, rest) := by
  have hn := toNat_ofNat_ascii hhi
  have hquote : Char.ofNat n ≠ '"' := fun he => hq (by rw [← hn, he]; rfl)
  have hslash : Char.ofNat n ≠ '\\' := fun he => hb (by rw [← hn, he]; rfl)
  have hunit : utf16 (Char.ofNat n) = [UInt16.ofNat n] := by
    rw [utf16, hn, if_pos (by omega)]
  rw [literal, if_neg hquote, if_neg hslash, hn, if_neg (by omega), hunit]
  rfl

theorem literal_escape (u : UInt16) :
    literal .plain (escape u ++ rest) =
      (literal .plain rest).map fun (us, rest) => (u :: us, rest) := by
  have hu : UInt16.ofNat u.toNat = u := UInt16.ofNat_toNat
  have hlt : u.toNat < 65536 := u.toNat_lt
  unfold escape
  cases hs : shortEscape u.toNat with
  | some c =>
    obtain ⟨hne, hun⟩ := shortEscape_some hs
    rw [hu] at hun
    simp only [List.cons_append, List.nil_append]
    rw [literal, if_neg (by decide), if_pos rfl, literal, if_neg hne, hun, Option.bind_some]
  | none =>
    obtain ⟨hq, hb⟩ := shortEscape_none hs
    simp only
    split
    · rename_i hr
      rw [List.cons_append, List.nil_append, literal_printable hr.1 hr.2 hq hb, hu]
    · simp only [List.cons_append]
      rw [literal, if_neg (by decide), if_pos rfl, literal, if_pos rfl, literal_hex4 hlt, hu]

theorem literal_quoted : ∀ s : List UInt16,
    literal .plain (s.flatMap escape ++ '"' :: rest) = some (s, rest)
  | [] => by simp [literal]
  | u :: s => by
    rw [List.flatMap_cons, List.append_assoc, literal_escape, literal_quoted s]
    rfl

/-! ## Numbers -/

/-- What `dumps` writes behind a value. -/
def Ends (rest : List Char) : Prop :=
  ∀ c t, rest = c :: t → c = ',' ∨ c = ']' ∨ c = '\x7d'

theorem ends_nil : Ends [] := fun c t h => by cases h

theorem ends_cons {c : Char} (h : c = ',' ∨ c = ']' ∨ c = '\x7d') : Ends (c :: rest) := by
  intro c' t he
  cases he
  exact h

theorem digits_append {ds : List Char} (hd : ∀ c ∈ ds, c.isDigit = true) (hne : ds ≠ [])
    (hr : Ends rest) : digits (ds ++ rest) = some (ds, rest) := by
  have htake : rest.takeWhile Char.isDigit = [] ∧ rest.dropWhile Char.isDigit = rest := by
    cases rest with
    | nil => exact ⟨rfl, rfl⟩
    | cons c t =>
      have hc : c.isDigit = false := by
        rcases hr c t rfl with rfl | rfl | rfl
        · decide
        · decide
        · decide
      exact ⟨by simp [hc], by simp [hc]⟩
  have h1 : (ds ++ rest).takeWhile Char.isDigit = ds := by
    rw [List.takeWhile_append_of_pos hd, htake.1, List.append_nil]
  have h2 : (ds ++ rest).dropWhile Char.isDigit = rest := by
    rw [List.dropWhile_append_of_pos hd, htake.2]
  rw [digits, h1, h2, if_neg (by simpa using hne)]

/-- The decimal digits of a positive number start with another digit than 0. -/
theorem head_toDigits : ∀ n : Nat, n ≠ 0 → (Nat.toDigits 10 n).head? ≠ some '0' := by
  intro n
  induction n using Nat.strong_induction_on with
  | _ n ih =>
    intro hn
    rcases Nat.lt_or_ge n 10 with hlt | hge
    · have hall : ∀ m < 10, m ≠ 0 → (Nat.toDigits 10 m).head? ≠ some '0' := by decide
      exact hall n hlt hn
    · have hhead : (Nat.toDigits 10 n).head? = (Nat.toDigits 10 (n / 10)).head? := by
        rw [Nat.toDigits_of_base_le (by decide) hge, List.head?_append,
          List.head?_eq_some_head Nat.toDigits_ne_nil, Option.some_or]
      rw [hhead]
      exact ih (n / 10) (Nat.div_lt_self (by omega) (by decide)) (by omega)

theorem unsigned_toDigits (n : Nat) (hr : Ends rest) :
    unsigned (Nat.toDigits 10 n ++ rest) = some (.int n, rest) := by
  have hd : ∀ c ∈ Nat.toDigits 10 n, c.isDigit = true := fun c hc =>
    Nat.isDigit_of_mem_toDigits (by decide) (by decide) hc
  have hzero : ¬ ((Nat.toDigits 10 n).head? = some '0' ∧ 1 < (Nat.toDigits 10 n).length) := by
    rintro ⟨hh, hl⟩
    by_cases hn : n = 0
    · subst hn
      exact absurd hl (by decide)
    · exact head_toDigits n hn hh
  have hfrac : fraction rest = some ([], rest) := by
    cases rest with
    | nil => rfl
    | cons c t => rcases hr c t rfl with rfl | rfl | rfl <;> rfl
  have hexp : exponent rest = some (none, rest) := by
    cases rest with
    | nil => rfl
    | cons c t => rcases hr c t rfl with rfl | rfl | rfl <;> rfl
  rw [unsigned, digits_append hd Nat.toDigits_ne_nil hr, Option.bind_some]
  simp only
  rw [if_neg hzero, hfrac, Option.bind_some]
  simp only
  rw [hexp, Option.map_some]
  simp only
  rw [numeral, if_pos rfl, Nat.ofDigitChars_ten_toDigits]

theorem ne_of_isDigit {c d : Char} (hc : c.isDigit = true) (hd : d.isDigit = false) : c ≠ d := by
  rintro rfl
  rw [hc] at hd
  cases hd

theorem toDigits_head (n : Nat) : ∃ c t, Nat.toDigits 10 n = c :: t ∧ c.isDigit = true := by
  cases hd : Nat.toDigits 10 n with
  | nil => exact absurd hd Nat.toDigits_ne_nil
  | cons c t =>
    have hc : c ∈ Nat.toDigits 10 n := by
      rw [hd]
      exact List.mem_cons_self ..
    exact ⟨c, t, rfl, Nat.isDigit_of_mem_toDigits (by decide) (by decide) hc⟩

theorem toList_ofNat (m : Nat) : (toString (Int.ofNat m)).toList = Nat.toDigits 10 m :=
  Nat.toList_repr

theorem toList_negSucc (m : Nat) :
    (toString (Int.negSucc m)).toList = '-' :: Nat.toDigits 10 (m + 1) := by
  show ("-" ++ Nat.repr (m + 1)).toList = _
  rw [String.toList_append, Nat.toList_repr]
  rfl

theorem number_toString (n : Int) (hr : Ends rest) :
    number ((toString n).toList ++ rest) = some (.int n, rest) := by
  cases n with
  | ofNat m =>
    have hneg : ∀ t, (Nat.toDigits 10 m ++ rest) ≠ '-' :: t := by
      intro t he
      obtain ⟨c, ds, hd, hc⟩ := toDigits_head m
      rw [hd] at he
      exact ne_of_isDigit hc (by decide) (List.cons.inj he).1
    rw [toList_ofNat, number.eq_2 _ hneg, unsigned_toDigits m hr]
    rfl
  | negSucc m =>
    rw [toList_negSucc, List.cons_append, number, unsigned_toDigits (m + 1) hr, Option.map_some]
    rfl

/-- What a value's text starts with. -/
def Opens (c : Char) : Prop := isWs c = false ∧ c ≠ ']' ∧ c ≠ '\x7d'

theorem opens_digit {c : Char} (h : c.isDigit = true) : Opens c :=
  ⟨by simp [isWs, ne_of_isDigit h (show ' '.isDigit = false by decide),
      ne_of_isDigit h (show '\n'.isDigit = false by decide),
      ne_of_isDigit h (show '\r'.isDigit = false by decide),
      ne_of_isDigit h (show '\t'.isDigit = false by decide)],
    ne_of_isDigit h (by decide), ne_of_isDigit h (by decide)⟩

theorem dumps_opens (v : Json Int) : ∃ c t, dumps v = c :: t ∧ Opens c := by
  cases v with
  | bool b => cases b <;> exact ⟨_, _, rfl, by decide, by decide, by decide⟩
  | num n =>
    cases n with
    | ofNat m =>
      obtain ⟨c, t, hd, hc⟩ := toDigits_head m
      exact ⟨c, t, by rw [dumps, toList_ofNat, hd], opens_digit hc⟩
    | negSucc m => exact ⟨_, _, toList_negSucc m, by decide, by decide, by decide⟩
  | null | str s | arr l | obj l => exact ⟨_, _, rfl, by decide, by decide, by decide⟩

theorem dumpsItems_opens (v : Json Int) (l : List (Json Int)) :
    ∃ c t, dumpsItems (v :: l) = c :: t ∧ Opens c := by
  obtain ⟨c, t, hd, hc⟩ := dumps_opens v
  cases l with
  | nil => exact ⟨c, t, by rw [dumpsItems, hd], hc⟩
  | cons w l => exact ⟨c, _, by rw [dumpsItems, hd, List.cons_append], hc⟩

theorem dumpsFields_opens (k : List UInt16) (v : Json Int) (l : List (List UInt16 × Json Int)) :
    ∃ t, dumpsFields ((k, v) :: l) = '"' :: t := by
  cases l with
  | nil => exact ⟨_, rfl⟩
  | cons e l => exact ⟨_, rfl⟩

/-! ## Values -/

theorem skipWs_opens {c : Char} {t : List Char} (h : isWs c = false) : skipWs (c :: t) = c :: t := by
  rw [skipWs, List.dropWhile_cons_of_neg]
  rw [h]
  exact Bool.false_ne_true

theorem value_space (n : Nat) (cs : List Char) : value n (' ' :: cs) = value n cs := by
  cases n with
  | zero => rfl
  | succ n => rfl

theorem items_space (n : Nat) (cs : List Char) : items n (' ' :: cs) = items n cs := by
  cases n with
  | zero => rfl
  | succ n => rw [items, value_space, items]

theorem fields_space (n : Nat) (cs : List Char) : fields n (' ' :: cs) = fields n cs := by
  cases n with
  | zero => rfl
  | succ n => rfl

theorem value_array {n : Nat} {c : Char} (hc : Opens c) :
    value (n + 1) ('[' :: c :: cs) =
      (items n (c :: cs)).map fun (l, rest) => (.arr l, rest) := by
  rw [value, skipWs_opens (by decide)]
  simp only [if_neg (show '[' ≠ '"' by decide), if_true, skipWs_opens hc.1]
  split
  · rename_i he
    cases he
    exact absurd rfl hc.2.1
  · rfl

theorem value_object {n : Nat} {c : Char} (hc : Opens c) :
    value (n + 1) ('\x7b' :: c :: cs) =
      (fields n (c :: cs)).map fun (l, rest) => (.obj l, rest) := by
  rw [value, skipWs_opens (by decide)]
  simp only [if_neg (show '\x7b' ≠ '"' by decide), if_neg (show '\x7b' ≠ '[' by decide), if_true,
    skipWs_opens hc.1]
  split
  · rename_i he
    cases he
    exact absurd rfl hc.2.2
  · rfl

theorem value_string (n : Nat) (s : List UInt16) :
    value (n + 1) (quoted s ++ rest) = some (.str s, rest) := by
  have hq : quoted s ++ rest = '"' :: (s.flatMap escape ++ '"' :: rest) := by
    simp [quoted]
  rw [hq, value, skipWs_opens (by decide)]
  simp only [if_true, literal_quoted, Option.map_some]

theorem value_number {n : Nat} {c : Char} (hc : c = '-' ∨ c.isDigit = true) :
    value (n + 1) (c :: cs) = (number (c :: cs)).map fun (q, rest) => (.num q, rest) := by
  have hne : ∀ d : Char, d ≠ '-' → d.isDigit = false → c ≠ d := by
    rintro d h1 h2
    rcases hc with rfl | hc
    · exact fun he => h1 he.symm
    · exact ne_of_isDigit hc h2
  have hws : isWs c = false := by
    rcases hc with rfl | hc
    · decide
    · exact (opens_digit hc).1
  rw [value, skipWs_opens hws]
  simp only [if_neg (hne '"' (by decide) (by decide)), if_neg (hne '[' (by decide) (by decide)),
    if_neg (hne '\x7b' (by decide) (by decide)), if_neg (hne 'n' (by decide) (by decide)),
    if_neg (hne 't' (by decide) (by decide)), if_neg (hne 'f' (by decide) (by decide))]

theorem items_cons {n : Nat} {v : Json Number} {tail : List Char}
    (h : value n cs = some (v, ',' :: tail)) :
    items (n + 1) cs = (items n tail).map fun (l, rest) => (v :: l, rest) := by
  rw [items, h, Option.bind_some]
  rfl

theorem items_last {n : Nat} {v : Json Number} (h : value n cs = some (v, ']' :: rest)) :
    items (n + 1) cs = some ([v], rest) := by
  rw [items, h, Option.bind_some]
  rfl

theorem fields_quoted (n : Nat) (k : List UInt16) :
    fields (n + 1) (quoted k ++ ':' :: ' ' :: cs) =
      (value n cs).bind fun (v, rest) =>
        match skipWs rest with
        | ',' :: cs => (fields n cs).map fun (l, rest) => ((k, v) :: l, rest)
        | '\x7d' :: rest => some ([(k, v)], rest)
        | _ => none := by
  have hq : quoted k ++ ':' :: ' ' :: cs = '"' :: (k.flatMap escape ++ '"' :: ':' :: ' ' :: cs) := by
    simp [quoted]
  rw [hq, fields, skipWs_opens (by decide)]
  simp only [literal_quoted, Option.bind_some]
  rw [skipWs_opens (by decide)]
  simp only [value_space]

mutual

theorem value_dumps : ∀ (v : Json Int) (n : Nat) (rest : List Char),
    2 * (dumps v).length ≤ n → Ends rest →
      value n (dumps v ++ rest) = some (v.map Number.int, rest)
  | .null, n + 1, rest, _, _ => rfl
  | .bool true, n + 1, rest, _, _ => rfl
  | .bool false, n + 1, rest, _, _ => rfl
  | .num z, n + 1, rest, _, hr => by
    have hnum := number_toString z hr
    have hhead : ∃ c t, (toString z).toList = c :: t ∧ (c = '-' ∨ c.isDigit = true) := by
      cases z with
      | ofNat m =>
        obtain ⟨c, t, hd, hc⟩ := toDigits_head m
        exact ⟨c, t, by rw [toList_ofNat, hd], Or.inr hc⟩
      | negSucc m => exact ⟨_, _, toList_negSucc m, Or.inl rfl⟩
    obtain ⟨c, t, hd, hc⟩ := hhead
    rw [hd, List.cons_append] at hnum
    rw [dumps, hd, List.cons_append, value_number hc, hnum, map]
    rfl
  | .str s, n + 1, rest, _, _ => by
    rw [dumps, value_string, map]
  | .arr [], n + 1, rest, _, _ => rfl
  | .arr (v :: l), n + 1, rest, hn, _ => by
    simp only [dumps, List.length_cons, List.length_append] at hn
    have hi := items_dumps v l n rest (by omega)
    obtain ⟨c, t, hd, ho⟩ := dumpsItems_opens v l
    have htext : dumps (.arr (v :: l)) ++ rest = '[' :: (dumpsItems (v :: l) ++ ']' :: rest) := by
      simp [dumps]
    rw [htext, hd, List.cons_append, value_array ho, ← List.cons_append, ← hd, hi, map]
    rfl
  | .obj [], n + 1, rest, _, _ => rfl
  | .obj ((k, v) :: l), n + 1, rest, hn, _ => by
    simp only [dumps, List.length_cons, List.length_append] at hn
    have hi := fields_dumps k v l n rest (by omega)
    obtain ⟨t, hd⟩ := dumpsFields_opens k v l
    have htext : dumps (.obj ((k, v) :: l)) ++ rest =
        '\x7b' :: (dumpsFields ((k, v) :: l) ++ '\x7d' :: rest) := by
      simp [dumps]
    rw [htext, hd, List.cons_append, value_object ⟨by decide, by decide, by decide⟩,
      ← List.cons_append, ← hd, hi, map]
    rfl
  | v, 0, rest, hn, _ => by
    obtain ⟨c, t, hd, -⟩ := dumps_opens v
    rw [hd] at hn
    cases hn

theorem items_dumps : ∀ (v : Json Int) (l : List (Json Int)) (n : Nat) (rest : List Char),
    2 * (dumpsItems (v :: l)).length + 1 ≤ n →
      items n (dumpsItems (v :: l) ++ ']' :: rest) =
        some (mapItems Number.int (v :: l), rest)
  | v, [], n + 1, rest, hn => by
    rw [dumpsItems] at hn ⊢
    rw [items_last (value_dumps v n (']' :: rest) (by omega) (ends_cons (by decide)))]
    rfl
  | v, w :: l, n + 1, rest, hn => by
    simp only [dumpsItems, List.length_cons, List.length_append] at hn
    have htext : dumpsItems (v :: w :: l) ++ ']' :: rest =
        dumps v ++ ',' :: ' ' :: (dumpsItems (w :: l) ++ ']' :: rest) := by
      simp [dumpsItems]
    rw [htext, items_cons (value_dumps v n _ (by omega) (ends_cons (by decide))), items_space,
      items_dumps w l n rest (by omega)]
    rfl

theorem fields_dumps : ∀ (k : List UInt16) (v : Json Int) (l : List (List UInt16 × Json Int))
    (n : Nat) (rest : List Char), 2 * (dumpsFields ((k, v) :: l)).length + 1 ≤ n →
      fields n (dumpsFields ((k, v) :: l) ++ '\x7d' :: rest) =
        some (mapFields Number.int ((k, v) :: l), rest)
  | k, v, [], n + 1, rest, hn => by
    simp only [dumpsFields, List.length_cons, List.length_append] at hn
    have htext : dumpsFields [(k, v)] ++ '\x7d' :: rest =
        quoted k ++ ':' :: ' ' :: (dumps v ++ '\x7d' :: rest) := by
      simp [dumpsFields]
    rw [htext, fields_quoted, value_dumps v n _ (by omega) (ends_cons (by decide))]
    rfl
  | k, v, (k', v') :: l, n + 1, rest, hn => by
    simp only [dumpsFields, List.length_cons, List.length_append] at hn
    have htext : dumpsFields ((k, v) :: (k', v') :: l) ++ '\x7d' :: rest =
        quoted k ++ ':' :: ' ' ::
          (dumps v ++ ',' :: ' ' :: (dumpsFields ((k', v') :: l) ++ '\x7d' :: rest)) := by
      simp [dumpsFields]
    rw [htext, fields_quoted, value_dumps v n _ (by omega) (ends_cons (by decide)), Option.bind_some]
    have hnext := fields_dumps k' v' l n rest (by omega)
    rw [← fields_space] at hnext
    show (fields n _).map _ = _
    rw [hnext]
    rfl

end

/-- **Round trip.** -/
theorem parse_dumps (v : Json Int) : parse (dumps v) = some (v.map Number.int) := by
  have h := value_dumps v (2 * (dumps v).length + 2) [] (by omega) ends_nil
  rw [List.append_nil] at h
  rw [parse, h]
  rfl

/-! ## Plain text -/

def Printable (c : Char) : Prop := 0x20 ≤ c.toNat ∧ c.toNat ≤ 0x7E

instance (c : Char) : Decidable (Printable c) := by
  unfold Printable
  infer_instance

theorem printable_digit {c : Char} (h : c.isDigit = true) : Printable c := by
  simp only [Char.isDigit, ge_iff_le, Bool.and_eq_true, decide_eq_true_eq,
    UInt32.le_iff_toNat_le] at h
  have hlo : 48 ≤ c.toNat := h.1
  have hhi : c.toNat ≤ 57 := h.2
  exact ⟨by omega, by omega⟩

theorem printable_hexChar : ∀ n < 16, Printable (hexChar n) := by decide

theorem escape_printable (u : UInt16) : ∀ c ∈ escape u, Printable c := by
  intro c hc
  unfold escape at hc
  split at hc
  · rename_i d hs
    obtain ⟨e, he, rfl⟩ := Option.map_eq_some_iff.mp hs
    have hall : ∀ e ∈ shortEscapes, Printable e.2 := by decide
    simp only [List.mem_cons, List.not_mem_nil, or_false] at hc
    rcases hc with rfl | rfl
    · decide
    · exact hall e (List.mem_of_find?_eq_some he)
  · split at hc
    · rename_i hr
      rw [List.mem_singleton.mp hc, Printable, toNat_ofNat_ascii hr.2]
      exact hr
    · simp only [hex4, List.mem_cons, List.not_mem_nil, or_false] at hc
      have hhex : ∀ k, Printable (hexChar (k % 16)) := fun k =>
        printable_hexChar _ (Nat.mod_lt _ (by decide))
      rcases hc with rfl | rfl | rfl | rfl | rfl | rfl
      · decide
      · decide
      · exact hhex _
      · exact hhex _
      · exact hhex _
      · exact hhex _

theorem quoted_printable (s : List UInt16) : ∀ c ∈ quoted s, Printable c := by
  intro c hc
  simp only [quoted, List.mem_cons, List.mem_append, List.mem_flatMap, List.not_mem_nil,
    or_false] at hc
  rcases hc with rfl | ⟨u, -, hu⟩ | rfl
  · decide
  · exact escape_printable u c hu
  · decide

theorem toString_printable (n : Int) : ∀ c ∈ (toString n).toList, Printable c := by
  have hdigits : ∀ m : Nat, ∀ c ∈ Nat.toDigits 10 m, Printable c := fun m c hc =>
    printable_digit (Nat.isDigit_of_mem_toDigits (by decide) (by decide) hc)
  intro c hc
  cases n with
  | ofNat m =>
    rw [toList_ofNat] at hc
    exact hdigits m c hc
  | negSucc m =>
    rw [toList_negSucc] at hc
    rcases List.mem_cons.mp hc with rfl | hc
    · decide
    · exact hdigits _ c hc

mutual

/-- The text is printable ASCII, so it has no line break. -/
theorem dumps_printable : ∀ (v : Json Int), ∀ c ∈ dumps v, Printable c
  | .null => Text.forall_of_all (by decide)
  | .bool true => Text.forall_of_all (by decide)
  | .bool false => Text.forall_of_all (by decide)
  | .num n => toString_printable n
  | .str s => quoted_printable s
  | .arr l => by
    intro c hc
    simp only [dumps, List.mem_cons, List.mem_append, List.not_mem_nil, or_false] at hc
    rcases hc with rfl | hc | rfl
    · decide
    · exact dumpsItems_printable l c hc
    · decide
  | .obj l => by
    intro c hc
    simp only [dumps, List.mem_cons, List.mem_append, List.not_mem_nil, or_false] at hc
    rcases hc with rfl | hc | rfl
    · decide
    · exact dumpsFields_printable l c hc
    · decide

theorem dumpsItems_printable : ∀ (l : List (Json Int)), ∀ c ∈ dumpsItems l, Printable c
  | [] => by simp [dumpsItems]
  | [v] => by
    rw [dumpsItems]
    exact dumps_printable v
  | v :: w :: l => by
    intro c hc
    simp only [dumpsItems, List.mem_cons, List.mem_append] at hc
    rcases hc with hc | rfl | rfl | hc
    · exact dumps_printable v c hc
    · decide
    · decide
    · exact dumpsItems_printable (w :: l) c hc

theorem dumpsFields_printable : ∀ (l : List (List UInt16 × Json Int)),
    ∀ c ∈ dumpsFields l, Printable c
  | [] => by simp [dumpsFields]
  | [(k, v)] => by
    intro c hc
    simp only [dumpsFields, List.mem_cons, List.mem_append] at hc
    rcases hc with hc | rfl | rfl | hc
    · exact quoted_printable k c hc
    · decide
    · decide
    · exact dumps_printable v c hc
  | (k, v) :: e :: l => by
    intro c hc
    simp only [dumpsFields, List.mem_cons, List.mem_append] at hc
    rcases hc with hc | rfl | rfl | hc | rfl | rfl | hc
    · exact quoted_printable k c hc
    · decide
    · decide
    · exact dumps_printable v c hc
    · decide
    · decide
    · exact dumpsFields_printable (e :: l) c hc

end

end Json
