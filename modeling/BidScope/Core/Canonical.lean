import Mathlib.Data.List.Sort
import BidScope.Core.Json

/-!
# Canonical JSON

`Data` is a value as Python holds it before it is written: strings of
characters, whole numbers, no floats. `canonical` is `json.dumps` with
`sort_keys=True`, `separators=(",", ":")` and `ensure_ascii=False`; `utf8` and
`decodeUtf8` are the codec it is stored with.

* `parse_canonical`: what is written is read back, with its keys sorted.
* `get_sorted`: sorting moves no member from its key.
* `units_injective`: a string is known by its UTF-16 code units.
* `decodeUtf8_utf8`: the codec gives a text back.
-/
namespace Json

inductive Data where
  | none
  | bool (b : Bool)
  | int (n : Int)
  | str (s : String)
  | list (items : List Data)
  | dict (fields : List (String × Data))

mutual

/-- The value as a reader has it. -/
def Data.json : Data → Json Number
  | .none => .null
  | .bool b => .bool b
  | .int n => .num (.int n)
  | .str s => .str (units s)
  | .list l => .arr (jsonItems l)
  | .dict l => .obj (jsonFields l)

def jsonItems : List Data → List (Json Number)
  | [] => []
  | v :: l => v.json :: jsonItems l

def jsonFields : List (String × Data) → List (List UInt16 × Json Number)
  | [] => []
  | (k, v) :: l => (units k, v.json) :: jsonFields l

end

/-! ## Sorted keys -/

/-- Python orders strings by their code points. -/
def keyLe (a b : String × Data) : Bool := !(b.1.toList.lex a.1.toList fun c d => decide (c.toNat < d.toNat))

mutual

def Data.sorted : Data → Data
  | .none => .none
  | .bool b => .bool b
  | .int n => .int n
  | .str s => .str s
  | .list l => .list (sortedItems l)
  | .dict l => .dict ((sortedFields l).insertionSort fun a b => keyLe a b = true)

def sortedItems : List Data → List Data
  | [] => []
  | v :: l => v.sorted :: sortedItems l

def sortedFields : List (String × Data) → List (String × Data)
  | [] => []
  | (k, v) :: l => (k, v.sorted) :: sortedFields l

end

/-! ## Writing -/

/-- Without `ensure_ascii` quotes, backslashes and control characters are escaped. -/
def escapeChar (c : Char) : List Char :=
  match shortEscape c.toNat with
  | some e => ['\\', e]
  | none => if c.toNat < 0x20 then '\\' :: 'u' :: hex4 c.toNat else [c]

def quotedText (s : List Char) : List Char := '"' :: (s.flatMap escapeChar ++ ['"'])

mutual

def compact : Data → List Char
  | .none => ['n', 'u', 'l', 'l']
  | .bool true => ['t', 'r', 'u', 'e']
  | .bool false => ['f', 'a', 'l', 's', 'e']
  | .int n => (toString n).toList
  | .str s => quotedText s.toList
  | .list l => '[' :: (compactItems l ++ [']'])
  | .dict l => '\x7b' :: (compactFields l ++ ['\x7d'])

def compactItems : List Data → List Char
  | [] => []
  | [v] => compact v
  | v :: w :: l => compact v ++ ',' :: compactItems (w :: l)

def compactFields : List (String × Data) → List Char
  | [] => []
  | [(k, v)] => quotedText k.toList ++ ':' :: compact v
  | (k, v) :: e :: l => quotedText k.toList ++ ':' :: (compact v ++ ',' :: compactFields (e :: l))

end

def canonical (v : Data) : List Char := compact v.sorted

/-! ## Reading back -/

variable {rest cs : List Char}

theorem utf16_ascii {c : Char} (h : c.toNat < 0x20) : utf16 c = [UInt16.ofNat c.toNat] := by
  rw [utf16, if_pos (by omega)]

theorem shortEscape_ascii {n : Nat} {e : Char} (h : shortEscape n = some e) : n < 0x10000 := by
  obtain ⟨row, hrow, -⟩ := Option.map_eq_some_iff.mp h
  have hn : row.1 = n := by simpa using List.find?_some hrow
  have hall : ∀ row ∈ shortEscapes, row.1 < 0x10000 := by decide
  exact hn ▸ hall row (List.mem_of_find?_eq_some hrow)

theorem literal_escapeChar (c : Char) :
    literal .plain (escapeChar c ++ rest) =
      (literal .plain rest).map fun (us, rest) => (utf16 c ++ us, rest) := by
  unfold escapeChar
  cases hs : shortEscape c.toNat with
  | some e =>
    obtain ⟨hne, hun⟩ := shortEscape_some hs
    have hunit : utf16 c = [UInt16.ofNat c.toNat] := by
      rw [utf16, if_pos (shortEscape_ascii hs)]
    simp only [List.cons_append, List.nil_append]
    rw [literal, if_neg (by decide), if_pos rfl, literal, if_neg hne, hun, Option.bind_some, hunit]
    rfl
  | none =>
    obtain ⟨hq, hb⟩ := shortEscape_none hs
    have hquote : c ≠ '"' := fun he => hq (by rw [he]; rfl)
    have hslash : c ≠ '\\' := fun he => hb (by rw [he]; rfl)
    simp only
    split
    · next hlow =>
      simp only [List.cons_append]
      rw [literal, if_neg (by decide), if_pos rfl, literal, if_pos rfl, literal_hex4 (by omega), utf16_ascii hlow]
      rfl
    · next hlow =>
      rw [List.cons_append, List.nil_append, literal, if_neg hquote, if_neg hslash, if_neg hlow]

theorem literal_quotedText : ∀ s : List Char,
    literal .plain (s.flatMap escapeChar ++ '"' :: rest) = some (s.flatMap utf16, rest)
  | [] => by simp [literal]
  | c :: s => by
    rw [List.flatMap_cons, List.append_assoc, literal_escapeChar, literal_quotedText s]
    rfl

theorem quotedText_append (s : List Char) : quotedText s ++ rest = '"' :: (s.flatMap escapeChar ++ '"' :: rest) := by
  simp [quotedText]

theorem value_quotedText (n : Nat) (s : String) :
    value (n + 1) (quotedText s.toList ++ rest) = some (.str (units s), rest) := by
  rw [quotedText_append, value, skipWs_opens (by decide)]
  simp only [if_true, literal_quotedText, Option.map_some, units]

theorem fields_quotedText (n : Nat) (k : String) :
    fields (n + 1) (quotedText k.toList ++ ':' :: cs) =
      (value n cs).bind fun (v, rest) =>
        match skipWs rest with
        | ',' :: cs => (fields n cs).map fun (l, rest) => ((units k, v) :: l, rest)
        | '\x7d' :: rest => some ([(units k, v)], rest)
        | _ => none := by
  rw [quotedText_append, fields, skipWs_opens (by decide)]
  simp only [literal_quotedText, Option.bind_some]
  rw [skipWs_opens (by decide)]
  rfl

theorem compact_opens (v : Data) : ∃ c t, compact v = c :: t ∧ Opens c := by
  cases v with
  | bool b => cases b <;> exact ⟨_, _, rfl, by decide, by decide, by decide⟩
  | int n =>
    cases n with
    | ofNat m =>
      obtain ⟨c, t, hd, hc⟩ := toDigits_head m
      exact ⟨c, t, by rw [compact, toList_ofNat, hd], opens_digit hc⟩
    | negSucc m => exact ⟨_, _, toList_negSucc m, by decide, by decide, by decide⟩
  | none | str s | list l | dict l => exact ⟨_, _, rfl, by decide, by decide, by decide⟩

theorem compactItems_opens (v : Data) (l : List Data) : ∃ c t, compactItems (v :: l) = c :: t ∧ Opens c := by
  obtain ⟨c, t, hd, hc⟩ := compact_opens v
  cases l with
  | nil => exact ⟨c, t, by rw [compactItems, hd], hc⟩
  | cons w l => exact ⟨c, _, by rw [compactItems, hd, List.cons_append], hc⟩

theorem compactFields_opens (k : String) (v : Data) (l : List (String × Data)) :
    ∃ t, compactFields ((k, v) :: l) = '"' :: t := by
  cases l with
  | nil => exact ⟨_, rfl⟩
  | cons e l => exact ⟨_, rfl⟩

mutual

theorem value_compact : ∀ (v : Data) (n : Nat) (rest : List Char),
    2 * (compact v).length ≤ n → Ends rest → value n (compact v ++ rest) = some (v.json, rest)
  | .none, n + 1, rest, _, _ => rfl
  | .bool true, n + 1, rest, _, _ => rfl
  | .bool false, n + 1, rest, _, _ => rfl
  | .int z, n + 1, rest, _, hr => by
    have hnum := number_toString z hr
    have hhead : ∃ c t, (toString z).toList = c :: t ∧ (c = '-' ∨ c.isDigit = true) := by
      cases z with
      | ofNat m =>
        obtain ⟨c, t, hd, hc⟩ := toDigits_head m
        exact ⟨c, t, by rw [toList_ofNat, hd], Or.inr hc⟩
      | negSucc m => exact ⟨_, _, toList_negSucc m, Or.inl rfl⟩
    obtain ⟨c, t, hd, hc⟩ := hhead
    rw [hd, List.cons_append] at hnum
    rw [compact, hd, List.cons_append, value_number hc, hnum, Data.json]
    rfl
  | .str s, n + 1, rest, _, _ => by
    rw [compact, value_quotedText, Data.json]
  | .list [], n + 1, rest, _, _ => rfl
  | .list (v :: l), n + 1, rest, hn, _ => by
    simp only [compact, List.length_cons, List.length_append] at hn
    have hi := items_compact v l n rest (by omega)
    obtain ⟨c, t, hd, ho⟩ := compactItems_opens v l
    have htext : compact (.list (v :: l)) ++ rest = '[' :: (compactItems (v :: l) ++ ']' :: rest) := by
      simp [compact]
    rw [htext, hd, List.cons_append, value_array ho, ← List.cons_append, ← hd, hi, Data.json]
    rfl
  | .dict [], n + 1, rest, _, _ => rfl
  | .dict ((k, v) :: l), n + 1, rest, hn, _ => by
    simp only [compact, List.length_cons, List.length_append] at hn
    have hi := fields_compact k v l n rest (by omega)
    obtain ⟨t, hd⟩ := compactFields_opens k v l
    have htext : compact (.dict ((k, v) :: l)) ++ rest =
        '\x7b' :: (compactFields ((k, v) :: l) ++ '\x7d' :: rest) := by
      simp [compact]
    rw [htext, hd, List.cons_append, value_object ⟨by decide, by decide, by decide⟩,
      ← List.cons_append, ← hd, hi, Data.json]
    rfl
  | v, 0, rest, hn, _ => by
    obtain ⟨c, t, hd, -⟩ := compact_opens v
    rw [hd] at hn
    cases hn

theorem items_compact : ∀ (v : Data) (l : List Data) (n : Nat) (rest : List Char),
    2 * (compactItems (v :: l)).length + 1 ≤ n →
      items n (compactItems (v :: l) ++ ']' :: rest) = some (jsonItems (v :: l), rest)
  | v, [], n + 1, rest, hn => by
    rw [compactItems] at hn ⊢
    rw [items_last (value_compact v n (']' :: rest) (by omega) (ends_cons (by decide)))]
    rfl
  | v, w :: l, n + 1, rest, hn => by
    simp only [compactItems, List.length_cons, List.length_append] at hn
    have htext : compactItems (v :: w :: l) ++ ']' :: rest =
        compact v ++ ',' :: (compactItems (w :: l) ++ ']' :: rest) := by
      simp [compactItems]
    rw [htext, items_cons (value_compact v n _ (by omega) (ends_cons (by decide))),
      items_compact w l n rest (by omega)]
    rfl

theorem fields_compact : ∀ (k : String) (v : Data) (l : List (String × Data)) (n : Nat) (rest : List Char),
    2 * (compactFields ((k, v) :: l)).length + 1 ≤ n →
      fields n (compactFields ((k, v) :: l) ++ '\x7d' :: rest) = some (jsonFields ((k, v) :: l), rest)
  | k, v, [], n + 1, rest, hn => by
    simp only [compactFields, List.length_cons, List.length_append] at hn
    have htext : compactFields [(k, v)] ++ '\x7d' :: rest =
        quotedText k.toList ++ ':' :: (compact v ++ '\x7d' :: rest) := by
      simp [compactFields]
    rw [htext, fields_quotedText, value_compact v n _ (by omega) (ends_cons (by decide))]
    rfl
  | k, v, (k', v') :: l, n + 1, rest, hn => by
    simp only [compactFields, List.length_cons, List.length_append] at hn
    have htext : compactFields ((k, v) :: (k', v') :: l) ++ '\x7d' :: rest =
        quotedText k.toList ++ ':' ::
          (compact v ++ ',' :: (compactFields ((k', v') :: l) ++ '\x7d' :: rest)) := by
      simp [compactFields]
    rw [htext, fields_quotedText, value_compact v n _ (by omega) (ends_cons (by decide)), Option.bind_some]
    have hnext := fields_compact k' v' l n rest (by omega)
    show (fields n _).map _ = _
    rw [hnext]
    rfl

end

/-- **Round trip.** -/
theorem parse_canonical (v : Data) : parse (canonical v) = some v.sorted.json := by
  have h : value (2 * (canonical v).length + 2) (canonical v ++ []) = some (v.sorted.json, []) :=
    value_compact v.sorted _ [] (by rw [canonical]; omega) ends_nil
  rw [List.append_nil] at h
  rw [parse, h]
  rfl

/-! ## Members -/

theorem utf16_cons (c : Char) : ∃ u us, utf16 c = u :: us := by
  unfold utf16
  split
  · exact ⟨_, _, rfl⟩
  · exact ⟨_, _, rfl⟩

theorem toNat_ofNat_unit {n : Nat} (h : n < 0x10000) : (UInt16.ofNat n).toNat = n := by
  rw [UInt16.toNat_ofNat', Nat.mod_eq_of_lt h]

/-- No character is a surrogate. -/
theorem not_surrogate (c : Char) : c.toNat < 0xD800 ∨ 0xE000 ≤ c.toNat := by
  rcases c.valid with h | h
  · exact .inl h
  · exact .inr (by have : 0xDFFF < c.toNat := h.1; omega)

theorem toNat_lt (c : Char) : c.toNat < 0x110000 := by
  rcases c.valid with h | h
  · have : c.toNat < 0xD800 := h
    omega
  · exact h.2

/-- The first unit of a character, alone or with the one behind it, is that character's. -/
theorem utf16_append_inj {c d : Char} {us vs : List UInt16} (h : utf16 c ++ us = utf16 d ++ vs) : c = d ∧ us = vs := by
  have hc := not_surrogate c
  have hd := not_surrogate d
  have hcb := toNat_lt c
  have hdb := toNat_lt d
  have hinj : c.toNat = d.toNat → c = d := fun he => Char.toNat_inj.mp he
  unfold utf16 at h
  split at h <;> split at h
  · next hlo hlo' =>
    obtain ⟨hu, hus⟩ := List.cons_eq_cons.mp h
    have hn := congrArg UInt16.toNat hu
    rw [toNat_ofNat_unit hlo, toNat_ofNat_unit hlo'] at hn
    exact ⟨hinj hn, hus⟩
  · next hlo hhi =>
    have hn := congrArg UInt16.toNat (List.cons_eq_cons.mp h).1
    rw [toNat_ofNat_unit hlo, toNat_ofNat_unit (by omega)] at hn
    omega
  · next hhi hlo =>
    have hn := congrArg UInt16.toNat (List.cons_eq_cons.mp h).1
    rw [toNat_ofNat_unit (by omega), toNat_ofNat_unit hlo] at hn
    omega
  · next hhi hhi' =>
    obtain ⟨hu, htail⟩ := List.cons_eq_cons.mp h
    obtain ⟨hv, hus⟩ := List.cons_eq_cons.mp htail
    have hn := congrArg UInt16.toNat hu
    have hm := congrArg UInt16.toNat hv
    rw [toNat_ofNat_unit (by omega), toNat_ofNat_unit (by omega)] at hn hm
    exact ⟨hinj (by omega), hus⟩

theorem flatMap_utf16_inj : ∀ {s t : List Char}, s.flatMap utf16 = t.flatMap utf16 → s = t
  | [], [], _ => rfl
  | [], d :: t, h => by
    obtain ⟨u, us, hu⟩ := utf16_cons d
    rw [List.flatMap_cons, hu] at h
    cases h
  | c :: s, [], h => by
    obtain ⟨u, us, hu⟩ := utf16_cons c
    rw [List.flatMap_cons, hu] at h
    cases h
  | c :: s, d :: t, h => by
    obtain ⟨rfl, hrest⟩ := utf16_append_inj h
    rw [flatMap_utf16_inj hrest]

theorem units_injective {s t : String} (h : units s = units t) : s = t :=
  String.toList_injective (flatMap_utf16_inj h)

theorem jsonFields_eq : ∀ l : List (String × Data), jsonFields l = l.map fun e => (units e.1, e.2.json)
  | [] => rfl
  | (k, v) :: l => by rw [jsonFields, jsonFields_eq l, List.map_cons]

theorem jsonItems_eq : ∀ l : List Data, jsonItems l = l.map Data.json
  | [] => rfl
  | v :: l => by rw [jsonItems, jsonItems_eq l, List.map_cons]

theorem sortedItems_eq : ∀ l : List Data, sortedItems l = l.map Data.sorted
  | [] => rfl
  | v :: l => by rw [sortedItems, sortedItems_eq l, List.map_cons]

theorem sortedFields_eq : ∀ l : List (String × Data), sortedFields l = l.map fun e => (e.1, e.2.sorted)
  | [] => rfl
  | (k, v) :: l => by rw [sortedFields, sortedFields_eq l, List.map_cons]

/-- A dictionary as it is read back: the members in the order of their keys. -/
theorem perm_sorted (l : List (String × Data)) :
    ((sortedFields l).insertionSort fun a b => keyLe a b = true).Perm (l.map fun e => (e.1, e.2.sorted)) := by
  rw [← sortedFields_eq]
  exact List.perm_insertionSort _ _

/-- Among members with keys of their own the one found is the one there. -/
theorem find_key {ν : Type} {l : List (String × ν)} (hd : (l.map Prod.fst).Nodup) {e : String × ν} :
    l.find? (fun x => x.1 = e.1) = some e ↔ e ∈ l := by
  constructor
  · exact List.mem_of_find?_eq_some
  · intro he
    cases hf : l.find? (fun x => x.1 = e.1) with
    | none => exact absurd (List.find?_eq_none.mp hf e he) (by simp)
    | some x =>
      have hx : x.1 = e.1 := by simpa using List.find?_some hf
      rw [List.inj_on_of_nodup_map hd (List.mem_of_find?_eq_some hf) he hx]

/-- The member of a dictionary. -/
def member (name : String) (l : List (String × Data)) : Option Data := (l.find? fun e => e.1 = name).map (·.2)

/-- Sorted or not, a member is found under its name. -/
theorem get_sorted {l : List (String × Data)} (hd : (l.map Prod.fst).Nodup) (name : String) :
    (Data.dict l).sorted.json.get name = (member name l).map fun v => v.sorted.json := by
  have hperm := perm_sorted l
  have hkeys : (((sortedFields l).insertionSort fun a b => keyLe a b = true).reverse.map Prod.fst).Nodup := by
    have hp := ((List.reverse_perm _).trans hperm).map Prod.fst
    refine hp.nodup_iff.mpr ?_
    simpa [List.map_map, Function.comp_def] using hd
  have hread : (Data.dict l).sorted.json.get name =
      (((sortedFields l).insertionSort fun a b => keyLe a b = true).reverse.find? fun e => e.1 = name).map
        fun e => e.2.json := by
    simp only [Data.sorted, Data.json, get, jsonFields_eq, ← List.map_reverse, List.find?_map, Option.map_map]
    have hiff : ((fun e : List UInt16 × Json Number => decide (e.1 = units name)) ∘
        fun e : String × Data => (units e.1, e.2.json)) = fun e => decide (e.1 = name) := by
      funext e
      exact decide_eq_decide.mpr ⟨fun h => units_injective h, fun h => congrArg units h⟩
    rw [hiff]
    rfl
  rw [hread, member]
  cases hf : l.find? (fun e => e.1 = name) with
  | none =>
    have hnone : (((sortedFields l).insertionSort fun a b => keyLe a b = true).reverse.find? fun e => e.1 = name) =
        none := by
      rw [List.find?_eq_none]
      intro e he
      obtain ⟨x, hx, rfl⟩ := List.mem_map.mp (hperm.subset (List.mem_reverse.mp he))
      exact List.find?_eq_none.mp hf x hx
    rw [hnone]
    rfl
  | some e =>
    have hname : e.1 = name := by simpa using List.find?_some hf
    subst hname
    have hmem : (e.1, e.2.sorted) ∈ ((sortedFields l).insertionSort fun a b => keyLe a b = true).reverse :=
      List.mem_reverse.mpr (hperm.symm.subset (List.mem_map_of_mem (List.mem_of_find?_eq_some hf)))
    have hfound := (find_key hkeys (e := (e.1, e.2.sorted))).mpr hmem
    rw [show (fun x : String × Data => decide (x.1 = e.1)) = fun x => decide (x.1 = (e.1, e.2.sorted).1) from rfl,
      hfound]
    rfl

/-! ## Bytes -/

/-- `text.encode("utf-8")` -/
def utf8 (text : List Char) : List UInt8 := text.flatMap String.utf8EncodeChar

/-- `bytes.decode("utf-8")`, `none` where it raises. -/
def decodeUtf8 (bytes : List UInt8) : Option (List Char) := bytes.toByteArray.utf8Decode?.map Array.toList

theorem decodeUtf8_utf8 (text : List Char) : decodeUtf8 (utf8 text) = some text := by
  have h : (utf8 text).toByteArray = text.utf8Encode := rfl
  rw [decodeUtf8, h, List.utf8Decode?_utf8Encode]
  rfl

end Json
