import Mathlib.Data.List.Infix
import BidScope.Core.Text

/-!
# Texts with delimited sections

A text in which a start delimiter opens a section and the next stop delimiter
closes it, read from left to right (`read`) and written from the pieces
outside and inside (`write`), over lists of any symbols.

* `cut_append_iff`: a delimiter that does not overlap itself is found where it
  was written exactly when the text before it does not contain it.
* `read_write`: sections are read back when no piece outside contains the start
  delimiter and no text inside the stop delimiter.
* `inside_write_iff`, `inside_write_one_iff`: and only then.
* `infix_append_cons_iff`, `infix_join_iff`: what a text made of lines contains.
-/
namespace Sections

variable {α : Type}

/-! ## Occurrences -/

/-- Laid over `d` at offset `k`, `e` agrees with it wherever both have a symbol. -/
def Overlaps (d e : List α) (k : Nat) : Prop := d.drop k <+: e ∨ e <+: d.drop k

instance [DecidableEq α] (d e : List α) (k : Nat) : Decidable (Overlaps d e k) :=
  inferInstanceAs (Decidable (_ ∨ _))

theorem overlaps_of_starts {d e s : List α} {i k : Nat} (hd : d <+: s.drop i)
    (he : e <+: s.drop (i + k)) : Overlaps d e k := by
  have h : d.drop k <+: s.drop (i + k) := by
    rw [← List.drop_drop]
    exact hd.drop k
  exact List.prefix_or_prefix_of_prefix h he

theorem prefix_drop_of_eq {s p d r : List α} (h : s = p ++ (d ++ r)) : d <+: s.drop p.length := by
  rw [h, List.drop_left]
  exact List.prefix_append d r

/-- Two words of which neither can start inside the other stand apart. -/
theorem apart {d e s : List α} {i j : Nat} (hde : ∀ k < d.length, ¬ Overlaps d e k)
    (hed : ∀ k < e.length, ¬ Overlaps e d k) (hi : d <+: s.drop i) (hj : e <+: s.drop j) :
    i + d.length ≤ j ∨ j + e.length ≤ i := by
  by_contra hc
  rcases Nat.le_total i j with h | h
  · refine hde (j - i) (by omega) (overlaps_of_starts hi ?_)
    rwa [show i + (j - i) = j by omega]
  · refine hed (i - j) (by omega) (overlaps_of_starts hj ?_)
    rwa [show j + (i - j) = i by omega]

/-- Two occurrences of a word that does not overlap itself. -/
theorem apart_self {d s : List α} {i j : Nat} (hd : ∀ k < d.length, 0 < k → ¬ Overlaps d d k)
    (hi : d <+: s.drop i) (hj : d <+: s.drop j) (hij : i < j) : i + d.length ≤ j := by
  by_contra hc
  refine hd (j - i) (by omega) (by omega) (overlaps_of_starts hi ?_)
  rwa [show i + (j - i) = j by omega]

theorem infix_of_append {a d b p r : List α} (h : a ++ (d ++ b) = p ++ r)
    (hl : a.length + d.length ≤ p.length) : d <:+: p := by
  have ha : a ++ d <+: p := by
    refine List.prefix_of_prefix_length_le ?_ (List.prefix_append p r) (by simpa using hl)
    rw [← h, ← List.append_assoc]
    exact List.prefix_append _ _
  exact (List.suffix_append a d).isInfix.trans ha.isInfix

theorem infix_left {d p r : List α} {i : Nat} (h : d <+: (p ++ r).drop i)
    (hl : i + d.length ≤ p.length) : d <:+: p := by
  obtain ⟨b, hb⟩ := h
  refine infix_of_append (a := (p ++ r).take i) (b := b) (r := r) ?_ ?_
  · rw [hb, List.take_append_drop]
  · rw [List.length_take]
    omega

theorem infix_right {d p r : List α} {i : Nat} (h : d <+: (p ++ r).drop i) (hl : p.length ≤ i) :
    d <:+: r := by
  rw [List.drop_append, List.drop_eq_nil_of_le hl, List.nil_append] at h
  exact h.isInfix.trans (List.drop_suffix _ _).isInfix

/-! ## What a text made of lines contains -/

theorem infix_append_cons_iff {d xs ys : List α} {c : α} (hc : c ∉ d) :
    d <:+: xs ++ c :: ys ↔ d <:+: xs ∨ d <:+: ys := by
  constructor
  · rintro ⟨a, b, h⟩
    rw [List.append_assoc] at h
    rcases Nat.lt_or_ge xs.length (a.length + d.length) with hl | hl
    · right
      -- the word cannot run over `c`, so it starts after it
      have ha : xs.length < a.length := by
        by_contra hle
        have hmem : (a ++ (d ++ b))[xs.length]? = some c := by rw [h]; simp
        rw [List.getElem?_append_right (by omega), List.getElem?_append_left (by omega)] at hmem
        exact hc (List.mem_of_getElem? hmem)
      have hxs : xs ++ [c] <+: xs ++ c :: ys := ⟨ys, by simp⟩
      have hp : xs ++ [c] <+: a :=
        List.prefix_of_prefix_length_le hxs ⟨d ++ b, h⟩ (by rw [List.length_append]; exact ha)
      obtain ⟨a', rfl⟩ := hp
      refine ⟨a', b, ?_⟩
      simpa using h
    · exact .inl (infix_of_append h hl)
  · rintro (h | h)
    · exact h.trans (List.prefix_append _ _).isInfix
    · exact h.trans ((List.suffix_cons c ys).trans (List.suffix_append _ _)).isInfix

theorem infix_join_iff {d : List α} {c : α} (hne : d ≠ []) (hc : c ∉ d) : ∀ (ls : List (List α)),
    d <:+: Text.join [c] ls ↔ ∃ l ∈ ls, d <:+: l
  | [] => by simp [Text.join, hne]
  | [l] => by simp [Text.join]
  | l :: m :: ls => by
    have ih := infix_join_iff hne hc (m :: ls)
    simp only [Text.join, List.append_assoc, List.singleton_append, infix_append_cons_iff hc, ih,
      List.exists_mem_cons_iff]

/-! ## Finding a delimiter -/

section Cut

variable [DecidableEq α]

theorem cut_spec {s d p r : List α} : s.dropInfix? d = some (p, r) ↔
    s = p ++ (d ++ r) ∧ ∀ a b, s = a ++ (d ++ b) → p.length ≤ a.length := by
  rw [List.dropInfix?_eq_some_iff]
  constructor
  · rintro ⟨⟨i, h, hi⟩, hmin⟩
    obtain rfl := eq_of_beq hi
    exact ⟨by simpa using h, fun a b hab => hmin a i b (by simpa using hab) hi⟩
  · rintro ⟨h, hmin⟩
    refine ⟨⟨d, by simpa using h, beq_self_eq_true d⟩, fun a i b hab hi => ?_⟩
    obtain rfl := eq_of_beq hi
    exact hmin a b (by simpa using hab)

theorem cutGo_none (d : List α) : ∀ (s acc : List α), d ≠ [] →
    List.dropInfix?.go d s acc = none → ¬ d <:+: s
  | [], _, hne, _, h => hne (List.infix_nil.mp h)
  | x :: s, acc, hne, h, hinf => by
    unfold List.dropInfix?.go at h
    cases hp : (x :: s).dropPrefix? d with
    | some r => simp [hp] at h
    | none =>
      simp only [hp] at h
      rcases List.infix_cons_iff.mp hinf with ⟨r, hr⟩ | hin
      · have := List.dropPrefix?_eq_some_iff.mpr ⟨d, hr.symm, beq_self_eq_true d⟩
        simp [hp] at this
      · exact cutGo_none d s (x :: acc) hne h hin

theorem cut_none {s d : List α} (hne : d ≠ []) : s.dropInfix? d = none ↔ ¬ d <:+: s := by
  constructor
  · exact cutGo_none d s [] hne
  · intro hinf
    cases h : s.dropInfix? d with
    | none => rfl
    | some pr => exact absurd ((cut_spec.mp h).1 ▸ List.infix_append' _ _ _) hinf

/-- A delimiter is found where it was written exactly when the text before it
does not contain it. -/
theorem cut_append_iff {d p r : List α} (hne : d ≠ [])
    (hd : ∀ k < d.length, 0 < k → ¬ Overlaps d d k) :
    (p ++ (d ++ r)).dropInfix? d = some (p, r) ↔ ¬ d <:+: p := by
  rw [cut_spec]
  constructor
  · rintro ⟨-, hmin⟩ ⟨a, b, h⟩
    have := hmin a (b ++ (d ++ r)) (by rw [← h]; simp)
    have hl := congrArg List.length h
    have hpos := List.length_pos_iff.mpr hne
    simp only [List.length_append] at hl
    omega
  · intro hp
    refine ⟨rfl, fun a b h => ?_⟩
    by_contra hlt
    have hle := apart_self hd (prefix_drop_of_eq h) (prefix_drop_of_eq rfl) (by omega)
    exact hp (infix_of_append h.symm hle)

end Cut

/-! ## Reading and writing -/

/-- Two delimiters of which no occurrence overlaps another. -/
structure Delims (α : Type) where
  start : List α
  stop : List α
  start_ne : start ≠ []
  start_start : ∀ k < start.length, 0 < k → ¬ Overlaps start start k
  stop_stop : ∀ k < stop.length, 0 < k → ¬ Overlaps stop stop k
  start_stop : ∀ k < start.length, ¬ Overlaps start stop k
  stop_start : ∀ k < stop.length, ¬ Overlaps stop start k

theorem Delims.stop_ne (D : Delims α) : D.stop ≠ [] := by
  intro h
  exact D.start_stop 0 (List.length_pos_iff.mpr D.start_ne) (.inr (by simp [h]))

/-- What stands outside the sections, and what is inside them, in order. -/
structure Reading (α : Type) where
  outside : List (List α)
  inside : List (List α)
  deriving DecidableEq

/-- `before`, and then each section with the text that follows it. -/
def write (D : Delims α) (before : List α) : List (List α × List α) → List α
  | [] => before
  | (text, after) :: rest => before ++ (D.start ++ (text ++ (D.stop ++ write D after rest)))

theorem length_le_write (D : Delims α) : ∀ (secs : List (List α × List α)) (before : List α),
    secs.length ≤ (write D before secs).length
  | [], _ => Nat.zero_le _
  | (text, after) :: rest, before => by
    have ih := length_le_write D rest after
    have := List.length_pos_iff.mpr D.start_ne
    simp only [write, List.length_append, List.length_cons]
    omega

/-- The section read when the start delimiter occurs earlier, at the end of `p`:
were its text `text` all the same, the stop delimiter that ends it would begin
inside the text written, unless another section follows. -/
theorem infix_of_earlier (D : Delims α) {s before text after p r : List α}
    (h : s = before ++ D.start ++ (text ++ (D.stop ++ after)))
    (h' : s = p ++ D.start ++ text ++ D.stop ++ r)
    (hp : p.length + D.start.length ≤ before.length) (htext : ¬ D.stop <:+: text) :
    D.start <:+: r := by
  have hlen := congrArg List.length (h.symm.trans h')
  simp only [List.length_append] at hlen
  have hpos := List.length_pos_iff.mpr D.start_ne
  have hstart : D.start <+: s.drop before.length := prefix_drop_of_eq (by rw [h, List.append_assoc])
  have hstop : D.stop <+: s.drop (p ++ D.start ++ text).length :=
    prefix_drop_of_eq (by rw [h', List.append_assoc])
  have hnext : D.stop <+: s.drop (before ++ D.start ++ text).length :=
    prefix_drop_of_eq (by rw [h, List.append_assoc _ text])
  simp only [List.length_append] at hstop hnext
  rcases apart D.start_stop D.stop_start hstart hstop with hle | hle
  · have hgap := apart_self D.stop_stop hstop hnext (by omega)
    refine absurd (infix_left (r := D.stop ++ after)
      (i := p.length + text.length - before.length) ?_ (by omega)) htext
    have hdrop : s.drop (p.length + D.start.length + text.length) =
        (text ++ (D.stop ++ after)).drop (p.length + text.length - before.length) := by
      rw [h, List.drop_append, List.drop_eq_nil_of_le (by rw [List.length_append]; omega),
        List.nil_append, List.length_append]
      congr 1
      omega
    rwa [← hdrop]
  · refine infix_right (p := p ++ D.start ++ text ++ D.stop) (i := before.length) ?_ ?_
    · rwa [← h']
    · simp only [List.length_append]
      omega

variable [DecidableEq α]

/-- At most `n` sections; one that is never closed runs to the end. -/
def readGo (D : Delims α) : Nat → List α → Reading α
  | 0, s => ⟨[s], []⟩
  | n + 1, s =>
    match s.dropInfix? D.start with
    | none => ⟨[s], []⟩
    | some (before, rest) =>
      match rest.dropInfix? D.stop with
      | none => ⟨[before], [rest]⟩
      | some (text, after) =>
        ⟨before :: (readGo D n after).outside, text :: (readGo D n after).inside⟩

def read (D : Delims α) (s : List α) : Reading α := readGo D s.length s

/-- No piece outside opens a section, and no text inside closes one. -/
def Clean (D : Delims α) (before : List α) (secs : List (List α × List α)) : Prop :=
  ¬ D.start <:+: before ∧ ∀ s ∈ secs, ¬ D.stop <:+: s.1 ∧ ¬ D.start <:+: s.2

theorem readGo_write (D : Delims α) : ∀ (secs : List (List α × List α)) (before : List α) (n : Nat),
    Clean D before secs → secs.length ≤ n →
    readGo D n (write D before secs) = ⟨before :: secs.map Prod.snd, secs.map Prod.fst⟩
  | [], before, n, hc, _ => by
    cases n with
    | zero => rfl
    | succ n => simp [readGo, write, (cut_none D.start_ne).mpr hc.1]
  | (text, after) :: rest, before, n, hc, hn => by
    obtain ⟨n, rfl⟩ : ∃ m, n = m + 1 := ⟨n - 1, by simp only [List.length_cons] at hn; omega⟩
    obtain ⟨htext, hafter⟩ := hc.2 _ (List.mem_cons_self ..)
    have hrest : Clean D after rest := ⟨hafter, fun s hs => hc.2 s (List.mem_cons_of_mem _ hs)⟩
    have ih := readGo_write D rest after n hrest (by simpa using hn)
    simp only [readGo, write, (cut_append_iff D.start_ne D.start_start).mpr hc.1,
      (cut_append_iff D.stop_ne D.stop_stop).mpr htext, ih, List.map_cons]

/-- Sections are read back when no delimiter occurs where it would be misread. -/
theorem read_write (D : Delims α) {before : List α} {secs : List (List α × List α)}
    (hc : Clean D before secs) :
    read D (write D before secs) = ⟨before :: secs.map Prod.snd, secs.map Prod.fst⟩ :=
  readGo_write D secs before _ hc (length_le_write D secs before)

/-- Between texts that do not open a section, sections are recovered only when
none of them contains the stop delimiter. -/
theorem clean_of_inside (D : Delims α) : ∀ (secs : List (List α × List α)) (before : List α) (n : Nat),
    ¬ D.start <:+: before → (∀ s ∈ secs, ¬ D.start <:+: s.2) →
    (readGo D n (write D before secs)).inside = secs.map Prod.fst → Clean D before secs
  | [], _, _, hb, _, _ => ⟨hb, by simp⟩
  | (text, after) :: rest, before, 0, _, _, h => by simp [readGo] at h
  | (text, after) :: rest, before, n + 1, hb, hafter, h => by
    simp only [readGo, write, (cut_append_iff D.start_ne D.start_start).mpr hb, List.map_cons] at h
    cases hs : (text ++ (D.stop ++ write D after rest)).dropInfix? D.stop with
    | none => exact absurd (List.infix_append' _ _ _) ((cut_none D.stop_ne).mp hs)
    | some tr =>
      obtain ⟨t, r⟩ := tr
      simp only [hs, List.cons.injEq] at h
      obtain ⟨rfl, h⟩ := h
      obtain ⟨heq, -⟩ := cut_spec.mp hs
      obtain rfl : write D after rest = r := by simpa using heq
      have ih := clean_of_inside D rest after n (hafter _ (List.mem_cons_self ..))
        (fun s hs => hafter s (List.mem_cons_of_mem _ hs)) h
      refine ⟨hb, fun s hs' => ?_⟩
      rcases List.mem_cons.mp hs' with rfl | hs'
      · exact ⟨(cut_append_iff D.stop_ne D.stop_stop).mp hs, hafter _ (List.mem_cons_self ..)⟩
      · exact ih.2 s hs'

theorem inside_write_iff (D : Delims α) {before : List α} {secs : List (List α × List α)}
    (hb : ¬ D.start <:+: before) (ha : ∀ s ∈ secs, ¬ D.start <:+: s.2) :
    (read D (write D before secs)).inside = secs.map Prod.fst ↔ Clean D before secs :=
  ⟨clean_of_inside D secs before _ hb ha, fun hc => by rw [read_write D hc]⟩

theorem not_infix_of_inside_nil (D : Delims α) {n : Nat} {s : List α} (hn : s.length ≤ n)
    (h : (readGo D n s).inside = []) : ¬ D.start <:+: s := by
  cases n with
  | zero =>
    intro hinf
    rw [List.length_eq_zero_iff.mp (Nat.le_zero.mp hn)] at hinf
    exact D.start_ne (List.infix_nil.mp hinf)
  | succ n =>
    rw [← cut_none D.start_ne]
    unfold readGo at h
    cases hs : s.dropInfix? D.start with
    | none => rfl
    | some pr => cases hr : pr.2.dropInfix? D.stop <;> simp [hs, hr] at h

/-- One section: its text is recovered only when it does not contain the stop
delimiter and nothing before it contains the start delimiter. -/
theorem inside_write_one_iff (D : Delims α) {before text after : List α}
    (ha : ¬ D.start <:+: after) :
    (read D (write D before [(text, after)])).inside = [text] ↔ Clean D before [(text, after)] := by
  refine ⟨fun h => ?_, fun hc => by rw [read_write D hc]; rfl⟩
  suffices hb : ¬ D.start <:+: before from
    (inside_write_iff D hb (by simpa using ha)).mp (by simpa using h)
  rintro ⟨a, b, hab⟩
  have hwrite : write D before [(text, after)] = before ++ (D.start ++ (text ++ (D.stop ++ after))) := rfl
  obtain ⟨n, hn⟩ : ∃ n, (write D before [(text, after)]).length = n + 1 :=
    Nat.exists_eq_add_one.mpr (length_le_write D [(text, after)] before)
  rw [read, hn, readGo] at h
  cases hcut : (write D before [(text, after)]).dropInfix? D.start with
  | none => simp [hcut] at h
  | some pr =>
    obtain ⟨p, rest⟩ := pr
    obtain ⟨hp, hmin⟩ := cut_spec.mp hcut
    have hle := hmin a (b ++ (D.start ++ (text ++ (D.stop ++ after)))) (by rw [hwrite, ← hab]; simp)
    have hl := congrArg List.length (hwrite.symm.trans hp)
    have hab' := congrArg List.length hab
    have hpos := List.length_pos_iff.mpr D.stop_ne
    simp only [List.length_append] at hl hab'
    cases hstop : rest.dropInfix? D.stop with
    | none =>
      simp only [hcut, hstop, List.cons.injEq, and_true] at h
      rw [h] at hl
      omega
    | some tr =>
      obtain ⟨t, r⟩ := tr
      simp only [hcut, hstop, List.cons.injEq] at h
      obtain ⟨rfl, h⟩ := h
      obtain ⟨hrest, -⟩ := cut_spec.mp hstop
      have htext : ¬ D.stop <:+: t := (cut_append_iff D.stop_ne D.stop_stop).mp (hrest ▸ hstop)
      have hr : r.length ≤ n := by
        rw [hp, hrest] at hn
        simp only [List.length_append] at hn
        omega
      have hs : write D before [(t, after)] = before ++ D.start ++ (t ++ (D.stop ++ after)) := by
        rw [hwrite, List.append_assoc]
      have hs' : write D before [(t, after)] = p ++ D.start ++ t ++ D.stop ++ r := by
        rw [hp, hrest]
        simp only [List.append_assoc]
      exact not_infix_of_inside_nil D hr h (infix_of_earlier D hs hs' (by omega) htext)

end Sections
