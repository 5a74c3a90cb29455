import Mathlib.Data.List.Infix

/-!
# Backtracking regular expressions

Expressions as `re` runs them: `run r s` lists the matches of `r` at the start
of `s` in the order a backtracking matcher tries them, each with its groups and
the rest of the text; the first one is the match. Only classes are repeated,
greedily, so a match of a repetition is never empty by mistake.

* `Takes`, `Fails`: the first match, and that there is none, with one rule for
  each constructor. A rule for a sequence asks for the first match of its first
  part where that succeeds, for every match of it where it fails.
* `search_skip`, `findAll_skip`: text on which the expression cannot start is
  passed over.
* `findAll_takes`: `finditer` goes on behind the match.
* `mem_run_seq` and its like: what a match consists of, for `fullmatch_some`.
* `length_sub_le`: how much a substitution can lengthen a text.
-/
namespace Regex

variable {α : Type}

inductive Re (α : Type) where
  /-- a symbol of the class -/
  | sym (p : α → Bool)
  /-- symbols of the class, as many as possible -/
  | many (p : α → Bool)
  | seq (a b : Re α)
  | alt (a b : Re α)
  | opt (a : Re α)
  | group (n : Nat) (a : Re α)

instance : Append (Re α) := ⟨Re.seq⟩

/-- One symbol of the class or more. -/
def Re.some (p : α → Bool) : Re α := .sym p ++ .many p

/-- The numbered groups of a match, with the text of each. -/
abbrev Groups (α : Type) := List (Nat × List α)

/-- The rests of `s` behind its longest run of the class, its next longest, and so on. -/
def rests (p : α → Bool) : List α → List (List α)
  | [] => [[]]
  | c :: s => if p c then rests p s ++ [c :: s] else [c :: s]

def run : Re α → List α → List (Groups α × List α)
  | .sym _, [] => []
  | .sym p, c :: s => if p c then [([], s)] else []
  | .many p, s => (rests p s).map fun t => ([], t)
  | .seq a b, s => (run a s).flatMap fun m => (run b m.2).map fun n => (m.1 ++ n.1, n.2)
  | .alt a b, s => run a s ++ run b s
  | .opt a, s => run a s ++ [([], s)]
  | .group n a, s => (run a s).map fun m => ((n, s.take (s.length - m.2.length)) :: m.1, m.2)

/-- `re.search`: the first match at the first place that has one, with the rest
of the text behind it. -/
def search (r : Re α) : List α → Option (Groups α × List α)
  | [] => (run r []).head?
  | c :: s => (run r (c :: s)).head?.or (search r s)

/-- The matches behind the next `skip` symbols. -/
def findAllGo (r : Re α) : Nat → List α → List (Groups α)
  | _, [] => []
  | skip + 1, _ :: s => findAllGo r skip s
  | 0, c :: s =>
    match (run r (c :: s)).head? with
    | some m => m.1 :: findAllGo r (s.length - m.2.length) s
    | none => findAllGo r 0 s

/-- `re.finditer`, for an expression that matches no empty text. -/
def findAll (r : Re α) (s : List α) : List (Groups α) := findAllGo r 0 s

/-- `re.fullmatch`: the first match that leaves nothing. -/
def fullmatch (r : Re α) (s : List α) : Option (Groups α) :=
  ((run r s).find? fun m => m.2.isEmpty).map (·.1)

/-- The text of a group, `none` where the match does not set it. -/
def Groups.get (g : Groups α) (n : Nat) : Option (List α) := (g.find? fun e => e.1 == n).map (·.2)

/-! ## The first match -/

attribute [local simp] rests run search findAllGo

/-- The first match of `r` on `s` sets `g` and leaves `t`. -/
def Takes (r : Re α) (s : List α) (g : Groups α) (t : List α) : Prop :=
  (run r s).head? = some (g, t)

/-- `r` does not match at the start of `s`. -/
def Fails (r : Re α) (s : List α) : Prop := run r s = []

/-- Every match of `r` on `s` leaves a rest with the property. -/
def Leaves (r : Re α) (s : List α) (P : List α → Prop) : Prop := ∀ m ∈ run r s, P m.2

/-- The text does not begin with a symbol of the class. -/
def Stops (p : α → Bool) (s : List α) : Prop := ∀ c ∈ s.head?, p c = false

variable {r a b : Re α} {p q : α → Bool} {s t u xs : List α} {g h : Groups α} {P Q : List α → Prop}

@[simp] theorem stops_nil : Stops p [] := nofun

@[simp] theorem stops_cons {c : α} : Stops p (c :: s) ↔ p c = false := by simp [Stops]

theorem run_sym {c : α} : run (.sym p) (c :: s) = if p c then [([], s)] else [] := rfl

theorem run_many : run (.many p) s = (rests p s).map fun t => ([], t) := rfl

theorem run_seq : run (a ++ b) s =
    (run a s).flatMap fun m => (run b m.2).map fun n => (m.1 ++ n.1, n.2) := rfl

theorem run_alt : run (.alt a b) s = run a s ++ run b s := rfl

theorem run_opt : run (.opt a) s = run a s ++ [([], s)] := rfl

theorem run_group {n : Nat} : run (.group n a) s =
    (run a s).map fun m => ((n, s.take (s.length - m.2.length)) :: m.1, m.2) := rfl

theorem takes_sym {c : α} (h : p c = true) : Takes (.sym p) (c :: s) [] s := by
  simp [Takes, h]

theorem fails_sym (h : Stops p s) : Fails (.sym p) s := by
  cases s with
  | nil => rfl
  | cons c s => simp [Fails, stops_cons.mp h]

theorem rests_run (hp : ∀ c ∈ xs, p c = true) (ht : Stops p t) : (rests p (xs ++ t)).head? = some t := by
  induction xs with
  | nil =>
    cases t with
    | nil => rfl
    | cons c t => simp [rests, stops_cons.mp ht]
  | cons c xs ih =>
    have hc : p c = true := hp c (List.mem_cons_self ..)
    have hrest := ih fun d hd => hp d (List.mem_cons_of_mem c hd)
    rw [List.cons_append, rests, if_pos hc, List.head?_append, hrest, Option.some_or]

/-- A shorter run ends before a symbol of the class. -/
theorem mem_rests (ht : Stops p t) (hu : u ∈ rests p (xs ++ t)) (hp : ∀ c ∈ xs, p c = true) :
    u = t ∨ ∃ c v, u = c :: v ∧ p c = true := by
  induction xs with
  | nil =>
    cases t with
    | nil => exact Or.inl (List.mem_singleton.mp hu)
    | cons c t =>
      simp only [List.nil_append, rests, stops_cons.mp ht, Bool.false_eq_true, if_false,
        List.mem_singleton] at hu
      exact Or.inl hu
  | cons c xs ih =>
    have hc : p c = true := hp c (List.mem_cons_self ..)
    rw [List.cons_append, rests, if_pos hc, List.mem_append, List.mem_singleton] at hu
    rcases hu with hu | rfl
    · exact ih hu fun d hd => hp d (List.mem_cons_of_mem c hd)
    · exact Or.inr ⟨c, xs ++ t, rfl, hc⟩

theorem takes_many (hp : ∀ c ∈ xs, p c = true) (ht : Stops p t) : Takes (.many p) (xs ++ t) [] t := by
  simp only [Takes, run_many, List.head?_map, rests_run hp ht, Option.map_some]

theorem stops_dropWhile : Stops p (s.dropWhile p) := by
  intro c hc
  cases hs : s.dropWhile p with
  | nil =>
    rw [hs] at hc
    cases hc
  | cons d t =>
    rw [hs, List.head?_cons, Option.mem_some_iff] at hc
    have hd := List.head_dropWhile_not p (l := s) (by rw [hs]; nofun)
    simp only [hs, List.head_cons] at hd
    exact hc ▸ hd

theorem takes_many_dropWhile : Takes (.many p) s [] (s.dropWhile p) := by
  have hp : ∀ c ∈ s.takeWhile p, p c = true := List.all_eq_true.mp List.all_takeWhile
  have h := takes_many hp (stops_dropWhile (p := p) (s := s))
  rwa [List.takeWhile_append_dropWhile] at h

theorem takes_many_none (ht : Stops p t) : Takes (.many p) t [] t := by
  have h : Takes (.many p) ([] ++ t) [] t := takes_many nofun ht
  exact h

theorem leaves_many (hp : ∀ c ∈ xs, p c = true) (ht : Stops p t) :
    Leaves (.many p) (xs ++ t) fun u => u = t ∨ ∃ c v, u = c :: v ∧ p c = true := by
  intro m hm
  simp only [run_many, List.mem_map] at hm
  obtain ⟨u, hu, rfl⟩ := hm
  exact mem_rests ht hu hp

theorem takes_seq (ha : Takes a s g t) (hb : Takes b t h u) : Takes (a ++ b) s (g ++ h) u := by
  obtain ⟨m, hm⟩ := List.head?_eq_some_iff.mp ha
  obtain ⟨n, hn⟩ := List.head?_eq_some_iff.mp hb
  simp [Takes, run_seq, hm, hn]

theorem fails_seq (h : Leaves a s (Fails b)) : Fails (a ++ b) s := by
  rw [Fails, run_seq, List.flatMap_eq_nil_iff]
  intro m hm
  rw [h m hm, List.map_nil]

theorem fails_seq_left (h : Fails a s) : Fails (a ++ b) s :=
  fails_seq fun m hm => absurd hm (by rw [h]; exact List.not_mem_nil)

theorem leaves_seq (ha : Leaves a s Q) (hb : ∀ t, Q t → Leaves b t P) : Leaves (a ++ b) s P := by
  intro m hm
  rw [run_seq, List.mem_flatMap] at hm
  obtain ⟨m', hm', hrest⟩ := hm
  obtain ⟨n, hn, rfl⟩ := List.mem_map.mp hrest
  exact hb m'.2 (ha m' hm') n hn

theorem leaves_sym : Leaves (.sym p) s fun t => ∃ c, p c = true ∧ s = c :: t := by
  intro m hm
  cases s with
  | nil => cases hm
  | cons c s =>
    rw [run_sym] at hm
    split at hm
    · next hc =>
      rw [List.mem_singleton.mp hm]
      exact ⟨c, hc, rfl⟩
    · cases hm

theorem takes_alt_left (h : Takes a s g t) : Takes (.alt a b) s g t := by
  rw [Takes, run_alt, List.head?_append, h, Option.some_or]

theorem takes_alt_right (ha : Fails a s) (hb : Takes b s g t) : Takes (.alt a b) s g t := by
  rw [Takes, run_alt, ha, List.nil_append]
  exact hb

theorem fails_alt (ha : Fails a s) (hb : Fails b s) : Fails (.alt a b) s := by
  rw [Fails, run_alt, ha, hb, List.nil_append]

theorem takes_opt (h : Takes a s g t) : Takes (.opt a) s g t := by
  rw [Takes, run_opt, List.head?_append, h, Option.some_or]

theorem takes_opt_none (h : Fails a s) : Takes (.opt a) s [] s := by
  rw [Takes, run_opt, h]
  rfl

/-- An optional class takes a symbol or nothing, and sets no group. -/
theorem takes_opt_sym (p : α → Bool) (s : List α) : ∃ t, Takes (.opt (.sym p)) s [] t ∧ t <:+ s := by
  cases s with
  | nil => exact ⟨[], takes_opt_none (fails_sym stops_nil), List.suffix_refl _⟩
  | cons c s =>
    cases hc : p c with
    | true => exact ⟨s, takes_opt (takes_sym hc), List.suffix_cons c s⟩
    | false => exact ⟨c :: s, takes_opt_none (fails_sym (stops_cons.mpr hc)), List.suffix_refl _⟩

theorem leaves_opt (h : Leaves a s P) (hs : P s) : Leaves (.opt a) s P := by
  intro m hm
  rw [run_opt, List.mem_append, List.mem_singleton] at hm
  rcases hm with hm | rfl
  · exact h m hm
  · exact hs

theorem takes_group {n : Nat} (h : Takes a (xs ++ t) g t) :
    Takes (.group n a) (xs ++ t) ((n, xs) :: g) t := by
  rw [Takes, run_group, List.head?_map, h, Option.map_some, List.length_append, Nat.add_sub_cancel,
    List.take_left]

theorem fails_group {n : Nat} (h : Fails a s) : Fails (.group n a) s := by
  rw [Fails, run_group, h, List.map_nil]

theorem leaves_group {n : Nat} (h : Leaves a s P) : Leaves (.group n a) s P := by
  intro m hm
  rw [run_group] at hm
  obtain ⟨m', hm', rfl⟩ := List.mem_map.mp hm
  exact h m' hm'

theorem Leaves.imp (h : Leaves r s P) (hi : ∀ t, P t → Q t) : Leaves r s Q :=
  fun m hm => hi m.2 (h m hm)

theorem leaves_of_fails (h : Fails r s) : Leaves r s P :=
  fun m hm => absurd hm (by rw [h]; exact List.not_mem_nil)

/-! ## Runs of a class -/

theorem takes_some (hxs : xs ≠ []) (hp : ∀ c ∈ xs, p c = true) (ht : Stops p t) :
    Takes (.some p) (xs ++ t) [] t := by
  cases xs with
  | nil => exact absurd rfl hxs
  | cons c xs =>
    exact takes_seq (takes_sym (hp c (List.mem_cons_self ..)))
      (takes_many (fun d hd => hp d (List.mem_cons_of_mem c hd)) ht)

theorem fails_some (h : Stops p s) : Fails (.some p) s := fails_seq_left (fails_sym h)

theorem leaves_some (hp : ∀ c ∈ xs, p c = true) (ht : Stops p t) :
    Leaves (.some p) (xs ++ t) fun u => u = t ∨ ∃ c v, u = c :: v ∧ p c = true := by
  cases xs with
  | nil => exact leaves_of_fails (fails_some ht)
  | cons c xs =>
    refine leaves_seq leaves_sym ?_
    rintro u ⟨d, -, hu⟩
    obtain ⟨-, rfl⟩ := List.cons.inj hu
    exact leaves_many (fun d hd => hp d (List.mem_cons_of_mem c hd)) ht

/-! ## What a match consists of -/

theorem mem_run_sym : (g, t) ∈ run (.sym p) s ↔ g = [] ∧ ∃ c, p c = true ∧ s = c :: t := by
  cases s with
  | nil => simp [run]
  | cons c s =>
    rw [run_sym]
    cases hc : p c with
    | false => simp [hc]
    | true =>
      simp only [if_true, List.mem_singleton, Prod.mk.injEq, List.cons.injEq]
      constructor
      · rintro ⟨rfl, rfl⟩
        exact ⟨rfl, c, hc, rfl, rfl⟩
      · rintro ⟨rfl, d, -, -, rfl⟩
        exact ⟨rfl, rfl⟩

theorem mem_rests_iff : t ∈ rests p s ↔ ∃ xs, (∀ c ∈ xs, p c = true) ∧ s = xs ++ t := by
  induction s with
  | nil =>
    rw [rests, List.mem_singleton]
    constructor
    · rintro rfl
      exact ⟨[], nofun, rfl⟩
    · rintro ⟨xs, -, h⟩
      exact (List.append_eq_nil_iff.mp h.symm).2
  | cons c s ih =>
    have hself : c :: s = t → ∃ xs, (∀ c ∈ xs, p c = true) ∧ c :: s = xs ++ t := by
      rintro rfl
      exact ⟨[], nofun, rfl⟩
    constructor
    · intro h
      unfold rests at h
      split at h
      · next hc =>
        rcases List.mem_append.mp h with h | h
        · obtain ⟨xs, hxs, rfl⟩ := ih.mp h
          exact ⟨c :: xs, List.forall_mem_cons.mpr ⟨hc, hxs⟩, rfl⟩
        · exact hself (List.mem_singleton.mp h).symm
      · exact hself (List.mem_singleton.mp h).symm
    · rintro ⟨xs, hxs, h⟩
      cases xs with
      | nil =>
        obtain rfl : c :: s = t := h
        unfold rests
        split <;> simp
      | cons d xs =>
        obtain ⟨rfl, rfl⟩ := List.cons.inj h
        obtain ⟨hc, hrest⟩ := List.forall_mem_cons.mp hxs
        rw [rests, if_pos hc]
        exact List.mem_append_left _ (ih.mpr ⟨xs, hrest, rfl⟩)

theorem mem_run_many : (g, t) ∈ run (.many p) s ↔ g = [] ∧ ∃ xs, (∀ c ∈ xs, p c = true) ∧ s = xs ++ t := by
  rw [run_many, ← mem_rests_iff, List.mem_map]
  constructor
  · rintro ⟨u, hu, h⟩
    obtain ⟨rfl, rfl⟩ := Prod.mk.inj h
    exact ⟨rfl, hu⟩
  · rintro ⟨rfl, h⟩
    exact ⟨t, h, rfl⟩

theorem mem_run_seq : (g, t) ∈ run (a ++ b) s ↔
    ∃ g₁ u g₂, (g₁, u) ∈ run a s ∧ (g₂, t) ∈ run b u ∧ g = g₁ ++ g₂ := by
  rw [run_seq, List.mem_flatMap]
  constructor
  · rintro ⟨⟨g₁, u⟩, hu, h⟩
    obtain ⟨⟨g₂, t'⟩, ht, h⟩ := List.mem_map.mp h
    obtain ⟨rfl, rfl⟩ := Prod.mk.inj h
    exact ⟨g₁, u, g₂, hu, ht, rfl⟩
  · rintro ⟨g₁, u, g₂, hu, ht, rfl⟩
    exact ⟨(g₁, u), hu, List.mem_map.mpr ⟨(g₂, t), ht, rfl⟩⟩

theorem mem_run_alt : (g, t) ∈ run (.alt a b) s ↔ (g, t) ∈ run a s ∨ (g, t) ∈ run b s := by
  rw [run_alt, List.mem_append]

theorem mem_run_opt : (g, t) ∈ run (.opt a) s ↔ (g, t) ∈ run a s ∨ g = [] ∧ t = s := by
  rw [run_opt, List.mem_append, List.mem_singleton, Prod.mk.injEq]

theorem mem_run_some : (g, t) ∈ run (.some p) s ↔
    g = [] ∧ ∃ xs, xs ≠ [] ∧ (∀ c ∈ xs, p c = true) ∧ s = xs ++ t := by
  rw [Re.some, mem_run_seq]
  constructor
  · rintro ⟨g₁, u, g₂, hc, hrest, rfl⟩
    obtain ⟨rfl, c, hp, rfl⟩ := mem_run_sym.mp hc
    obtain ⟨rfl, xs, hxs, rfl⟩ := mem_run_many.mp hrest
    exact ⟨rfl, c :: xs, List.cons_ne_nil _ _, List.forall_mem_cons.mpr ⟨hp, hxs⟩, rfl⟩
  · rintro ⟨rfl, xs, hne, hxs, rfl⟩
    cases xs with
    | nil => exact absurd rfl hne
    | cons c xs =>
      obtain ⟨hc, hrest⟩ := List.forall_mem_cons.mp hxs
      exact ⟨[], xs ++ t, [], mem_run_sym.mpr ⟨rfl, c, hc, rfl⟩, mem_run_many.mpr ⟨rfl, xs, hrest, rfl⟩, rfl⟩

/-- A match leaves an end of the text, and its group is what stands before it. -/
theorem mem_run_group {n : Nat} (hsuffix : ∀ g t, (g, t) ∈ run a s → ∃ xs, s = xs ++ t) :
    (g, t) ∈ run (.group n a) s ↔ ∃ xs g', s = xs ++ t ∧ (g', t) ∈ run a s ∧ g = (n, xs) :: g' := by
  have htake : ∀ {xs u : List α}, (xs ++ u).take ((xs ++ u).length - u.length) = xs := by
    intro xs u
    rw [List.length_append, Nat.add_sub_cancel, List.take_left]
  rw [run_group, List.mem_map]
  constructor
  · rintro ⟨⟨g', u⟩, hu, h⟩
    obtain ⟨rfl, rfl⟩ := Prod.mk.inj h
    obtain ⟨xs, rfl⟩ := hsuffix g' u hu
    exact ⟨xs, g', rfl, hu, by rw [htake]⟩
  · rintro ⟨xs, g', rfl, hu, rfl⟩
    exact ⟨(g', t), hu, by rw [htake]⟩

/-- A group of one symbol of the class or more. -/
theorem mem_run_word {n : Nat} : (g, t) ∈ run (.group n (.some p)) s ↔
    ∃ xs, xs ≠ [] ∧ (∀ c ∈ xs, p c = true) ∧ s = xs ++ t ∧ g = [(n, xs)] := by
  rw [mem_run_group fun g t h => by
    obtain ⟨-, xs, -, -, rfl⟩ := mem_run_some.mp h
    exact ⟨xs, rfl⟩]
  constructor
  · rintro ⟨xs, g', rfl, h, rfl⟩
    obtain ⟨rfl, ys, hne, hys, heq⟩ := mem_run_some.mp h
    obtain rfl := List.append_cancel_right heq
    exact ⟨xs, hne, hys, rfl, rfl⟩
  · rintro ⟨xs, hne, hxs, rfl, rfl⟩
    exact ⟨xs, [], rfl, mem_run_some.mpr ⟨rfl, xs, hne, hxs, rfl⟩, rfl⟩

theorem fullmatch_some (h : fullmatch r s = some g) : (g, []) ∈ run r s := by
  obtain ⟨⟨g', t⟩, hfind, rfl⟩ := Option.map_eq_some_iff.mp h
  have hnil : t = [] := by simpa using List.find?_some hfind
  rw [hnil] at hfind
  exact List.mem_of_find?_eq_some hfind

/-! ## Matches in a text -/

/-- No match starts in `xs` where `s` follows it. -/
def Passes (r : Re α) (xs s : List α) : Prop := ∀ ys c zs, xs = ys ++ c :: zs → Fails r (c :: (zs ++ s))

theorem passes_cons {c : α} (h : Passes r (c :: xs) s) : Fails r (c :: (xs ++ s)) ∧ Passes r xs s :=
  ⟨h [] c xs rfl, fun ys d zs he => h (c :: ys) d zs (by rw [he, List.cons_append])⟩

/-- An expression that begins with a class passes over the other symbols. -/
theorem passes_of_stops (hr : ∀ c s, p c = false → Fails r (c :: s)) (hxs : ∀ c ∈ xs, p c = false) :
    Passes r xs s := by
  rintro ys c zs rfl
  exact hr c _ (hxs c (List.mem_append_right ys (List.mem_cons_self ..)))

theorem search_takes (h : Takes r s g t) : search r s = some (g, t) := by
  cases s with
  | nil => exact h
  | cons c s => rw [search, h, Option.some_or]

theorem search_skip (h : Passes r xs s) : search r (xs ++ s) = search r s := by
  induction xs with
  | nil => rfl
  | cons c xs ih =>
    obtain ⟨hc, hxs⟩ := passes_cons h
    have hnone : (run r (c :: (xs ++ s))).head? = none := by rw [hc, List.head?_nil]
    rw [List.cons_append, search, hnone, Option.none_or, ih hxs]

theorem findAllGo_drop (n : Nat) : findAllGo r n s = findAll r (s.drop n) := by
  induction n generalizing s with
  | zero => rfl
  | succ n ih =>
    cases s with
    | nil => rfl
    | cons c s => rw [findAllGo, ih, List.drop_succ_cons]

theorem findAll_cons_takes {c : α} {m : Groups α × List α} (h : (run r (c :: s)).head? = some m) :
    findAll r (c :: s) = m.1 :: findAllGo r (s.length - m.2.length) s := by
  rw [findAll, findAllGo, h]

theorem findAll_cons_fails {c : α} (h : Fails r (c :: s)) : findAll r (c :: s) = findAll r s := by
  have hnone : (run r (c :: s)).head? = none := by rw [h, List.head?_nil]
  rw [findAll, findAllGo, hnone]
  rfl

theorem findAll_takes (hxs : xs ≠ []) (h : Takes r (xs ++ t) g t) :
    findAll r (xs ++ t) = g :: findAll r t := by
  cases xs with
  | nil => exact absurd rfl hxs
  | cons c xs =>
    rw [List.cons_append] at h ⊢
    rw [findAll_cons_takes h, findAllGo_drop, List.length_append, Nat.add_sub_cancel, List.drop_left]

theorem findAll_skip (h : Passes r xs s) : findAll r (xs ++ s) = findAll r s := by
  induction xs with
  | nil => rfl
  | cons c xs ih =>
    obtain ⟨hc, hxs⟩ := passes_cons h
    rw [List.cons_append, findAll_cons_fails hc, ih hxs]

/-! ## Substitution -/

/-- `re.sub` behind the symbol `prev` and the next `skip` symbols; a match may
start only where `starts` allows it, by the symbol before it. -/
def subGo (r : Re α) (starts : Option α → Bool) (f : Groups α → List α) :
    Option α → Nat → List α → List α
  | _, _, [] => []
  | _, skip + 1, c :: s => subGo r starts f (Option.some c) skip s
  | prev, 0, c :: s =>
    match if starts prev then (run r (c :: s)).head? else none with
    | some m => f m.1 ++ subGo r starts f (Option.some c) (s.length - m.2.length) s
    | none => c :: subGo r starts f (Option.some c) 0 s

/-- `re.sub`, for an expression that matches no empty text. -/
def sub (r : Re α) (starts : Option α → Bool) (f : Groups α → List α) (s : List α) : List α :=
  subGo r starts f none 0 s

/-- Every match leaves an end of the text. -/
theorem run_suffix : ∀ (r : Re α) (s : List α) (g : Groups α) (t : List α), (g, t) ∈ run r s →
    ∃ xs, s = xs ++ t
  | .sym p, s, g, t, h => by
    obtain ⟨-, c, -, rfl⟩ := mem_run_sym.mp h
    exact ⟨[c], rfl⟩
  | .many p, s, g, t, h => by
    obtain ⟨-, xs, -, rfl⟩ := mem_run_many.mp h
    exact ⟨xs, rfl⟩
  | .seq a b, s, g, t, h => by
    obtain ⟨g₁, u, g₂, ha, hb, -⟩ := mem_run_seq.mp h
    obtain ⟨xs, rfl⟩ := run_suffix a s g₁ u ha
    obtain ⟨ys, rfl⟩ := run_suffix b u g₂ t hb
    exact ⟨xs ++ ys, (List.append_assoc ..).symm⟩
  | .alt a b, s, g, t, h => by
    rcases mem_run_alt.mp h with h | h
    · exact run_suffix a s g t h
    · exact run_suffix b s g t h
  | .opt a, s, g, t, h => by
    rcases mem_run_opt.mp h with h | ⟨-, rfl⟩
    · exact run_suffix a s g t h
    · exact ⟨[], rfl⟩
  | .group n a, s, g, t, h => by
    obtain ⟨xs, g', rfl, -, -⟩ := (mem_run_group (run_suffix a s)).mp h
    exact ⟨xs, rfl⟩

/-- A substitution that turns every match into at most `k` times its length
lengthens the text by the factor `k` at most. -/
theorem length_sub_le {starts : Option α → Bool} {f : Groups α → List α} {k : Nat} (hk : 0 < k)
    (hf : ∀ s g t, (g, t) ∈ run r s → t.length < s.length ∧
      (f g).length ≤ k * (s.length - t.length)) (s : List α) :
    (sub r starts f s).length ≤ k * s.length := by
  have hgo : ∀ (s : List α) (prev : Option α) (skip : Nat),
      (subGo r starts f prev skip s).length ≤ k * (s.length - skip) := by
    intro s
    induction s with
    | nil => simp [subGo]
    | cons c s ih =>
      intro prev skip
      cases skip with
      | succ skip => simpa [subGo] using ih (Option.some c) skip
      | zero =>
        rw [subGo]
        split
        · rename_i m hm
          have hmem : m ∈ run r (c :: s) := by
            split at hm
            · exact List.mem_of_head? hm
            · cases hm
          obtain ⟨hlt, hlen⟩ := hf (c :: s) m.1 m.2 hmem
          have hrest := ih (Option.some c) (s.length - m.2.length)
          simp only [List.length_cons] at hlt hlen
          have hsplit : k * (s.length + 1) = k * (s.length + 1 - m.2.length) + k * m.2.length := by
            rw [← Nat.mul_add]
            congr 1
            omega
          have hback : s.length - (s.length - m.2.length) = m.2.length := by omega
          rw [hback] at hrest
          simp only [List.length_append, List.length_cons, Nat.sub_zero]
          omega
        · have hrest := ih (Option.some c) 0
          simp only [List.length_cons, Nat.sub_zero, Nat.mul_add] at hrest ⊢
          omega
  exact hgo s none 0

end Regex
