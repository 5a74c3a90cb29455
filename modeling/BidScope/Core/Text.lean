import Mathlib.Data.List.Basic

/-!
# Substring search

`find sub s start` is the leftmost position at or after `start` where `sub`
occurs in `s`, over lists of any symbols.

* `find_spec`, `find_le`: what a hit means, and that an occurrence at `i`
  bounds the hit by `i`.
* `greedy_join`: a left-to-right search that resumes after each match finds
  every text of `join sep [t₁, …, tₙ] = t₁ sep t₂ … sep tₙ`: by induction, the
  cursor is never past the text's own position.
* `append_cons_inj`: a text is cut at its first separator in one way.
* `forall_of_all`: by evaluation over the list, not over all symbols there are.
-/
namespace Text

variable {α : Type} [DecidableEq α]

def findGo (sub : List α) : List α → Nat → Option Nat
  | [], i => if sub = [] then some i else none
  | c :: cs, i => if sub.isPrefixOf (c :: cs) then some i else findGo sub cs (i + 1)

/-- Leftmost occurrence of `sub` in `s` at or after `start`; `none` when there
is none or `start` is past the end. -/
def find (s sub : List α) (start : Nat) : Option Nat :=
  if start ≤ s.length then findGo sub (s.drop start) start else none

theorem findGo_spec (sub : List α) : ∀ (s : List α) (i j : Nat), findGo sub s i = some j →
    i ≤ j ∧ j ≤ i + s.length ∧ sub <+: s.drop (j - i)
  | [], i, j, h => by
    unfold findGo at h
    split at h
    · rename_i hs
      simp only [Option.some.injEq] at h
      subst h
      simp [hs]
    · cases h
  | c :: cs, i, j, h => by
    unfold findGo at h
    split at h
    · rename_i hp
      simp only [Option.some.injEq] at h
      subst h
      exact ⟨Nat.le_refl _, Nat.le_add_right _ _, by simpa using List.isPrefixOf_iff_prefix.mp hp⟩
    · obtain ⟨h1, h2, h3⟩ := findGo_spec sub cs (i + 1) j h
      refine ⟨by omega, by simp only [List.length_cons]; omega, ?_⟩
      rw [show j - i = (j - (i + 1)) + 1 by omega, List.drop_succ_cons]
      exact h3

theorem findGo_le (sub : List α) : ∀ (s : List α) (i k : Nat), k ≤ s.length → sub <+: s.drop k →
    ∃ j, findGo sub s i = some j ∧ j ≤ i + k
  | [], i, k, hk, hp => by
    have h0 : k = 0 := by simpa using hk
    subst h0
    refine ⟨i, ?_, by omega⟩
    unfold findGo
    rw [if_pos (List.prefix_nil.mp (by simpa using hp))]
  | c :: cs, i, k, hk, hp => by
    unfold findGo
    split
    · exact ⟨i, rfl, by omega⟩
    · rename_i hn
      cases k with
      | zero => exact absurd (List.isPrefixOf_iff_prefix.mpr (by simpa using hp)) hn
      | succ k =>
        obtain ⟨j, hj, hle⟩ := findGo_le sub cs (i + 1) k (by simpa using hk) (by simpa using hp)
        exact ⟨j, hj, by omega⟩

/-- A hit is at or after `start`, within the text, and an occurrence. -/
theorem find_spec {s sub : List α} {start j : Nat} (h : find s sub start = some j) :
    start ≤ j ∧ j ≤ s.length ∧ sub <+: s.drop j := by
  unfold find at h
  split at h
  · rename_i hle
    obtain ⟨h1, h2, h3⟩ := findGo_spec sub _ _ _ h
    rw [List.length_drop] at h2
    rw [List.drop_drop, show start + (j - start) = j by omega] at h3
    exact ⟨h1, by omega, h3⟩
  · cases h

/-- An occurrence at `i ≥ start` is found at or before `i`. -/
theorem find_le {s sub : List α} {start i : Nat} (h1 : start ≤ i) (h2 : i ≤ s.length)
    (hp : sub <+: s.drop i) : ∃ j, find s sub start = some j ∧ start ≤ j ∧ j ≤ i := by
  have hd : sub <+: (s.drop start).drop (i - start) := by
    rw [List.drop_drop, show start + (i - start) = i by omega]; exact hp
  obtain ⟨j, hj, hle⟩ := findGo_le sub (s.drop start) start (i - start)
    (by rw [List.length_drop]; omega) hd
  have hf : find s sub start = some j := by
    unfold find; rw [if_pos (by omega)]; exact hj
  exact ⟨j, hf, (find_spec hf).1, by omega⟩

/-! ## Joined texts -/

def join (sep : List α) : List (List α) → List α
  | [] => []
  | [t] => t
  | t :: u :: ts => t ++ sep ++ join sep (u :: ts)

omit [DecidableEq α] in
theorem join_eq_intercalate (sep : List α) : ∀ ts : List (List α), join sep ts = sep.intercalate ts
  | [] => rfl
  | [t] => by simp [join, List.intercalate]
  | t :: u :: ts => by
    rw [join, join_eq_intercalate sep (u :: ts)]
    simp [List.intercalate]

omit [DecidableEq α] in
theorem mem_join {sep : List α} {c : α} {ts : List (List α)} (h : c ∈ join sep ts) :
    c ∈ sep ∨ ∃ t ∈ ts, c ∈ t := by
  induction ts using join.induct with
  | case1 => cases h
  | case2 t => exact .inr ⟨t, List.mem_singleton_self t, h⟩
  | case3 t u ts ih =>
    rw [join, List.mem_append, List.mem_append] at h
    rcases h with (h | h) | h
    · exact .inr ⟨t, List.mem_cons_self .., h⟩
    · exact .inl h
    · obtain hsep | ⟨v, hv, hc⟩ := ih h
      · exact .inl hsep
      · exact .inr ⟨v, List.mem_cons_of_mem _ hv, hc⟩

/-- Greedy search: each text from the end of the previous match on. -/
def greedy (s : List α) : List (List α) → Nat → Option (List Nat)
  | [], _ => some []
  | t :: ts, cursor =>
    match find s t cursor with
    | none => none
    | some j => (greedy s ts (j + t.length)).map (j :: ·)

/-- The greedy search finds every text of a joined list, from any cursor at
or before the list's own position in the text. -/
theorem greedy_join (sep : List α) : ∀ (ts : List (List α)) (pre : List α) (cursor : Nat),
    cursor ≤ pre.length → (greedy (pre ++ join sep ts) ts cursor).isSome
  | [], _, _, _ => rfl
  | [t], pre, cursor, hc => by
    have hp : t <+: (pre ++ join sep [t]).drop pre.length := by simp [join]
    obtain ⟨j, hj, -, -⟩ := find_le hc (by simp) hp
    simp [greedy, hj]
  | t :: u :: ts, pre, cursor, hc => by
    have hp : t <+: (pre ++ join sep (t :: u :: ts)).drop pre.length := by simp [join]
    obtain ⟨j, hj, -, hle⟩ := find_le hc (by simp) hp
    have ih := greedy_join sep (u :: ts) (pre ++ t ++ sep) (j + t.length)
      (by simp only [List.length_append]; omega)
    have e : pre ++ t ++ sep ++ join sep (u :: ts) = pre ++ join sep (t :: u :: ts) := by
      simp [join]
    rw [e] at ih
    rw [greedy, hj]
    simpa using ih

omit [DecidableEq α] in
/-- Two texts cut at their first `c`. -/
theorem append_cons_inj {c : α} : ∀ {x y z w : List α}, c ∉ x → c ∉ y → x ++ c :: z = y ++ c :: w →
    x = y ∧ z = w
  | [], [], _, _, _, _, h => ⟨rfl, (List.cons_eq_cons.mp h).2⟩
  | [], b :: y, _, _, _, hy, h => by
    obtain ⟨rfl, -⟩ := List.cons_eq_cons.mp h
    exact absurd (List.mem_cons_self ..) hy
  | a :: x, [], _, _, hx, _, h => by
    obtain ⟨rfl, -⟩ := List.cons_eq_cons.mp h
    exact absurd (List.mem_cons_self ..) hx
  | a :: x, b :: y, _, _, hx, hy, h => by
    obtain ⟨rfl, hrest⟩ := List.cons_eq_cons.mp h
    obtain ⟨rfl, hzw⟩ := append_cons_inj (fun hc => hx (List.mem_cons_of_mem _ hc))
      (fun hc => hy (List.mem_cons_of_mem _ hc)) hrest
    exact ⟨rfl, hzw⟩

omit [DecidableEq α] in
/-- A property of the members of a list, checked one after the other. -/
theorem forall_of_all {p : α → Prop} [DecidablePred p] {l : List α} (h : l.all (fun x => decide (p x)) = true) :
    ∀ x ∈ l, p x := fun x hx => of_decide_eq_true (List.all_eq_true.mp h x hx)

end Text
