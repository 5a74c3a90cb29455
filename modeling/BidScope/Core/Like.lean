import Mathlib.Data.List.Infix

/-!
# SQL pattern matching

`like pattern text` is `text LIKE pattern` with the backslash as escape
character: `%` stands for any text, `_` for any character, an escaped character
for itself. A pattern that ends in a lone backslash, which the database
refuses, takes it as a plain character.

* `like_append_percent`: a plain pattern with `%` behind it matches the texts it
  is a prefix of. A pattern that is not plain may match others.
-/
namespace Like

def like : List Char → List Char → Bool
  | [], text => text.isEmpty
  | '%' :: pattern, text => text.tails.any fun rest => like pattern rest
  | '_' :: pattern, _ :: text => like pattern text
  | '\\' :: c :: pattern, d :: text => c == d && like pattern text
  | c :: pattern, d :: text => c == d && like pattern text
  | _ :: _, [] => false

/-- No character of the pattern has a meaning of its own. -/
def Plain (pattern : List Char) : Prop := ∀ c ∈ pattern, c ≠ '%' ∧ c ≠ '_' ∧ c ≠ '\\'

theorem like_percent (text : List Char) : like ['%'] text = true := by
  rw [like, List.any_eq_true]
  exact ⟨[], (List.mem_tails [] text).mpr (List.nil_suffix), rfl⟩

theorem like_plain_cons {c d : Char} {pattern text : List Char}
    (h : c ≠ '%' ∧ c ≠ '_' ∧ c ≠ '\\') :
    like (c :: pattern) (d :: text) = (c == d && like pattern text) := by
  rw [like]
  · exact h.1
  · exact h.2.1
  · intro c' pattern' hc
    exact absurd hc h.2.2

theorem like_append_percent : ∀ (pattern text : List Char), Plain pattern →
    (like (pattern ++ ['%']) text = true ↔ pattern <+: text)
  | [], text, _ => by simp [like_percent]
  | c :: pattern, [], h => by
    have hc := h c (List.mem_cons_self ..)
    simp only [List.cons_append, List.prefix_nil, reduceCtorEq, iff_false]
    rw [like]
    · simp
    · exact hc.1
  | c :: pattern, d :: text, h => by
    have hc := h c (List.mem_cons_self ..)
    have ih := like_append_percent pattern text fun c' hc' => h c' (List.mem_cons_of_mem c hc')
    rw [List.cons_append, like_plain_cons hc, Bool.and_eq_true, beq_iff_eq, ih, List.cons_prefix_cons]

/-- Not plain: the text does not extend the pattern. -/
example : like ("Zhe_ang".toList ++ ['%']) "Zhejang".toList = true := by decide

end Like
