import Mathlib.Data.List.Forall2

/-!
# Checked values

What checking an input gives: its value, or everything wrong with it, which is
at least one thing. `<*>` checks both sides and notes the errors of both in
order; `andThen` goes on behind a value only.

* `seq_ok`, `map_ok`, `andThen_ok`, `ensure_ok`, `each_ok`: where a check that
  succeeds got its value from.
-/

inductive Checked (ε α : Type) where
  | ok (value : α)
  | wrong (first : ε) (rest : List ε)

namespace Checked

variable {ε α β : Type}

def map (f : α → β) : Checked ε α → Checked ε β
  | .ok a => .ok (f a)
  | .wrong e es => .wrong e es

def seq (f : Checked ε (α → β)) (x : Checked ε α) : Checked ε β :=
  match f, x with
  | .ok f, .ok a => .ok (f a)
  | .ok _, .wrong e es => .wrong e es
  | .wrong e es, .ok _ => .wrong e es
  | .wrong e es, .wrong e' es' => .wrong e (es ++ e' :: es')

instance : Applicative (Checked ε) where
  pure := .ok
  map := Checked.map
  seq f x := Checked.seq f (x ())

def andThen (x : Checked ε α) (f : α → Checked ε β) : Checked ε β :=
  match x with
  | .ok a => f a
  | .wrong e es => .wrong e es

/-- The value, unless something is wrong with it. -/
def ensure (x : Checked ε α) (violation : α → Option ε) : Checked ε α :=
  x.andThen fun a =>
    match violation a with
    | none => .ok a
    | some e => .wrong e []

/-- The errors as they are named one level up. -/
def under (f : ε → ε) : Checked ε α → Checked ε α
  | .ok a => .ok a
  | .wrong e es => .wrong (f e) (es.map f)

/-- All of a list, each checked. -/
def each (f : α → Checked ε β) : List α → Checked ε (List β)
  | [] => .ok []
  | a :: l => List.cons <$> f a <*> each f l

variable {x : Checked ε α} {a : α} {b : β}

@[simp] theorem map_ok {f : α → β} : f <$> x = .ok b ↔ ∃ a, x = .ok a ∧ f a = b := by
  cases x with
  | ok a => exact ⟨fun h => ⟨a, rfl, Checked.ok.inj h⟩, fun ⟨a', ha, hb⟩ => by cases ha; exact congrArg _ hb⟩
  | wrong e es => exact ⟨nofun, fun ⟨_, h, _⟩ => by cases h⟩

@[simp] theorem seq_ok {f : Checked ε (α → β)} : f <*> x = .ok b ↔ ∃ g a, f = .ok g ∧ x = .ok a ∧ g a = b := by
  cases f with
  | ok g =>
    cases x with
    | ok a =>
      refine ⟨fun h => ⟨g, a, rfl, rfl, Checked.ok.inj h⟩, fun ⟨g', a', hg, ha, hb⟩ => ?_⟩
      cases hg
      cases ha
      exact congrArg _ hb
    | wrong e es => exact ⟨nofun, fun ⟨_, _, _, h, _⟩ => by cases h⟩
  | wrong e es =>
    refine ⟨fun h => ?_, fun ⟨_, _, h, _⟩ => by cases h⟩
    cases x <;> cases h

@[simp] theorem andThen_ok {f : α → Checked ε β} : x.andThen f = .ok b ↔ ∃ a, x = .ok a ∧ f a = .ok b := by
  cases x with
  | ok a => exact ⟨fun h => ⟨a, rfl, h⟩, fun ⟨a', ha, hb⟩ => by cases ha; exact hb⟩
  | wrong e es => exact ⟨nofun, fun ⟨_, h, _⟩ => by cases h⟩

@[simp] theorem ensure_ok {violation : α → Option ε} :
    x.ensure violation = .ok a ↔ x = .ok a ∧ violation a = none := by
  rw [ensure, andThen_ok]
  constructor
  · rintro ⟨a', rfl, h⟩
    split at h
    · next hnone =>
      obtain rfl := Checked.ok.inj h
      exact ⟨rfl, hnone⟩
    · cases h
  · rintro ⟨rfl, hnone⟩
    exact ⟨a, rfl, by rw [hnone]⟩

@[simp] theorem under_ok {f : ε → ε} : x.under f = .ok a ↔ x = .ok a := by
  cases x with
  | ok a' => exact Iff.rfl
  | wrong e es => exact ⟨nofun, nofun⟩

theorem each_ok {f : α → Checked ε β} : ∀ {l : List α} {bs : List β},
    each f l = .ok bs ↔ List.Forall₂ (fun a b => f a = .ok b) l bs
  | [], bs => by
    rw [each, List.forall₂_nil_left_iff]
    exact ⟨fun h => (Checked.ok.inj h).symm, fun h => congrArg _ h.symm⟩
  | a :: l, bs => by
    rw [each, seq_ok, List.forall₂_cons_left_iff]
    constructor
    · rintro ⟨g, rest, hg, hrest, rfl⟩
      obtain ⟨b, hb, rfl⟩ := map_ok.mp hg
      exact ⟨b, rest, hb, each_ok.mp hrest, rfl⟩
    · rintro ⟨b, rest, hb, hrest, rfl⟩
      exact ⟨List.cons b, rest, map_ok.mpr ⟨b, hb, rfl⟩, each_ok.mpr hrest, rfl⟩

end Checked
