import Mathlib.Logic.Function.Basic
import Mathlib.Logic.Relation

/-!
# Labelled transition systems

States `S`, labels `L`, an initial-state predicate and a step relation. The
modules above state safety as `Inductive` invariants and read them off every
reachable state with `Inductive.reachable`; a law about what one step may do
is read off a whole run with `Reachable.step`.

* `Inductive.reachable`, `Inductive.and`: invariants, one on top of another.
* `restrict`: the runs whose steps all meet a guard. An invariant that only
  holds under a condition on the steps is an invariant of the restricted
  system, and every run of it is a run of the whole (`run_of_restrict`).
* `ofFn`, `exec`: systems given by a partial function, and their runs by
  evaluation (`run_of_exec`).
* `of_update`: one component of a state after a step that changed one.
* `Inductive.log`: a system that appends to a log what it does to `abs` is at
  every state where running the log serially leads.
* `Terminates`, `Ended`: relations without infinite runs. What every step
  preserves holds where a run ends (`Terminates.ends`).
-/

universe u v

structure LTS (S : Type u) (L : Type v) where
  init : S → Prop
  step : S → L → S → Prop

namespace LTS

variable {S : Type u} {L : Type v}

inductive Run (M : LTS S L) : S → List L → S → Prop where
  | nil (s : S) : Run M s [] s
  | cons {s s' s'' : S} {l : L} {ls : List L} (h : M.step s l s') (hr : Run M s' ls s'') :
      Run M s (l :: ls) s''

/-- Reached by some run from an initial state. -/
def Reachable (M : LTS S L) (s : S) : Prop := ∃ s₀ ls, M.init s₀ ∧ M.Run s₀ ls s

structure Inductive (M : LTS S L) (I : S → Prop) : Prop where
  init : ∀ s, M.init s → I s
  step : ∀ s l s', I s → M.step s l s' → I s'

variable {M : LTS S L} {I J : S → Prop}

theorem Run.append {a b c : S} {l₁ l₂ : List L} (h₁ : M.Run a l₁ b) (h₂ : M.Run b l₂ c) :
    M.Run a (l₁ ++ l₂) c := by
  induction h₁ with
  | nil => exact h₂
  | cons h _ ih => exact .cons h (ih h₂)

theorem Run.snoc {a b c : S} {ls : List L} {l : L} (h₁ : M.Run a ls b) (h₂ : M.step b l c) :
    M.Run a (ls ++ [l]) c :=
  h₁.append (.cons h₂ (.nil _))

theorem Run.invariant {s s' : S} {ls : List L} (hstep : ∀ s l s', I s → M.step s l s' → I s')
    (hr : M.Run s ls s') (h : I s) : I s' := by
  induction hr with
  | nil => exact h
  | cons hs _ ih => exact ih (hstep _ _ _ h hs)

theorem Reachable.init {s : S} (h : M.init s) : M.Reachable s := ⟨s, [], h, .nil s⟩

theorem Reachable.step {s s' : S} {l : L} (hr : M.Reachable s) (h : M.step s l s') :
    M.Reachable s' := by
  obtain ⟨s₀, ls, hi, hrun⟩ := hr
  exact ⟨s₀, ls ++ [l], hi, hrun.snoc h⟩

theorem Reachable.run {s s' : S} {ls : List L} (hr : M.Reachable s) (h : M.Run s ls s') :
    M.Reachable s' := by
  obtain ⟨s₀, ls₀, hi, hrun⟩ := hr
  exact ⟨s₀, ls₀ ++ ls, hi, hrun.append h⟩

theorem Inductive.reachable (h : M.Inductive I) (s : S) (hr : M.Reachable s) : I s := by
  obtain ⟨s₀, ls, hi, hrun⟩ := hr
  exact hrun.invariant h.step (h.init s₀ hi)

/-- `J` on top of an invariant `I`: `J` may use `I` before the step. -/
theorem Inductive.and (hI : M.Inductive I) (hinit : ∀ s, M.init s → J s)
    (hstep : ∀ s l s', I s → J s → M.step s l s' → J s') : M.Inductive (fun s => I s ∧ J s) where
  init s hs := ⟨hI.init s hs, hinit s hs⟩
  step s l s' h hs := ⟨hI.step s l s' h.1 hs, hstep s l s' h.1 h.2 hs⟩

/-- Component `w'` after the map changed at `w`. -/
theorem of_update {κ α : Type*} [DecidableEq κ] {f : κ → Option α} {y : Option α} {w w' : κ} {x : α}
    (h : Function.update f w y w' = some x) :
    (w' = w ∧ y = some x) ∨ (w' ≠ w ∧ f w' = some x) := by
  by_cases hw : w' = w
  · subst hw
    rw [Function.update_self] at h
    exact Or.inl ⟨rfl, h⟩
  · rw [Function.update_of_ne hw] at h
    exact Or.inr ⟨hw, h⟩

theorem of_update_self {κ α : Type*} [DecidableEq κ] {f : κ → Option α} {y : Option α} {w : κ}
    {x : α} (h : Function.update f w y w = some x) : y = some x := by
  rwa [Function.update_self] at h

/-- A step that changes what `abs` reads appends one entry, whose `run` is the
change. -/
theorem Inductive.log {A T : Type*} {abs : S → A} {log : S → List T} {run : A → T → A} {a₀ : A}
    (hI : M.Inductive I) (hinit : ∀ s, M.init s → abs s = a₀ ∧ log s = [])
    (hstep : ∀ s l s', I s → M.step s l s' →
      (abs s' = abs s ∧ log s' = log s) ∨ ∃ t, log s' = log s ++ [t] ∧ abs s' = run (abs s) t) :
    M.Inductive (fun s => I s ∧ abs s = (log s).foldl run a₀) := by
  refine hI.and (fun s hs => ?_) (fun s l s' hs habs h => ?_)
  · obtain ⟨ha, hl⟩ := hinit s hs
    rw [ha, hl]
    rfl
  · rcases hstep s l s' hs h with ⟨ha, hl⟩ | ⟨t, hl, ha⟩
    · rw [ha, hl, habs]
    · rw [ha, hl, habs, List.foldl_append]
      rfl

/-! ## Runs whose steps meet a guard -/

/-- The steps of `M` that meet `G`, a condition on the state before the step
and its label. -/
def restrict (M : LTS S L) (G : S → L → Prop) : LTS S L where
  init := M.init
  step s l s' := G s l ∧ M.step s l s'

theorem run_of_restrict {G : S → L → Prop} {s s' : S} {ls : List L}
    (h : (M.restrict G).Run s ls s') : M.Run s ls s' := by
  induction h with
  | nil => exact .nil _
  | cons hs _ ih => exact .cons hs.2 ih

theorem reachable_of_restrict {G : S → L → Prop} {s : S} (h : (M.restrict G).Reachable s) :
    M.Reachable s := by
  obtain ⟨s₀, ls, hi, hr⟩ := h
  exact ⟨s₀, ls, hi, run_of_restrict hr⟩

/-- A run whose labels meet the guard in any state. -/
theorem run_restrict {G : S → L → Prop} {s s' : S} {ls : List L} (h : M.Run s ls s')
    (hG : ∀ l ∈ ls, ∀ s, G s l) : (M.restrict G).Run s ls s' := by
  induction h with
  | nil => exact .nil _
  | cons hs _ ih =>
    exact .cons ⟨hG _ (List.mem_cons_self ..) _, hs⟩ (ih fun l hl => hG l (List.mem_cons_of_mem _ hl))

/-- An invariant of `M` is one of every restriction of `M`. -/
theorem Inductive.restrict {G : S → L → Prop} (h : M.Inductive I) : (M.restrict G).Inductive I where
  init := h.init
  step s l s' hI hs := h.step s l s' hI hs.2

/-! ## Systems given by a partial function -/

def ofFn (init : S → Prop) (f : S → L → Option S) : LTS S L where
  init := init
  step s l s' := f s l = some s'

def exec (f : S → L → Option S) : S → List L → Option S
  | s, [] => some s
  | s, l :: ls => (f s l).bind fun s' => exec f s' ls

theorem run_of_exec {init : S → Prop} {f : S → L → Option S} :
    ∀ {s s' : S} (ls : List L), exec f s ls = some s' → (ofFn init f).Run s ls s'
  | s, s', [], h => by
    simp only [exec, Option.some.injEq] at h
    subst h
    exact .nil _
  | s, s', l :: ls, h => by
    simp only [exec, Option.bind_eq_some_iff] at h
    obtain ⟨s₁, h₁, h₂⟩ := h
    exact .cons h₁ (run_of_exec ls h₂)

theorem reachable_of_exec {init : S → Prop} {f : S → L → Option S} {s : S} (ls : List L)
    (hi : init s) (h : (exec f s ls).isSome) : (ofFn init f).Reachable ((exec f s ls).get h) :=
  ⟨s, ls, hi, run_of_exec ls (Option.some_get h).symm⟩

/-- A guarded run by evaluation. -/
theorem run_of_execGuarded {init : S → Prop} {f : S → L → Option S} {G : S → L → Prop}
    [∀ s l, Decidable (G s l)] :
    ∀ {s s' : S} (ls : List L), exec (fun s l => if G s l then f s l else none) s ls = some s' →
      ((ofFn init f).restrict G).Run s ls s'
  | s, s', [], h => by
    simp only [exec, Option.some.injEq] at h
    subst h
    exact .nil _
  | s, s', l :: ls, h => by
    simp only [exec, Option.bind_eq_some_iff] at h
    obtain ⟨s₁, h₁, h₂⟩ := h
    split at h₁
    · rename_i hG
      exact .cons ⟨hG, h₁⟩ (run_of_execGuarded ls h₂)
    · cases h₁

theorem reachable_of_execGuarded {init : S → Prop} {f : S → L → Option S} {G : S → L → Prop}
    [∀ s l, Decidable (G s l)] {s : S} (ls : List L) (hi : init s)
    (h : (exec (fun s l => if G s l then f s l else none) s ls).isSome) :
    ((ofFn init f).restrict G).Reachable
      ((exec (fun s l => if G s l then f s l else none) s ls).get h) :=
  ⟨s, ls, hi, run_of_execGuarded ls (Option.some_get h).symm⟩

/-! ## Runs that end -/

variable {R : S → S → Prop} {μ : S → Nat}

def Ended (R : S → S → Prop) (s : S) : Prop := ∀ s', ¬ R s s'

/-- No infinite run of `R` starts at `s`. -/
def Terminates (R : S → S → Prop) (s : S) : Prop := Acc (fun b a => R a b) s

theorem terminates_of_measure (h : ∀ s s', R s s' → μ s' < μ s) (s : S) : Terminates R s :=
  Subrelation.accessible (fun {b a} hab => h a b hab) ((measure μ).wf.apply s)

/-- A terminating relation reaches an end. -/
theorem Terminates.ends {s : S} (h : Terminates R s) :
    ∃ s', Relation.ReflTransGen R s s' ∧ Ended R s' := by
  induction h with
  | intro s _ ih =>
    by_cases hs : Ended R s
    · exact ⟨s, .refl, hs⟩
    · obtain ⟨s₁, h₁⟩ : ∃ s₁, R s s₁ := by simpa [Ended] using hs
      obtain ⟨s', hrun, hend⟩ := ih s₁ h₁
      exact ⟨s', .head h₁ hrun, hend⟩

theorem reaches_invariant {s s' : S} (hstep : ∀ a b, I a → R a b → I b)
    (hr : Relation.ReflTransGen R s s') (h : I s) : I s' := by
  induction hr with
  | refl => exact h
  | tail _ hab ih => exact hstep _ _ ih hab

end LTS
