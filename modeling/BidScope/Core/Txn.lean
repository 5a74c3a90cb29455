/-!
# Programs in one transaction

A `Prog` reads and writes the rows of one database transaction, statement by
statement, and beside them something outside the transaction that no rollback
undoes. A statement may raise by its own rules, or because the environment
makes it raise: `fault k` is the exception of the `k`-th statement issued. What
the database refuses in a value (PostgreSQL: the character U+0000 in a text) is
not among a statement's own rules; such a text is one of those faults.

* `bind_returns`, `statement_returns`, ...: what a program that returns did,
  one step at a time.
* `Keeps`: what holds outside the transaction at every exit, also at an
  exception.
* `unitOfWork`: commit when the body returned, rollback when it raised.
  `unitOfWork_cases` says what is stored at each exit.
-/

universe u

namespace Txn

structure Session (σ τ : Type u) where
  rows : σ
  outside : τ
  issued : Nat

/-- A program with its exceptions; what it wrote before raising is in the session. -/
def Prog (σ τ ε α : Type u) := Session σ τ → Except ε α × Session σ τ

variable {σ τ ε α β : Type u}

namespace Prog

def ret (a : α) : Prog σ τ ε α := fun s => (.ok a, s)

def bind (m : Prog σ τ ε α) (k : α → Prog σ τ ε β) : Prog σ τ ε β := fun s =>
  match m s with
  | (.ok a, s') => k a s'
  | (.error e, s') => (.error e, s')

instance : Monad (Prog σ τ ε) where
  pure := ret
  bind := bind

def raise (e : ε) : Prog σ τ ε α := fun s => (.error e, s)

/-- One statement. It issues even when it raises. -/
def statement (fault : Nat → Option ε) (f : σ → τ → Except ε (α × σ × τ)) : Prog σ τ ε α :=
  fun s =>
    match fault s.issued with
    | some e => (.error e, { s with issued := s.issued + 1 })
    | none =>
      match f s.rows s.outside with
      | .ok (a, rows, outside) => (.ok a, ⟨rows, outside, s.issued + 1⟩)
      | .error e => (.error e, { s with issued := s.issued + 1 })

/-- A statement that only reads. -/
def query (fault : Nat → Option ε) (f : σ → α) : Prog σ τ ε α :=
  statement fault fun rows outside => .ok (f rows, rows, outside)

/-- A savepoint around `m`: for an exception that `handler` takes, the rows are
put back and the handler goes on from there. -/
def savepoint (m : Prog σ τ ε α) (handler : ε → Option (Prog σ τ ε α)) : Prog σ τ ε α :=
  fun s =>
    match m s with
    | (.ok a, s') => (.ok a, s')
    | (.error e, s') =>
      match handler e with
      | some h => h { s' with rows := s.rows }
      | none => (.error e, s')

/-- `for k, a in enumerate(xs, k): f(k, a)` -/
def each (f : Nat → α → Prog σ τ ε PUnit) : Nat → List α → Prog σ τ ε PUnit
  | _, [] => ret ⟨⟩
  | k, a :: as => (f k a).bind fun _ => each f (k + 1) as

/-- `m` started in `s` returns `a` and leaves `s'`. -/
def Returns (m : Prog σ τ ε α) (s : Session σ τ) (a : α) (s' : Session σ τ) : Prop :=
  m s = (.ok a, s')

variable {m : Prog σ τ ε α} {k : α → Prog σ τ ε β} {s s' : Session σ τ} {a a' : α} {b : β}

@[simp] theorem ret_returns : (ret a : Prog σ τ ε α).Returns s a' s' ↔ a' = a ∧ s' = s := by
  simp only [Returns, ret, Prod.mk.injEq, Except.ok.injEq]
  constructor
  · intro h
    exact ⟨h.1.symm, h.2.symm⟩
  · intro h
    exact ⟨h.1.symm, h.2.symm⟩

@[simp] theorem pure_returns : (pure a : Prog σ τ ε α).Returns s a' s' ↔ a' = a ∧ s' = s :=
  ret_returns

@[simp] theorem raise_returns {e : ε} : (raise e : Prog σ τ ε α).Returns s a s' ↔ False := by
  simp [Returns, raise]

theorem bind_returns : (m.bind k).Returns s b s' ↔
    ∃ a s₁, m.Returns s a s₁ ∧ (k a).Returns s₁ b s' := by
  unfold Returns bind
  constructor
  · intro h
    split at h
    · rename_i a s₁ hm
      exact ⟨a, s₁, hm, h⟩
    · cases h
  · intro h
    obtain ⟨a, s₁, hm, hk⟩ := h
    rw [hm]
    exact hk

theorem then_returns : (m >>= k).Returns s b s' ↔
    ∃ a s₁, m.Returns s a s₁ ∧ (k a).Returns s₁ b s' :=
  bind_returns

theorem statement_returns {fault : Nat → Option ε} {f : σ → τ → Except ε (α × σ × τ)} :
    (statement fault f).Returns s a s' ↔
      fault s.issued = none ∧ f s.rows s.outside = .ok (a, s'.rows, s'.outside) ∧
        s'.issued = s.issued + 1 := by
  unfold Returns statement
  cases s' with
  | mk rows' outside' issued' =>
    cases hf : fault s.issued with
    | some e => simp
    | none =>
      cases hr : f s.rows s.outside with
      | error e => simp
      | ok r =>
        obtain ⟨a', rows, outside⟩ := r
        simp only [Prod.mk.injEq, Except.ok.injEq, Session.mk.injEq, true_and]
        constructor
        · intro h
          exact ⟨⟨h.1, h.2.1, h.2.2.1⟩, h.2.2.2.symm⟩
        · intro h
          exact ⟨h.1.1, h.1.2.1, h.1.2.2, h.2.symm⟩

theorem query_returns {fault : Nat → Option ε} {f : σ → α} :
    (query fault f : Prog σ τ ε α).Returns s a s' ↔
      fault s.issued = none ∧ a = f s.rows ∧ s' = { s with issued := s.issued + 1 } := by
  unfold query
  rw [statement_returns]
  cases s' with
  | mk rows' outside' issued' =>
    simp only [Except.ok.injEq, Prod.mk.injEq, Session.mk.injEq]
    constructor
    · intro h
      exact ⟨h.1, h.2.1.1.symm, h.2.1.2.1.symm, h.2.1.2.2.symm, h.2.2⟩
    · intro h
      exact ⟨h.1, ⟨h.2.1.symm, h.2.2.1.symm, h.2.2.2.1.symm⟩, h.2.2.2.2⟩

theorem savepoint_returns {handler : ε → Option (Prog σ τ ε α)} :
    (savepoint m handler).Returns s a s' ↔
      m.Returns s a s' ∨ ∃ e s₁ h, m s = (.error e, s₁) ∧ handler e = some h ∧
        h.Returns { s₁ with rows := s.rows } a s' := by
  unfold Returns savepoint
  cases hm : m s with
  | mk r s₁ =>
    cases r with
    | ok a₁ => simp
    | error e =>
      cases hh : handler e with
      | none => simp [hh]
      | some h =>
        simp only [hh, Prod.mk.injEq, reduceCtorEq, false_and, false_or]
        constructor
        · intro hret
          exact ⟨e, s₁, h, ⟨rfl, rfl⟩, hh, hret⟩
        · intro hex
          obtain ⟨e', s₂, h', heq, hh', hret⟩ := hex
          cases heq.1
          cases heq.2
          rw [hh] at hh'
          cases hh'
          exact hret

/-- A loop preserves what each turn preserves. -/
theorem each_returns {f : Nat → α → Prog σ τ ε PUnit} {I : Session σ τ → Prop}
    (hstep : ∀ k a s s' u, I s → (f k a).Returns s u s' → I s') :
    ∀ (xs : List α) (k : Nat) (s s' : Session σ τ) (u : PUnit),
      (each f k xs).Returns s u s' → I s → I s'
  | [], k, s, s', u, h, hI => by
    rw [each, ret_returns] at h
    rw [h.2]
    exact hI
  | a :: xs, k, s, s', u, h, hI => by
    rw [each, bind_returns] at h
    obtain ⟨u', s₁, hf, hrest⟩ := h
    exact each_returns hstep xs (k + 1) s₁ s' u hrest (hstep k a s s₁ u' hI hf)

/-! ## What holds outside at every exit -/

/-- `m` preserves `I` of what is outside, whether it returns or raises. -/
def Keeps (I : τ → Prop) (m : Prog σ τ ε α) : Prop :=
  ∀ s, I s.outside → I (m s).2.outside

theorem keeps_ret {I : τ → Prop} : (ret a : Prog σ τ ε α).Keeps I := fun _ h => h

theorem keeps_raise {I : τ → Prop} {e : ε} : (raise e : Prog σ τ ε α).Keeps I := fun _ h => h

theorem Keeps.bind {I : τ → Prop} (hm : m.Keeps I) (hk : ∀ a, (k a).Keeps I) :
    (m.bind k).Keeps I := by
  intro s h
  have h₁ := hm s h
  unfold Prog.bind
  split
  · rename_i a s₁ heq
    rw [heq] at h₁
    exact hk a s₁ h₁
  · rename_i e s₁ heq
    rw [heq] at h₁
    exact h₁

theorem keeps_statement {I : τ → Prop} {fault : Nat → Option ε}
    {f : σ → τ → Except ε (α × σ × τ)}
    (hf : ∀ rows outside a rows' outside', f rows outside = .ok (a, rows', outside') →
      I outside → I outside') : (statement fault f).Keeps I := by
  intro s h
  unfold statement
  split
  · exact h
  · split
    · rename_i a rows outside heq
      exact hf _ _ _ _ _ heq h
    · exact h

theorem Keeps.savepoint {I : τ → Prop} {handler : ε → Option (Prog σ τ ε α)} (hm : m.Keeps I)
    (hh : ∀ e h, handler e = some h → h.Keeps I) : (savepoint m handler).Keeps I := by
  intro s hs
  have h₁ := hm s hs
  unfold Prog.savepoint
  split
  · rename_i a s₁ heq
    rw [heq] at h₁
    exact h₁
  · rename_i e s₁ heq
    rw [heq] at h₁
    split
    · rename_i h hsome
      exact hh e h hsome _ h₁
    · exact h₁

theorem keeps_query {I : τ → Prop} {fault : Nat → Option ε} {f : σ → α} :
    (query fault f : Prog σ τ ε α).Keeps I := by
  refine keeps_statement fun rows outside a rows' outside' heq h => ?_
  simp only [Except.ok.injEq, Prod.mk.injEq] at heq
  rw [← heq.2.2]
  exact h

theorem keeps_each {I : τ → Prop} {f : Nat → α → Prog σ τ ε PUnit}
    (hf : ∀ k a, (f k a).Keeps I) : ∀ (xs : List α) (k : Nat), (each f k xs).Keeps I
  | [], _ => keeps_ret
  | a :: xs, k => (hf k a).bind fun _ => keeps_each hf xs (k + 1)

end Prog

/-! ## The unit of work -/

/-- How a commit ends: done; raised with nothing stored; or raised although the
rows are stored, the reply lost or the caller cancelled while it waited. -/
inductive Commit (ε : Type u) where
  | done
  | refused (e : ε)
  | lost (e : ε)

def Commit.stores : Commit ε → Bool
  | .refused _ => false
  | .done | .lost _ => true

/-- `async with UnitOfWork(...)`: the body's result, the rows stored and what is
outside. `close` is the exception of closing the session, if any, which happens
after the commit and after a rollback; a rollback that raises stores nothing
either, and leaves as a close that raises does. -/
def unitOfWork (commit : Commit ε) (close : Option ε) (body : Prog σ τ ε α) (rows : σ)
    (outside : τ) : Except ε α × σ × τ :=
  let (result, stored, left) :=
    match body ⟨rows, outside, 0⟩ with
    | (.error e, s) => (.error e, rows, s.outside)
    | (.ok a, s) =>
      match commit with
      | .done => (.ok a, s.rows, s.outside)
      | .refused e => (.error e, rows, s.outside)
      | .lost e => (.error e, s.rows, s.outside)
  match close with
  | some e => (.error e, stored, left)
  | none => (result, stored, left)

variable {commit : Commit ε} {close : Option ε} {body : Prog σ τ ε α} {rows : σ} {outside : τ}

/-- Either nothing is stored, and an exception leaves; or the body returned and
its rows are stored, and an exception leaves only from a commit whose reply was
lost or from closing the session. -/
theorem unitOfWork_cases :
    ((unitOfWork commit close body rows outside).2.1 = rows ∧
        ∃ e, (unitOfWork commit close body rows outside).1 = .error e) ∨
      ∃ a s', body.Returns ⟨rows, outside, 0⟩ a s' ∧ commit.stores = true ∧
        (unitOfWork commit close body rows outside).2 = (s'.rows, s'.outside) ∧
        ((commit = .done ∧ close = none ∧
            (unitOfWork commit close body rows outside).1 = .ok a) ∨
          ((commit ≠ .done ∨ close ≠ none) ∧
            ∃ e, (unitOfWork commit close body rows outside).1 = .error e)) := by
  unfold unitOfWork Prog.Returns
  cases hb : body ⟨rows, outside, 0⟩ with
  | mk result s =>
    cases result with
    | error e =>
      left
      cases close with
      | none => exact ⟨rfl, e, rfl⟩
      | some e' => exact ⟨rfl, e', rfl⟩
    | ok a =>
      cases commit with
      | refused e =>
        left
        cases close with
        | none => exact ⟨rfl, e, rfl⟩
        | some e' => exact ⟨rfl, e', rfl⟩
      | done =>
        right
        refine ⟨a, s, rfl, rfl, ?_⟩
        cases close with
        | none => exact ⟨rfl, Or.inl ⟨rfl, rfl, rfl⟩⟩
        | some e' => exact ⟨rfl, Or.inr ⟨Or.inr (Option.some_ne_none e'), e', rfl⟩⟩
      | lost e =>
        right
        have hlost : Commit.lost e ≠ .done := fun h => by cases h
        refine ⟨a, s, rfl, rfl, ?_⟩
        cases close with
        | none => exact ⟨rfl, Or.inr ⟨Or.inl hlost, e, rfl⟩⟩
        | some e' => exact ⟨rfl, Or.inr ⟨Or.inl hlost, e', rfl⟩⟩

theorem unitOfWork_stored {a : α} {s' : Session σ τ} (h : body.Returns ⟨rows, outside, 0⟩ a s')
    (hcommit : commit.stores = true) :
    (unitOfWork commit close body rows outside).2 = (s'.rows, s'.outside) := by
  unfold unitOfWork
  rw [h]
  cases commit with
  | refused e => cases hcommit
  | done => cases close <;> rfl
  | lost e => cases close <;> rfl

/-- A program that keeps `I` outside keeps it through its unit of work. -/
theorem unitOfWork_keeps {I : τ → Prop} (hk : body.Keeps I) (h : I outside) :
    I (unitOfWork commit close body rows outside).2.2 := by
  have hs := hk ⟨rows, outside, 0⟩ h
  unfold unitOfWork
  cases hb : body ⟨rows, outside, 0⟩ with
  | mk result s =>
    rw [hb] at hs
    cases result <;> cases commit <;> cases close <;> exact hs

end Txn
