import BidScope.L13Ingestion.Service

/-!
# Safety of the ingestion cursor

**Law (`Safe`).** A step that changes the stored cursor value is the commit of a
run that imported the pages from the old value to the new, one after the other; a
run that fails keeps the value and adds one to the failures, one that succeeds
sets them to 0; every change raises the version; a run succeeds over the row that
it read; and no run takes more pages than it may.

* `steps_of_step`: what a step does to rows, calls and imports.
* `inv_inductive`: in every run, the imports of a call lead from its cursor on
  (`Traced`), and the row it wrote is the stored one with its result (`Held`).
* `sound_step`: what the law says of cursor value, pages and successes holds of
  every run.
* `fresh_inductive`: while failures are counted on the stored row (`Current`), a
  call whose version is the stored one read the stored row.
* `cursor_safe`: the law holds of every such run.
* `counted_lawful_iff`: a failing finalisation keeps to the law exactly when it is
  `Current`.
* `failure_lost`: two runs that read one row and fail count as one.
-/
namespace BidScope.L13

variable {P : Type} {svc : IngestionService P}

/-! ## Pages in order -/

/-- Pages that were requested one with the cursor of the other, from `before` on;
`req` is the next request and `last` the cursor they lead to. -/
inductive Leads (nextCursor : P → Option String) (before : String) :
    List (Option String × P) → Option String → String → Prop where
  | nil : Leads nextCursor before [] (requestOf before) before
  | snoc {pages : List (Option String × P)} {req : Option String} {last next : String} {page : P}
    (h : Leads nextCursor before pages req last) (hp : nextCursor page = some next) :
    Leads nextCursor before (pages ++ [(req, page)]) (some next) next

/-- All pages from `before` to the last one, which is the answer to `after`. -/
def Imported (nextCursor : P → Option String) (before after : String) (pages : List (Option String × P)) : Prop :=
  ∃ init req page, pages = init ++ [(req, page)] ∧ Leads nextCursor before init req after ∧ nextCursor page = none

/-! ## What a step does -/

/-- The locals of a call that has not asked for the cursor to be advanced. -/
def Pc.reading : Pc P → Option Locals
  | .fetching l _ | .fetched l _ | .advancing l => some l
  | _ => none

/-- A step of call `w` that writes nothing. -/
inductive Moves (svc : IngestionService P) (s : State P) (w : Nat) : Pc P → Pc P → Prop where
  | absent {startedAt} (h : s.stored = none) : Moves svc s w .idle (.absent startedAt)
  | reads {row startedAt} (h : s.stored = some row) :
    Moves svc s w .idle (.fetching (.start row startedAt s.changes) 0)
  | readsAgain {row startedAt} (h : s.stored = some row) :
    Moves svc s w (.absent startedAt) (.fetching (.start row startedAt s.changes) 0)
  | took {l attempts page} : Moves svc s w (.fetching l attempts) (.fetched (l.took svc page) page)
  | retried {l attempts} : Moves svc s w (.fetching l attempts) (.fetching l (attempts + 1))
  | fails {pc l} {f : Failure} (h : Pc.reading pc = some l) : Moves svc s w pc (l.fail f.status)
  | lost {l copy} : Moves svc s w (.advancing l) (({ l with cursor := copy } : Locals).fail Failure.other.status)
  | succeeds {l run} (h : run.status = .success) : Moves svc s w (.finishing l run) (.committing l run)
  | uncounted {l run} (h : run.status ≠ .success) (hrow : s.row w = none) :
    Moves svc s w (.finishing l run) (.committing l run)

/-- A step of call `w` that writes the row. -/
inductive Writes (s : State P) (w : Nat) : Event P → Pc P → SyncCursor → Pc P → Prop where
  | inserts {startedAt serverNow} (hstored : s.stored = none) (huncommitted : s.uncommitted = none) :
    Writes s w (.insert w serverNow) (.absent startedAt) (.first startedAt serverNow)
      (.fetching (.start (.first startedAt serverNow) startedAt s.changes) 0)
  | advances {l row copy succeededAt} (hrow : s.row w = some row)
    (howned : row.owned l.cursor.version l.cursorBefore = true) :
    Writes s w (.advance w succeededAt) (.advancing l) (row.advanced l.lastCursor l.lastRetrievedAt succeededAt)
      ({ l with cursor := copy } : Locals).succeed
  | counts {l run row finishedAt} (hrow : s.row w = some row) (h : run.status ≠ .success) :
    Writes s w (.finish w finishedAt) (.finishing l run) (l.cursor.counted row finishedAt) (.committing l run)

inductive Steps (svc : IngestionService P) (s : State P) : Event P → State P → Prop where
  | moves {e w pc} (he : ∀ w, e ≠ .commit w) (h : Moves svc s w (s.calls w) pc) : Steps svc s e (s.goto w pc)
  | imports {e w l page pc} (he : ∀ w, e ≠ .commit w) (hpc : s.calls w = .fetched l page)
    (h : pc = afterPage svc l page ∨ ∃ f : Failure, pc = l.fail f.status) :
    Steps svc s e ((importBundle s w l page).goto w pc)
  | writes {e w row pc} (hfree : s.free w = true) (h : Writes s w e (s.calls w) row pc) :
    Steps svc s e { s.goto w pc with uncommitted := some (w, row) }
  | commits {w l run} (hpc : s.calls w = .committing l run) : Steps svc s (.commit w) (commit s w run)
  | stops {w} : Steps svc s (.stop w) (stop s w)

variable {s s' : State P} {e : Event P} {w w' : Nat} {l : Locals} {row : SyncCursor} {run : AcquisitionRun}
  {pc : Pc P} {pages : List (Option String × P)}

theorem insert_steps {startedAt serverNow} (hpc : s.calls w = .absent startedAt)
    (h : insert s w startedAt serverNow = some s') : Steps svc s (.insert w serverNow) s' := by
  unfold insert at h
  split at h
  · cases h
  · next row _ hstored =>
    cases h
    exact .moves (fun _ => nofun) (by rw [hpc]; exact .readsAgain hstored)
  · next hun hstored =>
    cases h
    exact .writes (by rw [State.free, hun]; rfl) (by rw [hpc]; exact .inserts hstored hun)

theorem advance_steps {succeededAt} (hpc : s.calls w = .advancing l)
    (h : advance svc s w l succeededAt = some s') : Steps svc s (.advance w succeededAt) s' := by
  unfold advance at h
  dsimp only at h
  split at h
  · next row hrow =>
    split at h
    · next hfree =>
      cases h
      obtain ⟨hrow, howned⟩ := Option.filter_eq_some_iff.mp hrow
      exact .writes hfree (by rw [hpc]; exact .advances hrow howned)
    · cases h
  · cases h
    exact .moves (fun _ => nofun) (by rw [hpc]; exact .lost)

theorem finish_steps {finishedAt} (hpc : s.calls w = .finishing l run)
    (h : finish s w l run finishedAt = some s') : Steps svc s (.finish w finishedAt) s' := by
  unfold finish at h
  split at h
  · next hsuccess =>
    cases h
    exact .moves (fun _ => nofun) (by rw [hpc]; exact .succeeds hsuccess)
  · next hfail =>
    split at h
    · next hfree =>
      split at h
      · next row hrow =>
        cases h
        exact .writes hfree (by rw [hpc]; exact .counts hrow hfail)
      · next hrow =>
        cases h
        exact .moves (fun _ => nofun) (by rw [hpc]; exact .uncounted hfail hrow)
    · cases h

theorem steps_of_step (h : step svc s e = some s') : Steps svc s e s' := by
  unfold step at h
  cases e with
  | read w startedAt =>
    dsimp only at h
    split at h
    · next row hpc hstored =>
      cases h
      exact .moves (fun _ => nofun) (by rw [hpc]; exact .reads hstored)
    · next hpc hstored =>
      cases h
      exact .moves (fun _ => nofun) (by rw [hpc]; exact .absent hstored)
    · cases h
  | insert w serverNow =>
    dsimp only at h
    split at h
    · next hpc => exact insert_steps hpc h
    · cases h
  | page w page =>
    dsimp only at h
    split at h
    · next hpc =>
      cases h
      exact .moves (fun _ => nofun) (by rw [hpc]; exact .took)
    · cases h
  | fetchRaises w f =>
    dsimp only at h
    split at h
    · next hpc =>
      cases h
      refine .moves (fun _ => nofun) ?_
      rw [hpc]
      split
      · exact .retried
      · exact .fails rfl
    · cases h
  | imported w =>
    dsimp only at h
    split at h
    · next hpc =>
      cases h
      exact .imports (fun _ => nofun) hpc (.inl rfl)
    · cases h
  | raises w imported f =>
    dsimp only at h
    split at h
    · next hpc =>
      cases h
      cases imported with
      | true => exact .imports (fun _ => nofun) hpc (.inr ⟨f, rfl⟩)
      | false => exact .moves (fun _ => nofun) (by rw [hpc]; exact .fails rfl)
    · cases h
  | advance w succeededAt =>
    dsimp only at h
    split at h
    · next hpc => exact advance_steps hpc h
    · cases h
  | advanceRaises w f =>
    dsimp only at h
    split at h
    · next hpc =>
      cases h
      exact .moves (fun _ => nofun) (by rw [hpc]; exact .fails rfl)
    · cases h
  | finish w finishedAt =>
    dsimp only at h
    split at h
    · next hpc => exact finish_steps hpc h
    · cases h
  | commit w =>
    dsimp only at h
    split at h
    · next hpc =>
      cases h
      exact .commits hpc
    · cases h
  | stop w =>
    dsimp only at h
    split at h
    · cases h
    · cases h
    · cases h
    · cases h
      exact .stops

/-! ## What holds in every run -/

/-- The imports of a call lead from its cursor to where it is. -/
def Traced (svc : IngestionService P) (pages : List (Option String × P)) : Pc P → Prop
  | .idle | .absent _ => pages = []
  | .fetching l _ =>
    Leads svc.nextCursor l.cursorBefore pages l.requestCursor l.lastCursor ∧ l.requestCount = l.pageIndex ∧
      l.pageIndex < svc.maxPagesPerRun
  | .fetched l _ =>
    Leads svc.nextCursor l.cursorBefore pages l.requestCursor l.lastCursor ∧ l.requestCount = l.pageIndex + 1 ∧
      l.pageIndex < svc.maxPagesPerRun
  | .advancing l =>
    Imported svc.nextCursor l.cursorBefore l.lastCursor pages ∧ l.requestCount ≤ svc.maxPagesPerRun
  | .finishing l run | .committing l run =>
    run.requestCount ≤ svc.maxPagesPerRun ∧
      (run.status = .success → Imported svc.nextCursor l.cursorBefore l.lastCursor pages)
  | .done run => run.requestCount ≤ svc.maxPagesPerRun
  | .stopped => True

/-- The row has the values that count as stored. -/
structure Agrees (s : State P) (row : SyncCursor) : Prop where
  value : row.cursorValue = s.value
  failures : row.consecutiveFailures = s.failures
  version : row.version = s.version

/-- The row is the stored one, advanced by a call. -/
structure Advances (s : State P) (l : Locals) (row : SyncCursor) : Prop where
  before : l.cursorBefore = s.value
  after : row.cursorValue = l.lastCursor
  failures : row.consecutiveFailures = 0
  version : row.version = s.version + 1

/-- The row that an open transaction wrote, by where its call is. -/
def Held (s : State P) (row : SyncCursor) : Pc P → Prop
  | .fetching _ _ | .fetched _ _ | .advancing _ => Agrees s row
  | .finishing l run => (run.status = .success → Advances s l row) ∧ (run.status ≠ .success → Agrees s row)
  | .committing l run =>
    (run.status = .success → Advances s l row) ∧ (run.status ≠ .success → row.cursorValue = s.value)
  | .idle | .absent _ | .done _ | .stopped => False

/-- The call works on a row. -/
def Pc.opened : Pc P → Bool
  | .fetching _ _ | .fetched _ _ | .advancing _ | .finishing _ _ | .committing _ _ => true
  | .idle | .absent _ | .done _ | .stopped => false

/-- The call has written the row. -/
def Pc.wrote : Pc P → Bool
  | .finishing _ run => run.status = .success
  | .committing _ _ => true
  | _ => false

def State.owner (s : State P) : Option Nat := s.uncommitted.map (·.1)

structure Inv (svc : IngestionService P) (s : State P) : Prop where
  traced : ∀ w, Traced svc (s.importsOf w) (s.calls w)
  present : ∀ w, (s.calls w).opened = true → s.stored.isSome = true ∨ s.owner = some w
  wrote : ∀ w, (s.calls w).wrote = true → s.owner = some w
  held : ∀ w row, s.uncommitted = some (w, row) → Held s row (s.calls w)

theorem Failure.status_ne (f : Failure) : f.status ≠ .success := by
  cases f <;> nofun

theorem stored_agrees (h : s.stored = some row) : Agrees s row := by
  refine ⟨?_, ?_, ?_⟩
  · rw [State.value, h]
    rfl
  · rw [State.failures, h]
    rfl
  · rw [State.version, h]
    rfl

theorem first_agrees {startedAt serverNow} (h : s.stored = none) : Agrees s (.first startedAt serverNow) := by
  refine ⟨?_, ?_, ?_⟩
  · rw [State.value, h]
    rfl
  · rw [State.failures, h]
    rfl
  · rw [State.version, h]
    rfl

/-- The row a call finds is stored, or its own. -/
theorem row_cases (h : s.row w = some row) : s.stored = some row ∨ s.uncommitted = some (w, row) := by
  unfold State.row at h
  cases hun : s.uncommitted.filter (·.1 == w) with
  | none =>
    rw [hun] at h
    exact .inl h
  | some held =>
    obtain ⟨hheld, hw⟩ := Option.filter_eq_some_iff.mp hun
    rw [hun] at h
    rw [hheld, ← beq_iff_eq.mp hw, ← Option.some.inj h]
    exact .inr rfl

theorem row_ne_none (h : s.stored.isSome = true ∨ s.owner = some w) : s.row w ≠ none := by
  intro hrow
  unfold State.row at hrow
  cases hun : s.uncommitted.filter (·.1 == w) with
  | some held =>
    rw [hun] at hrow
    cases hrow
  | none =>
    rw [hun] at hrow
    rcases h with h | h
    · rw [show s.stored = none from hrow] at h
      cases h
    · obtain ⟨⟨w', row⟩, hheld, rfl⟩ := Option.map_eq_some_iff.mp h
      rw [hheld] at hun
      simp at hun

theorem Held.of_values {row : SyncCursor} (h : Held s row pc) (hvalue : s'.value = s.value)
    (hfailures : s'.failures = s.failures) (hversion : s'.version = s.version) : Held s' row pc := by
  have hagrees : Agrees s row → Agrees s' row := fun h =>
    ⟨h.value.trans hvalue.symm, h.failures.trans hfailures.symm, h.version.trans hversion.symm⟩
  have hadvances : ∀ l, Advances s l row → Advances s' l row := fun l h =>
    ⟨h.before.trans hvalue.symm, h.after, h.failures, by rw [h.version, hversion]⟩
  cases pc with
  | fetching l n => exact hagrees h
  | fetched l page => exact hagrees h
  | advancing l => exact hagrees h
  | finishing l run => exact ⟨fun hs => hadvances l (h.1 hs), fun hf => hagrees (h.2 hf)⟩
  | committing l run => exact ⟨fun hs => hadvances l (h.1 hs), fun hf => (h.2 hf).trans hvalue.symm⟩
  | idle => exact h
  | absent t => exact h
  | done run => exact h
  | stopped => exact h

/-! ## One step of a call -/

variable {pc' : Pc P} {startedAt : BidScope.L1.Datetime} {n : Nat}

theorem traced_start (h : pages = []) : Traced svc pages (.fetching (.start row startedAt n) 0) := by
  subst h
  exact ⟨.nil, rfl, svc.bounds.1⟩

theorem Traced.reading (h : Traced svc pages pc) (hl : pc.reading = some l) :
    l.requestCount ≤ svc.maxPagesPerRun := by
  cases pc with
  | fetching l' _ =>
    cases hl
    obtain ⟨-, hcount, hlt⟩ := h
    omega
  | fetched l' _ =>
    cases hl
    obtain ⟨-, hcount, hlt⟩ := h
    omega
  | advancing l' =>
    cases hl
    exact h.2
  | idle => cases hl
  | absent _ => cases hl
  | finishing _ _ => cases hl
  | committing _ _ => cases hl
  | done _ => cases hl
  | stopped => cases hl

theorem traced_fail {f : Failure} (h : l.requestCount ≤ svc.maxPagesPerRun) : Traced svc pages (l.fail f.status) :=
  ⟨h, fun hs => absurd hs f.status_ne⟩

theorem Moves.traced (h : Moves svc s w pc pc') (ht : Traced svc pages pc) : Traced svc pages pc' := by
  cases h with
  | absent _ => exact ht
  | reads _ => exact traced_start ht
  | readsAgain _ => exact traced_start ht
  | took =>
    obtain ⟨hleads, hcount, hlt⟩ := ht
    exact ⟨hleads, congrArg (· + 1) hcount, hlt⟩
  | retried => exact ht
  | fails hl => exact traced_fail (ht.reading hl)
  | lost => exact traced_fail ht.2
  | succeeds _ => exact ht
  | uncounted _ _ => exact ht

/-- An import is one more page of the chain, or its end. -/
theorem traced_imported {page : P} (ht : Traced svc pages (.fetched l page))
    (h : pc = afterPage svc l page ∨ ∃ f : Failure, pc = l.fail f.status) :
    Traced svc (pages ++ [(l.requestCursor, page)]) pc := by
  have hle := ht.reading rfl
  obtain ⟨hleads, hcount, hlt⟩ := ht
  rcases h with rfl | ⟨f, rfl⟩
  · unfold afterPage
    cases hnext : svc.nextCursor page with
    | none => exact ⟨⟨_, _, _, rfl, hleads, hnext⟩, hle⟩
    | some next =>
      dsimp only
      split
      · exact traced_fail hle
      · split
        · exact traced_fail hle
        · next hmax => exact ⟨.snoc hleads hnext, hcount, Nat.lt_of_not_le hmax⟩
  · exact traced_fail hle

theorem Moves.opened (h : Moves svc s w pc pc') (ho : pc'.opened = true) :
    pc.opened = true ∨ s.stored.isSome = true := by
  cases h with
  | absent _ => cases ho
  | reads h => exact .inr (by rw [h]; rfl)
  | readsAgain h => exact .inr (by rw [h]; rfl)
  | took => exact .inl rfl
  | retried => exact .inl rfl
  | fails hl =>
    cases pc with
    | fetching _ _ => exact .inl rfl
    | fetched _ _ => exact .inl rfl
    | advancing _ => exact .inl rfl
    | _ => cases hl
  | lost => exact .inl rfl
  | succeeds _ => exact .inl rfl
  | uncounted _ _ => exact .inl rfl

theorem wrote_fail {f : Failure} : (l.fail f.status : Pc P).wrote = false := decide_eq_false f.status_ne

theorem Moves.wrote (h : Moves svc s w pc pc') (hrow : pc.opened = true → s.row w ≠ none) (hw : pc'.wrote = true) :
    pc.wrote = true := by
  cases h with
  | absent _ => cases hw
  | reads _ => cases hw
  | readsAgain _ => cases hw
  | took => cases hw
  | retried => cases hw
  | fails _ => rw [wrote_fail] at hw; cases hw
  | lost => rw [wrote_fail] at hw; cases hw
  | succeeds h => exact decide_eq_true h
  | uncounted _ hnone => exact absurd hnone (hrow rfl)

theorem held_fail {f : Failure} (h : Agrees s row) : Held s row (l.fail f.status : Pc P) :=
  ⟨fun hs => absurd hs f.status_ne, fun _ => h⟩

theorem Held.reading (h : Held s row pc) (hl : pc.reading = some l) : Agrees s row := by
  cases pc with
  | fetching _ _ => exact h
  | fetched _ _ => exact h
  | advancing _ => exact h
  | _ => cases hl

theorem Moves.held (h : Moves svc s w pc pc') (hrow : pc.opened = true → s.row w ≠ none) (hh : Held s row pc) :
    Held s row pc' := by
  cases h with
  | absent _ => cases hh
  | reads _ => cases hh
  | readsAgain _ => cases hh
  | took => exact hh
  | retried => exact hh
  | fails hl => exact held_fail (hh.reading hl)
  | lost => exact held_fail hh
  | succeeds h => exact ⟨hh.1, fun hf => absurd h hf⟩
  | uncounted _ hnone => exact absurd hnone (hrow rfl)

theorem Writes.traced (h : Writes s w e pc row pc') (ht : Traced svc pages pc) : Traced svc pages pc' := by
  cases h with
  | inserts _ _ => exact traced_start ht
  | advances _ _ => exact ⟨ht.2, fun _ => ht.1⟩
  | counts _ _ => exact ht

theorem row_agrees (hrow : s.row w = some row) (hheld : ∀ row, s.uncommitted = some (w, row) → Agrees s row) :
    Agrees s row :=
  (row_cases hrow).elim stored_agrees (hheld row)

theorem Writes.held (h : Writes s w e pc row pc') (hheld : ∀ row, s.uncommitted = some (w, row) → Held s row pc) :
    Held s row pc' := by
  cases h with
  | inserts hstored _ => exact first_agrees hstored
  | @advances l row copy _ hrow howned =>
    have hagrees := row_agrees hrow hheld
    simp only [SyncCursor.owned, Bool.and_eq_true, beq_iff_eq] at howned
    refine ⟨fun _ => ⟨?_, rfl, rfl, congrArg (· + 1) hagrees.version⟩, fun hf => absurd rfl hf⟩
    exact howned.2.symm.trans hagrees.value
  | counts hrow hfail =>
    have hagrees := row_agrees hrow fun row h => (hheld row h).2 hfail
    exact ⟨fun hs => absurd hs hfail, fun _ => hagrees.value⟩

/-! ## The calls beside it -/

theorem goto_self : (s.goto w pc).calls w = pc := Function.update_self ..

theorem goto_ne (h : w' ≠ w) : (s.goto w pc).calls w' = s.calls w' := Function.update_of_ne h ..

theorem importsOf_self {page : P} :
    (importBundle s w l page).importsOf w = s.importsOf w ++ [(l.requestCursor, page)] := by
  simp [State.importsOf, importBundle]

theorem importsOf_ne {page : P} (h : w' ≠ w) : (importBundle s w l page).importsOf w' = s.importsOf w' := by
  simp [State.importsOf, importBundle, h.symm]

theorem owner_of_free (hfree : s.free w = true) (h : s.owner = some w') : w' = w := by
  obtain ⟨held, hheld, rfl⟩ := Option.map_eq_some_iff.mp h
  rw [State.free, hheld] at hfree
  exact beq_iff_eq.mp hfree

theorem owner_of_held (h : s.uncommitted = some (w, row)) : s.owner = some w := by
  rw [State.owner, h]
  rfl

theorem held_of_owner (h : s.owner = some w) : ∃ row, s.uncommitted = some (w, row) := by
  obtain ⟨⟨w', row⟩, hheld, rfl⟩ := Option.map_eq_some_iff.mp h
  exact ⟨row, hheld⟩

theorem commit_eq (h : s.uncommitted = some (w, row)) : commit s w run =
    { s.goto w (.done run) with stored := some row, uncommitted := none, changes := s.changes + 1 } := by
  unfold commit
  rw [h]
  simp only [Option.filter, beq_self_eq_true, if_true]

theorem owner_stop : (stop s w).owner = some w' ↔ s.owner = some w' ∧ w' ≠ w := by
  unfold stop State.owner
  cases hun : s.uncommitted with
  | none => simp
  | some held =>
    by_cases hw : held.1 = w
    · simp only [Option.filter, hw, bne_self_eq_false, Bool.false_eq_true, if_false, Option.map_none, reduceCtorEq,
        Option.map_some, Option.some.injEq, false_iff, not_and, not_not]
      exact Eq.symm
    · simp only [Option.filter, bne_iff_ne, ne_eq, hw, not_false_eq_true, if_true, Option.map_some, Option.some.injEq]
      constructor
      · rintro rfl
        exact ⟨rfl, hw⟩
      · exact fun h => h.1

/-! ## Every run -/

theorem inv_moves (h : Inv svc s) (hm : Moves svc s w (s.calls w) pc) : Inv svc (s.goto w pc) := by
  have hrow : (s.calls w).opened = true → s.row w ≠ none := fun ho => row_ne_none (h.present w ho)
  refine ⟨fun w' => ?_, fun w' ho => ?_, fun w' hw => ?_, fun w' row hun => ?_⟩ <;> by_cases hne : w' = w
  · subst hne
    rw [goto_self]
    exact hm.traced (h.traced w')
  · rw [goto_ne hne]
    exact h.traced w'
  · subst hne
    rw [goto_self] at ho
    exact (hm.opened ho).elim (h.present w') .inl
  · rw [goto_ne hne] at ho
    exact h.present w' ho
  · subst hne
    rw [goto_self] at hw
    exact h.wrote w' (hm.wrote hrow hw)
  · rw [goto_ne hne] at hw
    exact h.wrote w' hw
  · subst hne
    rw [goto_self]
    exact (hm.held hrow (h.held w' row hun)).of_values rfl rfl rfl
  · rw [goto_ne hne]
    exact (h.held w' row hun).of_values rfl rfl rfl

theorem imports_pc {page : P} (h : pc = afterPage svc l page ∨ ∃ f : Failure, pc = l.fail f.status) :
    pc.opened = true ∧ pc.wrote = false ∧ ∀ row, Agrees s row → Held s row pc := by
  rcases h with rfl | ⟨f, rfl⟩
  · unfold afterPage
    split
    · exact ⟨rfl, rfl, fun _ h => h⟩
    · split
      · exact ⟨rfl, wrote_fail, fun _ => held_fail⟩
      · dsimp only
        split
        · exact ⟨rfl, wrote_fail, fun _ => held_fail⟩
        · exact ⟨rfl, rfl, fun _ h => h⟩
  · exact ⟨rfl, wrote_fail, fun _ => held_fail⟩

theorem inv_imports {page : P} (h : Inv svc s) (hpc : s.calls w = .fetched l page)
    (hafter : pc = afterPage svc l page ∨ ∃ f : Failure, pc = l.fail f.status) :
    Inv svc ((importBundle s w l page).goto w pc) := by
  obtain ⟨hopened, hwrote, hheld⟩ := @imports_pc _ svc s l pc page hafter
  refine ⟨fun w' => ?_, fun w' ho => ?_, fun w' hw => ?_, fun w' row hun => ?_⟩ <;> by_cases hne : w' = w
  · subst hne
    have htraced := h.traced w'
    rw [hpc] at htraced
    rw [goto_self]
    show Traced svc ((importBundle s w' l page).importsOf w') pc
    rw [importsOf_self]
    exact traced_imported htraced hafter
  · rw [goto_ne hne]
    show Traced svc ((importBundle s w l page).importsOf w') (s.calls w')
    rw [importsOf_ne hne]
    exact h.traced w'
  · subst hne
    exact h.present w' (by rw [hpc]; rfl)
  · rw [goto_ne hne] at ho
    exact h.present w' ho
  · subst hne
    rw [goto_self, hwrote] at hw
    cases hw
  · rw [goto_ne hne] at hw
    exact h.wrote w' hw
  · subst hne
    have hheld' := h.held w' row hun
    rw [hpc] at hheld'
    rw [goto_self]
    exact (hheld row hheld').of_values rfl rfl rfl
  · rw [goto_ne hne]
    exact (h.held w' row hun).of_values rfl rfl rfl

theorem inv_writes (h : Inv svc s) (hfree : s.free w = true) (hwrites : Writes s w e (s.calls w) row pc) :
    Inv svc { s.goto w pc with uncommitted := some (w, row) } := by
  refine ⟨fun w' => ?_, fun w' ho => ?_, fun w' hw => ?_, fun w' row' hun => ?_⟩ <;> by_cases hne : w' = w
  · subst hne
    show Traced svc _ ((s.goto w' pc).calls w')
    rw [goto_self]
    exact hwrites.traced (h.traced w')
  · show Traced svc _ ((s.goto w pc).calls w')
    rw [goto_ne hne]
    exact h.traced w'
  · subst hne
    exact .inr rfl
  · have ho' : ((s.goto w pc).calls w').opened = true := ho
    rw [goto_ne hne] at ho'
    exact (h.present w' ho').imp_right fun howner => absurd (owner_of_free hfree howner) hne
  · subst hne
    rfl
  · have hw' : ((s.goto w pc).calls w').wrote = true := hw
    rw [goto_ne hne] at hw'
    exact absurd (owner_of_free hfree (h.wrote w' hw')) hne
  · subst hne
    cases hun
    show Held _ _ ((s.goto w' pc).calls w')
    rw [goto_self]
    exact (hwrites.held (h.held w')).of_values rfl rfl rfl
  · cases hun
    exact absurd rfl hne

theorem inv_commits (h : Inv svc s) (hpc : s.calls w = .committing l run) : Inv svc (commit s w run) := by
  obtain ⟨row, hun⟩ := held_of_owner (h.wrote w (by rw [hpc]; rfl))
  have htraced := h.traced w
  rw [hpc] at htraced
  rw [commit_eq hun]
  refine ⟨fun w' => ?_, fun w' ho => .inl rfl, fun w' hw => ?_, fun w' row' hnone => by cases hnone⟩ <;>
    by_cases hne : w' = w
  · subst hne
    show Traced svc _ ((s.goto w' (.done run)).calls w')
    rw [goto_self]
    exact htraced.1
  · show Traced svc _ ((s.goto w (.done run)).calls w')
    rw [goto_ne hne]
    exact h.traced w'
  · subst hne
    have hw' : ((s.goto w' (.done run)).calls w').wrote = true := hw
    rw [goto_self] at hw'
    cases hw'
  · have hw' : ((s.goto w (.done run)).calls w').wrote = true := hw
    rw [goto_ne hne] at hw'
    have howner := (owner_of_held hun).symm.trans (h.wrote w' hw')
    exact absurd (Option.some.inj howner).symm hne

theorem inv_stops (h : Inv svc s) : Inv svc (stop s w) := by
  refine ⟨fun w' => ?_, fun w' ho => ?_, fun w' hw => ?_, fun w' row hun => ?_⟩ <;> by_cases hne : w' = w
  · subst hne
    show Traced svc _ ((s.goto w' .stopped).calls w')
    rw [goto_self]
    trivial
  · show Traced svc _ ((s.goto w .stopped).calls w')
    rw [goto_ne hne]
    exact h.traced w'
  · subst hne
    have ho' : ((s.goto w' .stopped).calls w').opened = true := ho
    rw [goto_self] at ho'
    cases ho'
  · have ho' : ((s.goto w .stopped).calls w').opened = true := ho
    rw [goto_ne hne] at ho'
    exact (h.present w' ho').imp_right fun howner => owner_stop.mpr ⟨howner, hne⟩
  · subst hne
    have hw' : ((s.goto w' .stopped).calls w').wrote = true := hw
    rw [goto_self] at hw'
    cases hw'
  · have hw' : ((s.goto w .stopped).calls w').wrote = true := hw
    rw [goto_ne hne] at hw'
    exact owner_stop.mpr ⟨h.wrote w' hw', hne⟩
  · exact absurd hne (owner_stop.mp (owner_of_held hun)).2
  · show Held _ _ ((s.goto w .stopped).calls w')
    rw [goto_ne hne]
    exact (h.held w' row (Option.filter_eq_some_iff.mp hun).1).of_values rfl rfl rfl

theorem inv_inductive : (ingestion svc).Inductive (Inv svc) where
  init s h := by
    have hpc := h.calls
    refine ⟨fun w => ?_, fun w ho => ?_, fun w hw => ?_, fun w row hun => ?_⟩
    · rw [hpc w, State.importsOf, h.imports]
      rfl
    · rw [hpc w] at ho
      cases ho
    · rw [hpc w] at hw
      cases hw
    · rw [h.uncommitted] at hun
      cases hun
  step s e s' h hs := by
    cases steps_of_step hs with
    | moves _ hm => exact inv_moves h hm
    | imports _ hpc hafter => exact inv_imports h hpc hafter
    | writes hfree hwrites => exact inv_writes h hfree hwrites
    | commits hpc => exact inv_commits h hpc
    | stops => exact inv_stops h

/-! ## While failures are counted on the stored row -/

/-- A failing finalisation has the stored failures in its session, and no older version. -/
def Pc.current (s : State P) : Pc P → Prop
  | .finishing l run =>
    run.status ≠ .success → l.cursor.consecutiveFailures = s.failures ∧ s.version ≤ l.cursor.version
  | _ => True

def Current (s : State P) : Event P → Prop
  | .finish w _ => (s.calls w).current s
  | _ => True

instance (s : State P) : (pc : Pc P) → Decidable (pc.current s)
  | .finishing l run => inferInstanceAs (Decidable (run.status ≠ .success →
      l.cursor.consecutiveFailures = s.failures ∧ s.version ≤ l.cursor.version))
  | .idle | .absent _ | .fetching _ _ | .fetched _ _ | .advancing _ | .committing _ _ | .done _ | .stopped =>
    .isTrue trivial

instance (s : State P) : (e : Event P) → Decidable (Current s e)
  | .finish w _ => inferInstanceAs (Decidable ((s.calls w).current s))
  | .read _ _ | .insert _ _ | .page _ _ | .fetchRaises _ _ | .imported _ | .raises _ _ _ | .advance _ _
  | .advanceRaises _ _ | .commit _ | .stop _ => .isTrue trivial

/-- What the call read is the stored row, or an older version. -/
structure Sees (s : State P) (l : Locals) : Prop where
  readAt : l.readAt ≤ s.changes
  version : l.cursor.version ≤ s.version
  current : l.cursor.version = s.version → l.readAt = s.changes

def HeldFresh (s : State P) (row : SyncCursor) : Pc P → Prop
  | .finishing l run => run.status = .success → l.readAt = s.changes
  | .committing l run =>
    (run.status = .success → l.readAt = s.changes) ∧
      (run.status ≠ .success → row.consecutiveFailures = s.failures + 1 ∧ s.version < row.version)
  | _ => True

structure Fresh (s : State P) : Prop where
  sees : ∀ w l, (s.calls w).reading = some l → Sees s l
  held : ∀ w row, s.uncommitted = some (w, row) → HeldFresh s row (s.calls w)

theorem Sees.of_stored {l' : Locals} (h : Sees s l) (hcursor : l'.cursor = l.cursor) (hreadAt : l'.readAt = l.readAt)
    (hstored : s'.stored = s.stored) (hchanges : s'.changes = s.changes) : Sees s' l' := by
  have hversion : s'.version = s.version := by rw [State.version, hstored]; rfl
  obtain ⟨hread, hle, hcurrent⟩ := h
  rw [← hcursor, ← hversion] at hle hcurrent
  rw [← hreadAt, ← hchanges] at hread hcurrent
  exact ⟨hread, hle, hcurrent⟩

theorem HeldFresh.of_stored (h : HeldFresh s row pc) (hstored : s'.stored = s.stored)
    (hchanges : s'.changes = s.changes) : HeldFresh s' row pc := by
  have hversion : s'.version = s.version := by rw [State.version, hstored]; rfl
  have hfailures : s'.failures = s.failures := by rw [State.failures, hstored]; rfl
  cases pc with
  | finishing l run => exact fun hs => (h hs).trans hchanges.symm
  | committing l run =>
    refine ⟨fun hs => (h.1 hs).trans hchanges.symm, fun hf => ?_⟩
    rw [hversion, hfailures]
    exact h.2 hf
  | _ => trivial

theorem sees_start (h : Agrees s row) : Sees s (.start row startedAt s.changes) :=
  ⟨Nat.le_refl _, Nat.le_of_eq h.version, fun _ => rfl⟩

theorem Moves.sees {l' : Locals} (h : Moves svc s w pc pc') (hs : ∀ l, pc.reading = some l → Sees s l)
    (hl : pc'.reading = some l') : Sees s l' := by
  cases h with
  | absent _ => cases hl
  | reads h => exact Option.some.inj hl ▸ sees_start (stored_agrees h)
  | readsAgain h => exact Option.some.inj hl ▸ sees_start (stored_agrees h)
  | took => exact Option.some.inj hl ▸ (hs _ rfl).of_stored rfl rfl rfl rfl
  | retried => exact hs _ hl
  | fails _ => cases hl
  | lost => cases hl
  | succeeds _ => cases hl
  | uncounted _ _ => cases hl

theorem Moves.fresh (h : Moves svc s w pc pc') (hun : s.uncommitted = some (w, row)) (hf : HeldFresh s row pc) :
    HeldFresh s row pc' := by
  cases h with
  | absent _ => trivial
  | reads _ => trivial
  | readsAgain _ => trivial
  | took => trivial
  | retried => trivial
  | @fails pc l f _ => exact fun hs => absurd hs f.status_ne
  | lost => exact fun hs => absurd hs (Failure.status_ne .other)
  | succeeds h => exact ⟨hf, fun hno => absurd h hno⟩
  | uncounted _ hnone => exact absurd hnone (row_ne_none (.inr (owner_of_held hun)))

/-- Behind a page the session's copy is what it was. -/
theorem sees_imported {page : P} {l' : Locals} (h : Sees s l)
    (hafter : pc = afterPage svc l page ∨ ∃ f : Failure, pc = l.fail f.status) (hl : pc.reading = some l') :
    Sees s l' := by
  rcases hafter with rfl | ⟨f, rfl⟩
  · unfold afterPage at hl
    split at hl
    · exact Option.some.inj hl ▸ h
    · split at hl
      · cases hl
      · dsimp only at hl
        split at hl
        · cases hl
        · exact Option.some.inj hl ▸ h.of_stored rfl rfl rfl rfl
  · cases hl

theorem heldFresh_imported {page : P} (hafter : pc = afterPage svc l page ∨ ∃ f : Failure, pc = l.fail f.status) :
    HeldFresh s row pc := by
  have hfail : ∀ f : Failure, HeldFresh s row (l.fail f.status : Pc P) := fun f hs => absurd hs f.status_ne
  rcases hafter with rfl | ⟨f, rfl⟩
  · unfold afterPage
    split
    · trivial
    · split
      · exact hfail .payload
      · dsimp only
        split
        · exact fun hs => absurd hs (Failure.status_ne .payload)
        · trivial
  · exact hfail f

theorem Writes.sees {l' : Locals} (h : Writes s w e pc row pc') (hl : pc'.reading = some l') : Sees s l' := by
  cases h with
  | inserts hstored _ => exact Option.some.inj hl ▸ sees_start (first_agrees hstored)
  | advances _ _ => cases hl
  | counts _ _ => cases hl

theorem Writes.fresh (h : Writes s w e pc row pc') (hpc : s.calls w = pc) (hcurrent : Current s e)
    (hsees : ∀ l, pc.reading = some l → Sees s l) (hheld : ∀ row, s.uncommitted = some (w, row) → Held s row pc) :
    HeldFresh s row pc' := by
  cases h with
  | inserts _ _ => trivial
  | @advances l row copy _ hrow howned =>
    have hagrees := row_agrees hrow hheld
    simp only [SyncCursor.owned, Bool.and_eq_true, beq_iff_eq] at howned
    exact fun _ => (hsees l rfl).current (howned.1.symm.trans hagrees.version)
  | counts hrow hfail =>
    rw [Current, hpc] at hcurrent
    obtain ⟨hfailures, hversion⟩ := hcurrent hfail
    exact ⟨fun hs => absurd hs hfail, fun _ => ⟨congrArg (· + 1) hfailures, Nat.lt_succ_of_le hversion⟩⟩

theorem fresh_moves (hf : Fresh s) (hm : Moves svc s w (s.calls w) pc) : Fresh (s.goto w pc) := by
  refine ⟨fun w' l hl => ?_, fun w' row hun => ?_⟩ <;> by_cases hne : w' = w
  · subst hne
    rw [goto_self] at hl
    exact (hm.sees (hf.sees w') hl).of_stored rfl rfl rfl rfl
  · rw [goto_ne hne] at hl
    exact (hf.sees w' l hl).of_stored rfl rfl rfl rfl
  · subst hne
    rw [goto_self]
    exact (hm.fresh hun (hf.held w' row hun)).of_stored rfl rfl
  · rw [goto_ne hne]
    exact (hf.held w' row hun).of_stored rfl rfl

theorem fresh_imports {page : P} (hf : Fresh s) (hpc : s.calls w = .fetched l page)
    (hafter : pc = afterPage svc l page ∨ ∃ f : Failure, pc = l.fail f.status) :
    Fresh ((importBundle s w l page).goto w pc) := by
  have hsees : Sees s l := hf.sees w l (by rw [hpc]; rfl)
  refine ⟨fun w' l' hl => ?_, fun w' row hun => ?_⟩ <;> by_cases hne : w' = w
  · subst hne
    rw [goto_self] at hl
    exact (sees_imported hsees hafter hl).of_stored rfl rfl rfl rfl
  · rw [goto_ne hne] at hl
    exact (hf.sees w' l' hl).of_stored rfl rfl rfl rfl
  · subst hne
    rw [goto_self]
    exact heldFresh_imported hafter
  · rw [goto_ne hne]
    exact (hf.held w' row hun).of_stored rfl rfl

theorem fresh_writes (h : Inv svc s) (hf : Fresh s) (hcurrent : Current s e)
    (hwrites : Writes s w e (s.calls w) row pc) : Fresh { s.goto w pc with uncommitted := some (w, row) } := by
  refine ⟨fun w' l (hl : ((s.goto w pc).calls w').reading = some l) => ?_, fun w' row' hun => ?_⟩ <;>
    by_cases hne : w' = w
  · subst hne
    rw [goto_self] at hl
    exact (hwrites.sees hl).of_stored rfl rfl rfl rfl
  · rw [goto_ne hne] at hl
    exact (hf.sees w' l hl).of_stored rfl rfl rfl rfl
  · subst hne
    cases hun
    show HeldFresh _ _ ((s.goto w' pc).calls w')
    rw [goto_self]
    exact (hwrites.fresh rfl hcurrent (hf.sees w') (h.held w')).of_stored rfl rfl
  · cases hun
    exact absurd rfl hne

/-- A commit raises the version. -/
theorem version_lt (h : Held s row (.committing l run)) (hf : HeldFresh s row (.committing l run)) :
    s.version < row.version := by
  by_cases hs : run.status = .success
  · rw [(h.1 hs).version]
    exact Nat.lt_succ_self _
  · exact (hf.2 hs).2

theorem fresh_commits (h : Inv svc s) (hf : Fresh s) (hpc : s.calls w = .committing l run) :
    Fresh (commit s w run) := by
  obtain ⟨row, hun⟩ := held_of_owner (h.wrote w (by rw [hpc]; rfl))
  have hheld := h.held w row hun
  have hfresh := hf.held w row hun
  rw [hpc] at hheld hfresh
  have hlt := version_lt hheld hfresh
  rw [commit_eq hun]
  refine ⟨fun w' l' hl => ?_, fun w' row' hnone => by cases hnone⟩
  have hl' : ((s.goto w (.done run)).calls w').reading = some l' := hl
  by_cases hne : w' = w
  · subst hne
    rw [goto_self] at hl'
    cases hl'
  · rw [goto_ne hne] at hl'
    obtain ⟨hread, hle, -⟩ := hf.sees w' l' hl'
    have hless : l'.cursor.version < row.version := Nat.lt_of_le_of_lt hle hlt
    exact ⟨Nat.le_succ_of_le hread, Nat.le_of_lt hless, fun heq => absurd heq (Nat.ne_of_lt hless)⟩

theorem fresh_stops (hf : Fresh s) : Fresh (stop s w) := by
  refine ⟨fun w' l (hl : ((s.goto w .stopped).calls w').reading = some l) => ?_, fun w' row hun => ?_⟩ <;>
    by_cases hne : w' = w
  · subst hne
    rw [goto_self] at hl
    cases hl
  · rw [goto_ne hne] at hl
    exact (hf.sees w' l hl).of_stored rfl rfl rfl rfl
  · exact absurd hne (owner_stop.mp (owner_of_held hun)).2
  · show HeldFresh _ _ ((s.goto w .stopped).calls w')
    rw [goto_ne hne]
    exact (hf.held w' row (Option.filter_eq_some_iff.mp hun).1).of_stored rfl rfl

theorem fresh_inductive :
    ((ingestion svc).restrict Current).Inductive fun s => Inv svc s ∧ Fresh s := by
  refine inv_inductive.restrict.and (fun s h => ?_) (fun s e s' h hf hs => ?_)
  · have hpc := h.calls
    refine ⟨fun w l hl => ?_, fun w row hun => ?_⟩
    · rw [hpc w] at hl
      cases hl
    · rw [h.uncommitted] at hun
      cases hun
  · obtain ⟨hcurrent, hstep⟩ := hs
    cases steps_of_step hstep with
    | moves _ hm => exact fresh_moves hf hm
    | imports _ hpc hafter => exact fresh_imports hf hpc hafter
    | writes _ hwrites => exact fresh_writes h hf hcurrent hwrites
    | commits hpc => exact fresh_commits h hf hpc
    | stops => exact fresh_stops hf

/-! ## The law -/

/-- The pages the call has taken. -/
def Pc.requestCount : Pc P → Nat
  | .fetching l _ | .fetched l _ | .advancing l => l.requestCount
  | .finishing _ run | .committing _ run | .done run => run.requestCount
  | .idle | .absent _ | .stopped => 0

/-- What holds of the steps of every run. -/
structure Sound (svc : IngestionService P) (s : State P) (e : Event P) (s' : State P) : Prop where
  /-- the value moves over pages that were imported one after the other, to the last -/
  advances : s'.value ≠ s.value → ∃ w l run, e = .commit w ∧ s.calls w = .committing l run ∧
    run.status = .success ∧ Imported svc.nextCursor s.value s'.value (s.importsOf w)
  kept : ∀ w l run, e = .commit w → s.calls w = .committing l run → run.status ≠ .success → s'.value = s.value
  reset : ∀ w l run, e = .commit w → s.calls w = .committing l run → run.status = .success → s'.failures = 0
  pages : ∀ w, (s'.calls w).requestCount ≤ svc.maxPagesPerRun

structure Safe (svc : IngestionService P) (s : State P) (e : Event P) (s' : State P) : Prop extends
    Sound svc s e s' where
  counted : ∀ w l run, e = .commit w → s.calls w = .committing l run → run.status ≠ .success →
    s'.failures = s.failures + 1
  version : s'.stored ≠ s.stored → s.version < s'.version
  /-- a run succeeds over the row it read -/
  unchanged : ∀ w l run, e = .commit w → s.calls w = .committing l run → run.status = .success →
    l.readAt = s.changes

theorem Traced.requestCount (h : Traced svc pages pc) : pc.requestCount ≤ svc.maxPagesPerRun := by
  cases pc with
  | fetching _ _ => exact h.reading rfl
  | fetched _ _ => exact h.reading rfl
  | advancing _ => exact h.reading rfl
  | finishing _ _ => exact h.1
  | committing _ _ => exact h.1
  | done _ => exact h
  | idle => exact Nat.zero_le _
  | absent _ => exact Nat.zero_le _
  | stopped => exact Nat.zero_le _

theorem Writes.ne_commit (h : Writes s w e pc row pc') : ∀ w, e ≠ .commit w := by
  cases h <;> exact fun _ => nofun

/-- A step that is no commit leaves what is stored. -/
theorem stored_cases (h : Steps svc s e s') :
    (∃ w l run, e = .commit w ∧ s.calls w = .committing l run ∧ s' = commit s w run) ∨
      ((∀ w, e ≠ .commit w) ∧ s'.stored = s.stored) := by
  cases h with
  | commits hpc => exact .inl ⟨_, _, _, rfl, hpc, rfl⟩
  | moves he _ => exact .inr ⟨he, rfl⟩
  | imports he _ _ => exact .inr ⟨he, rfl⟩
  | writes _ hwrites => exact .inr ⟨hwrites.ne_commit, rfl⟩
  | stops => exact .inr ⟨fun _ => nofun, rfl⟩

/-- A commit stores the row that its call wrote. -/
theorem commit_cases (h : Inv svc s) (hpc : s.calls w = .committing l run) : ∃ row,
    s.uncommitted = some (w, row) ∧ Held s row (.committing l run) ∧ (commit s w run).stored = some row := by
  obtain ⟨row, hun⟩ := held_of_owner (h.wrote w (by rw [hpc]; rfl))
  have hheld := h.held w row hun
  rw [hpc] at hheld
  exact ⟨row, hun, hheld, by rw [commit_eq hun]⟩

theorem committing_inj {l' : Locals} {run' : AcquisitionRun} (h : s.calls w = .committing l run)
    (h' : s.calls w = .committing l' run') : l' = l ∧ run' = run := by
  obtain ⟨rfl, rfl⟩ := Pc.committing.inj (h.symm.trans h')
  exact ⟨rfl, rfl⟩

theorem sound_commit (h : Inv svc s) (hpc : s.calls w = .committing l run)
    (hpages : ∀ w', ((commit s w run).calls w').requestCount ≤ svc.maxPagesPerRun) :
    Sound svc s (.commit w) (commit s w run) := by
  obtain ⟨row, -, hheld, hstored⟩ := commit_cases h hpc
  have hafter := stored_agrees hstored
  refine ⟨fun hne => ?_, fun w' l' run' hw hpc' hfail => ?_, fun w' l' run' hw hpc' hsuccess => ?_, hpages⟩
  · by_cases hsuccess : run.status = .success
    · have htraced := h.traced w
      rw [hpc] at htraced
      obtain ⟨hbefore, hlast, -⟩ := hheld.1 hsuccess
      refine ⟨w, l, run, rfl, hpc, hsuccess, ?_⟩
      rw [← hafter.value, hlast, ← hbefore]
      exact htraced.2 hsuccess
    · exact absurd (hafter.value.symm.trans (hheld.2 hsuccess)) hne
  · cases hw
    obtain ⟨rfl, rfl⟩ := committing_inj hpc hpc'
    exact hafter.value.symm.trans (hheld.2 hfail)
  · cases hw
    obtain ⟨rfl, rfl⟩ := committing_inj hpc hpc'
    exact hafter.failures.symm.trans (hheld.1 hsuccess).failures

/-- Every step of every run. -/
theorem sound_step (hr : (ingestion svc).Reachable s) (hs : step svc s e = some s') : Sound svc s e s' := by
  have h := inv_inductive.reachable s hr
  have hpages : ∀ w, (s'.calls w).requestCount ≤ svc.maxPagesPerRun := fun w =>
    ((inv_inductive.step s e s' h hs).traced w).requestCount
  rcases stored_cases (steps_of_step hs) with ⟨w, l, run, rfl, hpc, rfl⟩ | ⟨he, hstored⟩
  · exact sound_commit h hpc hpages
  · exact ⟨fun hne => absurd (by rw [State.value, hstored]; rfl) hne, fun w _ _ hw => absurd hw (he w),
      fun w _ _ hw => absurd hw (he w), hpages⟩

/-- **The cursor is safe** in every run that counts its failures on the stored row. -/
theorem cursor_safe (svc : IngestionService P) {s s' : State P} {e : Event P}
    (hr : ((ingestion svc).restrict Current).Reachable s) (hs : ((ingestion svc).restrict Current).step s e s') :
    Safe svc s e s' := by
  obtain ⟨h, hf⟩ := fresh_inductive.reachable s hr
  have hsound := sound_step (LTS.reachable_of_restrict hr) hs.2
  rcases stored_cases (steps_of_step hs.2) with ⟨w, l, run, rfl, hpc, rfl⟩ | ⟨he, hstored⟩
  · obtain ⟨row, hun, hheld, hstored⟩ := commit_cases h hpc
    have hafter := stored_agrees hstored
    have hfresh := hf.held w row hun
    rw [hpc] at hfresh
    refine ⟨hsound, fun w' l' run' hw hpc' hfail => ?_, fun _ => ?_, fun w' l' run' hw hpc' hsuccess => ?_⟩
    · cases hw
      obtain ⟨rfl, rfl⟩ := committing_inj hpc hpc'
      exact hafter.failures.symm.trans (hfresh.2 hfail).1
    · exact hafter.version ▸ version_lt hheld hfresh
    · cases hw
      obtain ⟨rfl, rfl⟩ := committing_inj hpc hpc'
      exact hfresh.1 hsuccess
  · exact ⟨hsound, fun w _ _ hw => absurd hw (he w), fun hne => absurd hstored hne, fun w _ _ hw => absurd hw (he w)⟩

/-- A failing finalisation counts on the stored row exactly when it is `Current`. -/
theorem counted_lawful_iff {finishedAt : BidScope.L1.Datetime} (hr : (ingestion svc).Reachable s)
    (hpc : s.calls w = .finishing l run) (hfail : run.status ≠ .success)
    (hs : step svc s (.finish w finishedAt) = some s') :
    (∃ row, s'.uncommitted = some (w, row) ∧ row.consecutiveFailures = s.failures + 1 ∧ s.version < row.version) ↔
      Current s (.finish w finishedAt) := by
  have h := inv_inductive.reachable s hr
  have hcurrent : Current s (.finish w finishedAt) ↔
      (l.cursor.consecutiveFailures = s.failures ∧ s.version ≤ l.cursor.version) := by
    rw [Current, hpc]
    exact ⟨fun h => h hfail, fun h _ => h⟩
  obtain ⟨row, hrow⟩ := Option.ne_none_iff_exists'.mp (row_ne_none (h.present w (by rw [hpc]; rfl)))
  have hs' : s' = { s.goto w (.committing l run) with uncommitted := some (w, l.cursor.counted row finishedAt) } := by
    simp only [step, hpc, finish, if_neg hfail, hrow] at hs
    split at hs
    · exact (Option.some.inj hs).symm
    · cases hs
  subst hs'
  rw [hcurrent]
  constructor
  · rintro ⟨row', hrow', hfailures, hversion⟩
    obtain rfl : l.cursor.counted row finishedAt = row' := congrArg Prod.snd (Option.some.inj hrow')
    exact ⟨Nat.succ.inj hfailures, Nat.le_of_lt_succ hversion⟩
  · rintro ⟨hfailures, hversion⟩
    exact ⟨_, rfl, congrArg (· + 1) hfailures, Nat.lt_succ_of_le hversion⟩

/-! ## Runs -/

/-- A page of this client is its next cursor. -/
def twoPages : IngestionService (Option String) where
  maxPagesPerRun := 2
  bounds := by decide
  nextCursor := id
  retrievedAt _ := ⟨0, 0⟩
  synchronize _ _ updated := updated

/-- A source with its first row. -/
def begun : State (Option String) := ⟨some (.first ⟨0, 0⟩ ⟨0, 0⟩), none, fun _ => .idle, [], 0⟩

theorem begun_initial : Initial begun := ⟨rfl, fun _ => rfl, rfl⟩

/-- A run fails, and the next one imports two pages. -/
def oneAfterAnother : List (Event (Option String)) :=
  [.read 0 ⟨0, 0⟩, .fetchRaises 0 (.client false), .finish 0 ⟨1, 0⟩, .commit 0, .read 1 ⟨2, 0⟩, .page 1 (some "p2"),
    .imported 1, .page 1 none, .imported 1, .advance 1 ⟨3, 0⟩, .finish 1 ⟨4, 0⟩]

def caughtUp : State (Option String) :=
  (LTS.exec (fun s e => if Current s e then step twoPages s e else none) begun oneAfterAnother).get (by rfl)

theorem cursor_safe_advanced :
    Safe twoPages caughtUp (.commit 1) ((step twoPages caughtUp (.commit 1)).get (by rfl)) :=
  cursor_safe twoPages (LTS.reachable_of_execGuarded oneAfterAnother begun_initial (by rfl))
    ⟨trivial, (Option.some_get _).symm⟩

/-- Both runs read the row before the first is over. -/
def twoFail : List (Event (Option String)) :=
  [.read 0 ⟨0, 0⟩, .read 1 ⟨0, 0⟩, .fetchRaises 0 (.client false), .fetchRaises 1 (.client false), .finish 0 ⟨1, 0⟩,
    .commit 0, .finish 1 ⟨2, 0⟩]

def bothFailed : State (Option String) := (LTS.exec (step twoPages) begun twoFail).get (by rfl)

/-- The second failure stores what the first has stored. -/
theorem failure_lost : (ingestion twoPages).Reachable bothFailed ∧
    ∃ s', (ingestion twoPages).step bothFailed (.commit 1) s' ∧ ¬ Safe twoPages bothFailed (.commit 1) s' := by
  refine ⟨LTS.reachable_of_exec twoFail begun_initial (by rfl), (step twoPages bothFailed (.commit 1)).get (by rfl),
    (Option.some_get _).symm, fun h => ?_⟩
  have hcounted := h.counted 1 _ _ rfl rfl (by decide)
  exact absurd hcounted (by decide)

end BidScope.L13
