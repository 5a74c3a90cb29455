import BidScope.L13Ingestion.CursorSafety

/-!
# Workers and the advisory lock

`run_ingestion_once` takes the advisory lock on a connection of its own, awaits
the runner and gives the lock back. Any number of workers do this one run after
the other, each run a call of the service. Nothing ties the lock to the
transaction of the call: the lock ends with its connection (`drop`), and the
call goes on.

* `Kept`: a connection ends when its call is over. `Locked`: a call finishes and
  commits while its worker has the lock. A run that is `Kept` is `Locked`
  (`run_locked`).
* `owned_inductive`: the call of the worker with the lock has the stored row in
  its session, so every step of a `Locked` run is `Current`, and safe
  (`workers_safe`).
* `workers_serial`: the cursor of a `Locked` run is the one of a single worker,
  one acquisition after the other, each from where the last success ended.
* `workers_alone`: in a `Kept` run one call is under way at most; it waits for no
  other transaction and does not lose the cursor.
* `lock_lost`: without the condition a failure is counted twice as one.
-/
namespace BidScope.L13

variable {P : Type} (svc : IngestionService P)

/-! ## The workers -/

def Event.call : Event P → Nat
  | .read w _ | .insert w _ | .page w _ | .fetchRaises w _ | .imported w | .raises w _ _ | .advance w _
  | .advanceRaises w _ | .finish w _ | .commit w | .stop w => w

def Pc.over : Pc P → Bool
  | .done _ | .stopped => true
  | .idle | .absent _ | .fetching _ _ | .fetched _ _ | .advancing _ | .finishing _ _ | .committing _ _ => false

/-- Begun, and not over. -/
def Pc.underWay : Pc P → Bool
  | .idle => false
  | pc => !pc.over

structure Workers (P : Type) where
  base : State P
  /-- the worker whose connection has the lock -/
  lock : Option Nat
  /-- the call that a worker awaits -/
  runs : Nat → Option Nat
  begun : Nat
  /-- the runs that committed, each with the pages it imported -/
  results : List (AcquisitionRun × List (Option String × P))

/-- mirrors ingestion/scheduler.py:56-60 -/
def acquireIngestionLock (s : Workers P) (i : Nat) : Bool × Workers P :=
  if s.lock.isNone then (true, { s with lock := some i }) else (false, s)

/-- mirrors ingestion/scheduler.py:63-67 -/
def releaseIngestionLock (s : Workers P) (i : Nat) : Workers P :=
  if s.lock = some i then { s with lock := none } else s

/-- The runner is called, or the run is skipped.
mirrors ingestion/scheduler.py:70-80 -/
def runWithIngestionLock (s : Workers P) (i : Nat) : Workers P :=
  match acquireIngestionLock s i with
  | (true, s) => { s with runs := Function.update s.runs i (some s.begun), begun := s.begun + 1 }
  | (false, s) => s

inductive WorkerEvent (P : Type) where
  | enter (i : Nat)
  /-- a step of the call that worker `i` awaits -/
  | call (i : Nat) (e : Event P)
  /-- the call is over, with a result or an exception -/
  | leave (i : Nat)
  /-- the connection with the lock ends -/
  | drop (i : Nat)

/-- What a step adds to the results. -/
def Workers.returned (s : Workers P) : Event P → List (AcquisitionRun × List (Option String × P))
  | .commit w =>
    match s.base.calls w with
    | .committing _ run => [(run, s.base.importsOf w)]
    | _ => []
  | _ => []

def workerStep (s : Workers P) : WorkerEvent P → Option (Workers P)
  | .enter i => if s.runs i = none then some (runWithIngestionLock s i) else none
  | .call i e =>
    if s.runs i = some e.call then
      (step svc s.base e).map fun base => { s with base := base, results := s.results ++ s.returned e }
    else none
  | .leave i =>
    match s.runs i with
    | some w =>
      if (s.base.calls w).underWay then none
      else some (releaseIngestionLock { s with runs := Function.update s.runs i none } i)
    | none => none
  | .drop i => if s.lock = some i then some { s with lock := none } else none

/-- No worker has begun; `stored` is the row of the source. -/
structure Ready (stored : Option SyncCursor) (s : Workers P) : Prop where
  base : Initial s.base
  stored : s.base.stored = stored
  lock : s.lock = none
  runs : ∀ i, s.runs i = none
  results : s.results = []

def workers (stored : Option SyncCursor) : LTS (Workers P) (WorkerEvent P) :=
  LTS.ofFn (Ready stored) (workerStep svc)

/-- The connection with the lock lasts until the call of its worker is over. -/
def Kept (s : Workers P) : WorkerEvent P → Prop
  | .drop i => ∀ w ∈ s.runs i, (s.base.calls w).over = true
  | _ => True

/-- A call finishes and commits while its worker has the lock. -/
def Locked (s : Workers P) : WorkerEvent P → Prop
  | .call i (.finish _ _) | .call i (.commit _) => s.lock = some i
  | _ => True

instance (s : Workers P) : (e : WorkerEvent P) → Decidable (Kept s e)
  | .drop i => inferInstanceAs (Decidable (∀ w ∈ s.runs i, (s.base.calls w).over = true))
  | .enter _ | .call _ _ | .leave _ => .isTrue trivial

instance (s : Workers P) : (e : WorkerEvent P) → Decidable (Locked s e)
  | .call i (.finish _ _) => inferInstanceAs (Decidable (s.lock = some i))
  | .call i (.commit _) => inferInstanceAs (Decidable (s.lock = some i))
  | .call _ (.read _ _) | .call _ (.insert _ _) | .call _ (.page _ _) | .call _ (.fetchRaises _ _)
  | .call _ (.imported _) | .call _ (.raises _ _ _) | .call _ (.advance _ _) | .call _ (.advanceRaises _ _)
  | .call _ (.stop _) | .enter _ | .leave _ | .drop _ => .isTrue trivial

/-! ## One worker alone -/

/-- What the row says of the source. -/
structure Position where
  value : String
  failures : Nat
  version : Nat
  deriving DecidableEq

def Position.of (stored : Option SyncCursor) : Position :=
  ⟨stored.elim "" (·.cursorValue), stored.elim 0 (·.consecutiveFailures), stored.elim 0 (·.version)⟩

/-- One acquisition after the other: a success goes on from where the last one
ended, any other run leaves the value and is counted. -/
inductive Serial (nextCursor : P → Option String) (start : Position) :
    List (AcquisitionRun × List (Option String × P)) → Position → Prop where
  | nil : Serial nextCursor start [] start
  | success {results p run pages after} (h : Serial nextCursor start results p) (hs : run.status = .success)
    (hp : Imported nextCursor p.value after pages) :
    Serial nextCursor start (results ++ [(run, pages)]) ⟨after, 0, p.version + 1⟩
  | failure {results p run pages} (h : Serial nextCursor start results p) (hf : run.status ≠ .success) :
    Serial nextCursor start (results ++ [(run, pages)]) ⟨p.value, p.failures + 1, p.version + 1⟩

/-! ## The call with the lock -/

variable {svc} {s s' : State P} {e : Event P} {w w' i : Nat} {l : Locals} {row : SyncCursor} {run : AcquisitionRun}
  {pc : Pc P}

/-- The session has the stored row, or the one that the call itself wrote. -/
def Owns (s : State P) (w : Nat) : Pc P → Prop
  | .fetching l _ | .fetched l _ | .advancing l =>
    s.row w = some l.cursor ∧ l.cursor.cursorValue = l.cursorBefore
  | .finishing l run => run.status ≠ .success → Agrees s l.cursor
  | .committing _ run => run.status ≠ .success → ∀ row, s.uncommitted = some (w, row) →
      row.consecutiveFailures = s.failures + 1 ∧ row.version = s.version + 1
  | .idle | .absent _ | .done _ | .stopped => True

/-- Before a call has a row it has written none. -/
theorem row_unopened (h : Inv svc s) (hpc : (s.calls w).opened = false) : s.row w = s.stored := by
  unfold State.row
  cases hun : s.uncommitted.filter (·.1 == w) with
  | none => rfl
  | some held =>
    obtain ⟨hheld, hw⟩ := Option.filter_eq_some_iff.mp hun
    obtain ⟨w', row⟩ := held
    obtain rfl : w' = w := beq_iff_eq.mp hw
    have hrow := h.held w' row hheld
    cases hcall : s.calls w' <;> simp_all [Held, Pc.opened]

theorem Owns.agrees (h : Inv svc s) (hl : (s.calls w).reading = some l) (hrow : s.row w = some l.cursor) :
    Agrees s l.cursor :=
  row_agrees hrow fun row hun => (h.held w row hun).reading hl

theorem owns_fail {f : Failure} (h : Agrees s l.cursor) : Owns s w (l.fail f.status : Pc P) := fun _ => h

theorem Agrees.of_stored (h : Agrees s row) (hstored : s'.stored = s.stored) : Agrees s' row := by
  obtain ⟨hvalue, hfailures, hversion⟩ := h
  refine ⟨?_, ?_, ?_⟩
  · rw [hvalue, State.value, State.value, hstored]
  · rw [hfailures, State.failures, State.failures, hstored]
  · rw [hversion, State.version, State.version, hstored]

/-- What a step that no commit makes leaves of the calls beside its own. -/
structure Beside (s s' : State P) (w : Nat) : Prop where
  calls : s'.calls w = s.calls w
  stored : s'.stored = s.stored
  wrote : s'.uncommitted.filter (·.1 == w) = s.uncommitted.filter (·.1 == w)

theorem beside_goto (hne : w ≠ w') : Beside s (s.goto w' pc) w := ⟨goto_ne hne, rfl, rfl⟩

theorem beside_writes (hne : w ≠ w') (hfree : s.free w' = true) :
    Beside s { s.goto w' pc with uncommitted := some (w', row) } w := by
  refine ⟨goto_ne hne, rfl, ?_⟩
  cases hun : s.uncommitted with
  | none => simp [Option.filter, hne.symm]
  | some held =>
    rw [State.free, hun] at hfree
    obtain rfl : held.1 = w' := beq_iff_eq.mp hfree
    simp [Option.filter, hne.symm]

theorem beside_stop (hne : w ≠ w') : Beside s (stop s w') w := by
  refine ⟨goto_ne hne, rfl, ?_⟩
  unfold stop
  cases hun : s.uncommitted with
  | none => rfl
  | some held =>
    by_cases hw : held.1 = w <;> by_cases hw' : held.1 = w' <;> simp_all [Option.filter]

theorem beside (hs : step svc s e = some s') (hne : w ≠ e.call) (hc : ∀ w, e ≠ .commit w) : Beside s s' w := by
  cases e with
  | read w' startedAt =>
    simp only [step] at hs
    split at hs <;> cases hs <;> exact beside_goto hne
  | insert w' serverNow =>
    simp only [step, insert] at hs
    split at hs
    · split at hs
      · cases hs
      · cases hs
        exact beside_goto hne
      · next hun _ =>
        cases hs
        exact beside_writes hne (by rw [State.free, hun]; rfl)
    · cases hs
  | page w' page =>
    simp only [step] at hs
    split at hs <;> cases hs
    exact beside_goto hne
  | fetchRaises w' f =>
    simp only [step] at hs
    split at hs <;> cases hs
    exact beside_goto hne
  | imported w' =>
    simp only [step] at hs
    split at hs <;> cases hs
    exact ⟨goto_ne hne, rfl, rfl⟩
  | raises w' imported f =>
    simp only [step] at hs
    split at hs <;> cases hs
    cases imported <;> exact ⟨goto_ne hne, rfl, rfl⟩
  | advance w' succeededAt =>
    simp only [step, advance] at hs
    split at hs
    · split at hs
      · split at hs
        · next hfree =>
          cases hs
          exact beside_writes hne hfree
        · cases hs
      · cases hs
        exact beside_goto hne
    · cases hs
  | advanceRaises w' f =>
    simp only [step] at hs
    split at hs <;> cases hs
    exact beside_goto hne
  | finish w' finishedAt =>
    simp only [step, finish] at hs
    split at hs
    · split at hs
      · cases hs
        exact beside_goto hne
      · split at hs
        · next hfree =>
          split at hs
          · cases hs
            exact beside_writes hne hfree
          · cases hs
            exact beside_goto hne
        · cases hs
    · cases hs
  | commit w' => exact absurd rfl (hc w')
  | stop w' =>
    simp only [step] at hs
    split at hs <;> cases hs
    exact beside_stop hne

theorem Owns.beside (h : Owns s w (s.calls w)) (hb : Beside s s' w) : Owns s' w (s'.calls w) := by
  have hrow : s'.row w = s.row w := by rw [State.row, State.row, hb.wrote, hb.stored]
  have hfailures : s'.failures = s.failures := by rw [State.failures, State.failures, hb.stored]
  have hversion : s'.version = s.version := by rw [State.version, State.version, hb.stored]
  have hheld : ∀ row, s'.uncommitted = some (w, row) → s.uncommitted = some (w, row) := fun row hun => by
    have hwrote := hb.wrote
    rw [hun, Option.filter_some, beq_self_eq_true, if_pos rfl] at hwrote
    exact (Option.filter_eq_some_iff.mp hwrote.symm).1
  rw [hb.calls]
  cases hpc : s.calls w with
  | fetching _ _ => rw [hpc] at h; exact ⟨hrow.trans h.1, h.2⟩
  | fetched _ _ => rw [hpc] at h; exact ⟨hrow.trans h.1, h.2⟩
  | advancing _ => rw [hpc] at h; exact ⟨hrow.trans h.1, h.2⟩
  | finishing _ _ => rw [hpc] at h; exact fun hf => (h hf).of_stored hb.stored
  | committing _ _ =>
    rw [hpc] at h
    intro hf row hun
    rw [hfailures, hversion]
    exact h hf row (hheld row hun)
  | _ => trivial

/-! ## A step of the call with the lock -/

theorem owned_self (h : l.cursor.cursorValue = l.cursorBefore) :
    l.cursor.owned l.cursor.version l.cursorBefore = true := by
  simp [SyncCursor.owned, h]

/-- The cursor is advanced where the session has the stored row. -/
theorem advance_owned {succeededAt : BidScope.L1.Datetime} (hrow : s.row w = some l.cursor)
    (hvalue : l.cursor.cursorValue = l.cursorBefore) :
    let updated := l.cursor.advanced l.lastCursor l.lastRetrievedAt succeededAt
    advance svc s w l succeededAt =
      if s.free w then
        some { s.goto w ({ l with cursor := svc.synchronize true l.cursor updated } : Locals).succeed with
          uncommitted := some (w, updated) }
      else none := by
  simp [advance, hrow, Option.filter, owned_self hvalue]

theorem owns_start {startedAt : BidScope.L1.Datetime} {n k : Nat} (h : s.row w = some row) :
    Owns s w (.fetching (.start row startedAt n) k : Pc P) := ⟨h, rfl⟩

theorem owns_afterPage {page : P} (hrow : s.row w = some l.cursor) (hvalue : l.cursor.cursorValue = l.cursorBefore)
    (hagrees : Agrees s l.cursor) : Owns s w (afterPage svc l page) := by
  unfold afterPage
  split
  · exact ⟨hrow, hvalue⟩
  · split
    · exact owns_fail hagrees
    · dsimp only
      split
      · exact owns_fail (l := { l with lastCursor := _, requestCursor := _ }) hagrees
      · exact ⟨hrow, hvalue⟩

theorem owns_finish {finishedAt : BidScope.L1.Datetime}
    (ho : run.status ≠ .success → Agrees s l.cursor) (hs : finish s w l run finishedAt = some s') :
    Owns s' w (s'.calls w) := by
  unfold finish at hs
  split at hs
  · next hsuccess =>
    cases hs
    rw [goto_self]
    exact fun hf => absurd hsuccess hf
  · next hfail =>
    have hagrees := ho hfail
    split at hs
    · split at hs
      · cases hs
        show Owns _ w ((s.goto w _).calls w)
        rw [goto_self]
        rintro - row hrow
        cases hrow
        exact ⟨congrArg (· + 1) hagrees.failures, congrArg (· + 1) hagrees.version⟩
      · next hnone =>
        cases hs
        rw [goto_self]
        exact fun _ row hun => absurd hnone (row_ne_none (.inr (owner_of_held hun)))
    · cases hs

theorem owns_step (h : Inv svc s) (ho : Owns s e.call (s.calls e.call)) (hs : step svc s e = some s') :
    Owns s' e.call (s'.calls e.call) := by
  cases e with
  | read w startedAt =>
    simp only [step] at hs
    split at hs
    · next row hpc hstored =>
      cases hs
      show Owns _ w ((s.goto w _).calls w)
      rw [goto_self]
      exact owns_start ((row_unopened h (by rw [hpc]; rfl)).trans hstored)
    · cases hs
      show Owns _ w ((s.goto w _).calls w)
      rw [goto_self]
      trivial
    · cases hs
  | insert w serverNow =>
    simp only [step, insert] at hs
    split at hs
    · next hpc =>
      split at hs
      · cases hs
      · next hstored =>
        cases hs
        show Owns _ w ((s.goto w _).calls w)
        rw [goto_self]
        exact owns_start ((row_unopened h (by rw [hpc]; rfl)).trans hstored)
      · cases hs
        show Owns _ w ((s.goto w _).calls w)
        rw [goto_self]
        exact owns_start (by simp [State.row, Option.filter])
    · cases hs
  | page w page =>
    simp only [step] at hs
    split at hs
    · next hpc =>
      cases hs
      simp only [Event.call, hpc] at ho
      show Owns _ w ((s.goto w _).calls w)
      rw [goto_self]
      exact ho
    · cases hs
  | fetchRaises w f =>
    simp only [step] at hs
    split at hs
    · next hpc =>
      cases hs
      simp only [Event.call, hpc] at ho
      show Owns _ w ((s.goto w _).calls w)
      rw [goto_self]
      split
      · exact ho
      · exact owns_fail ((Owns.agrees h (by rw [hpc]; rfl) ho.1).of_stored rfl)
    · cases hs
  | imported w =>
    simp only [step] at hs
    split at hs
    · next hpc =>
      cases hs
      simp only [Event.call, hpc] at ho
      show Owns _ w (((importBundle s w _ _).goto w _).calls w)
      rw [goto_self]
      exact owns_afterPage ho.1 ho.2 ((Owns.agrees h (by rw [hpc]; rfl) ho.1).of_stored rfl)
    · cases hs
  | raises w imported f =>
    simp only [step] at hs
    split at hs
    · next hpc =>
      cases hs
      simp only [Event.call, hpc] at ho
      have hagrees := Owns.agrees h (by rw [hpc]; rfl) ho.1
      show Owns _ w ((State.goto _ w _).calls w)
      rw [goto_self]
      cases imported <;> exact owns_fail (hagrees.of_stored rfl)
    · cases hs
  | advance w succeededAt =>
    simp only [step] at hs
    split at hs
    · next hpc =>
      simp only [Event.call, hpc] at ho
      rw [advance_owned ho.1 ho.2] at hs
      split at hs
      · cases hs
        show Owns _ w ((s.goto w _).calls w)
        rw [goto_self]
        exact fun hf => absurd rfl hf
      · cases hs
    · cases hs
  | advanceRaises w f =>
    simp only [step] at hs
    split at hs
    · next hpc =>
      cases hs
      simp only [Event.call, hpc] at ho
      show Owns _ w ((s.goto w _).calls w)
      rw [goto_self]
      exact owns_fail ((Owns.agrees h (by rw [hpc]; rfl) ho.1).of_stored rfl)
    · cases hs
  | finish w finishedAt =>
    simp only [step] at hs
    split at hs
    · next hpc =>
      simp only [Event.call, hpc] at ho
      exact owns_finish ho hs
    · cases hs
  | commit w =>
    simp only [step] at hs
    split at hs
    · cases hs
      unfold commit
      split <;>
      · show Owns _ w ((s.goto w _).calls w)
        rw [goto_self]
        trivial
    · cases hs
  | stop w =>
    simp only [step] at hs
    split at hs <;> cases hs
    show Owns _ w ((s.goto w _).calls w)
    rw [goto_self]
    trivial

/-! ## Runs under the lock -/

section

variable {s s' : Workers P} {ev : WorkerEvent P} {stored : Option SyncCursor}

structure Owned (svc : IngestionService P) (s : Workers P) : Prop where
  inv : Inv svc s.base
  fresh : ∀ w, s.begun ≤ w → s.base.calls w = .idle
  bound : ∀ i w, s.runs i = some w → w < s.begun
  one : ∀ i j w, s.runs i = some w → s.runs j = some w → i = j
  locked : ∀ i, s.lock = some i → ∃ w, s.runs i = some w
  owns : ∀ i w, s.lock = some i → s.runs i = some w → Owns s.base w (s.base.calls w)

theorem enter_cases (i : Nat) : (s.lock.isSome = true ∧ runWithIngestionLock s i = s) ∨
    (s.lock = none ∧ runWithIngestionLock s i =
      { s with lock := some i, runs := Function.update s.runs i (some s.begun), begun := s.begun + 1 }) := by
  cases h : s.lock with
  | none => exact .inr ⟨rfl, by simp [runWithIngestionLock, acquireIngestionLock, h]⟩
  | some j => exact .inl ⟨rfl, by simp [runWithIngestionLock, acquireIngestionLock, h]⟩

theorem call_cases {e : Event P} (h : workerStep svc s (.call i e) = some s') : s.runs i = some e.call ∧
    ∃ base, step svc s.base e = some base ∧ s' = { s with base := base, results := s.results ++ s.returned e } := by
  simp only [workerStep] at h
  split at h
  · next hrun =>
    obtain ⟨base, hbase, rfl⟩ := Option.map_eq_some_iff.mp h
    exact ⟨hrun, base, hbase, rfl⟩
  · cases h

theorem leave_cases (h : workerStep svc s (.leave i) = some s') : ∃ w, s.runs i = some w ∧
    (s.base.calls w).underWay = false ∧ s' = { s with
      runs := Function.update s.runs i none, lock := if s.lock = some i then none else s.lock } := by
  simp only [workerStep] at h
  split at h
  · next w hrun =>
    split at h
    · cases h
    · next hover =>
      cases h
      refine ⟨w, hrun, by simpa using hover, ?_⟩
      unfold releaseIngestionLock
      split <;> rfl
  · cases h

theorem drop_cases (h : workerStep svc s (.drop i) = some s') : s.lock = some i ∧ s' = { s with lock := none } := by
  simp only [workerStep] at h
  split at h
  · next hlock =>
    cases h
    exact ⟨hlock, rfl⟩
  · cases h

theorem calls_beside {s s' : State P} {e : Event P} (hs : step svc s e = some s') (hne : w ≠ e.call) :
    s'.calls w = s.calls w := by
  by_cases hc : ∀ w, e ≠ .commit w
  · exact (beside hs hne hc).calls
  · obtain ⟨w', rfl⟩ := not_forall_not.mp hc
    simp only [step] at hs
    split at hs <;> cases hs
    unfold commit
    split <;> exact goto_ne hne

theorem owned_enter (h : Owned svc s) (hnone : s.runs i = none) : Owned svc (runWithIngestionLock s i) := by
  rcases enter_cases (s := s) i with ⟨-, heq⟩ | ⟨-, heq⟩
  · rwa [heq]
  · rw [heq]
    have hrun : ∀ j w, Function.update s.runs i (some s.begun) j = some w →
        (j = i ∧ w = s.begun) ∨ (j ≠ i ∧ s.runs j = some w) := fun j w hj =>
      (LTS.of_update hj).imp_left fun hj => ⟨hj.1, (Option.some.inj hj.2).symm⟩
    refine ⟨h.inv, fun w hw => h.fresh w (Nat.le_of_succ_le hw), fun j w hj => ?_, fun j k w hj hk => ?_,
      fun j hj => ?_, fun j w hlock hj => ?_⟩
    · rcases hrun j w hj with ⟨-, rfl⟩ | ⟨-, hold⟩
      · exact Nat.lt_succ_self _
      · exact Nat.lt_succ_of_lt (h.bound j w hold)
    · rcases hrun j w hj with ⟨rfl, rfl⟩ | ⟨-, hold⟩ <;> rcases hrun k _ hk with ⟨rfl, hw⟩ | ⟨-, hold'⟩
      · rfl
      · exact absurd (h.bound k _ hold') (Nat.lt_irrefl _)
      · exact absurd (hw ▸ h.bound j w hold) (Nat.lt_irrefl _)
      · exact h.one j k w hold hold'
    · cases hj
      exact ⟨s.begun, Function.update_self ..⟩
    · cases hlock
      obtain rfl : s.begun = w := Option.some.inj (LTS.of_update_self hj)
      rw [h.fresh s.begun (Nat.le_refl _)]
      trivial

theorem owned_call {e : Event P} {base : State P} (h : Owned svc s) (hl : Locked s (.call i e))
    (hrun : s.runs i = some e.call) (hs : step svc s.base e = some base) :
    Owned svc { s with base := base, results := s.results ++ s.returned e } := by
  have hlt := h.bound i _ hrun
  refine ⟨inv_inductive.step _ e _ h.inv hs, fun w hw => ?_, h.bound, h.one, h.locked, fun j w hlock hj => ?_⟩
  · rw [← h.fresh w hw]
    exact calls_beside hs (by have : s.begun ≤ w := hw; omega)
  · have howns := h.owns j w hlock hj
    by_cases hw : w = e.call
    · subst hw
      exact owns_step h.inv howns hs
    · refine howns.beside (beside hs hw fun w' hcommit => ?_)
      subst hcommit
      obtain rfl : i = j := Option.some.inj (Eq.trans (Eq.symm hl) hlock)
      exact hw (Option.some.inj (hj.symm.trans hrun))

theorem owned_leave (h : Owned svc s) : Owned svc { s with
    runs := Function.update s.runs i none, lock := if s.lock = some i then none else s.lock } := by
  have hrun : ∀ j w, Function.update s.runs i none j = some w → s.runs j = some w := fun j w hj =>
    (LTS.of_update hj).elim (fun hj => by cases hj.2) (·.2)
  have hlock : ∀ j, (if s.lock = some i then none else s.lock) = some j → j ≠ i ∧ s.lock = some j := fun j hj => by
    split at hj
    · cases hj
    · next hne => exact ⟨fun hji => hne (hji ▸ hj), hj⟩
  refine ⟨h.inv, h.fresh, fun j w hj => h.bound j w (hrun j w hj),
    fun j k w hj hk => h.one j k w (hrun j w hj) (hrun k w hk), fun j hj => ?_,
    fun j w hj hw => h.owns j w (hlock j hj).2 (hrun j w hw)⟩
  obtain ⟨hne, hj⟩ := hlock j hj
  obtain ⟨w, hw⟩ := h.locked j hj
  exact ⟨w, (Function.update_of_ne hne ..).trans hw⟩

theorem owned_step (h : Owned svc s) (hl : Locked s ev) (hs : workerStep svc s ev = some s') : Owned svc s' := by
  cases ev with
  | enter i =>
    simp only [workerStep] at hs
    split at hs
    · next hnone =>
      cases hs
      exact owned_enter h hnone
    · cases hs
  | call i e =>
    obtain ⟨hrun, base, hbase, rfl⟩ := call_cases hs
    exact owned_call h hl hrun hbase
  | leave i =>
    obtain ⟨w, -, -, rfl⟩ := leave_cases hs
    exact owned_leave h
  | drop i =>
    obtain ⟨-, rfl⟩ := drop_cases hs
    exact ⟨h.inv, h.fresh, h.bound, h.one, fun _ => nofun, fun _ _ => nofun⟩

/-- The failure that the worker with the lock counts is counted on the stored row. -/
theorem current_of_locked {e : Event P} (h : Owned svc s) (hl : Locked s (.call i e))
    (hrun : s.runs i = some e.call) : Current s.base e := by
  cases e with
  | finish w finishedAt =>
    have howns := h.owns i w hl hrun
    show Pc.current s.base (s.base.calls w)
    cases hpc : s.base.calls w with
    | finishing l run =>
      rw [hpc] at howns
      exact fun hf => ⟨(howns hf).failures, Nat.le_of_eq (howns hf).version.symm⟩
    | _ => trivial
  | _ => trivial

theorem owned_inductive : ((workers svc stored).restrict Locked).Inductive
    fun s => Owned svc s ∧ ((ingestion svc).restrict Current).Reachable s.base where
  init s h := by
    refine ⟨⟨inv_inductive.init _ h.base, fun w _ => h.base.calls w, fun i w hi => ?_, fun i j w hi => ?_,
      fun i hi => ?_, fun i w hi => ?_⟩, .init h.base⟩
    · rw [h.runs] at hi
      cases hi
    · rw [h.runs] at hi
      cases hi
    · rw [h.lock] at hi
      cases hi
    · rw [h.lock] at hi
      cases hi
  step s ev s' h hs := by
    obtain ⟨hl, hs⟩ := hs
    obtain ⟨h, hr⟩ := h
    refine ⟨owned_step h hl hs, ?_⟩
    cases ev with
    | enter i =>
      simp only [workers, LTS.ofFn, workerStep] at hs
      split at hs
      · cases hs
        rcases enter_cases (s := s) i with ⟨-, heq⟩ | ⟨-, heq⟩ <;> rwa [heq]
      · cases hs
    | call i e =>
      obtain ⟨hrun, base, hbase, rfl⟩ := call_cases hs
      exact hr.step ⟨current_of_locked h hl hrun, hbase⟩
    | leave i =>
      obtain ⟨w, -, -, rfl⟩ := leave_cases hs
      exact hr
    | drop i =>
      obtain ⟨-, rfl⟩ := drop_cases hs
      exact hr

/-- **Every step of every worker is safe** where calls finish and commit under the lock. -/
theorem workers_safe {e : Event P} (hr : ((workers svc stored).restrict Locked).Reachable s)
    (hs : ((workers svc stored).restrict Locked).step s (.call i e) s') : Safe svc s.base e s'.base := by
  obtain ⟨h, hbase⟩ := owned_inductive.reachable s hr
  obtain ⟨hrun, base, hstep, rfl⟩ := call_cases hs.2
  exact cursor_safe svc hbase ⟨current_of_locked h hs.1 hrun, hstep⟩

/-- A commit of the worker with the lock, as one worker alone would make it. -/
theorem serial_commit {start : Position} {base : State P} (h : Owned svc s) (hlock : s.lock = some i)
    (hrun : s.runs i = some w) (hs : step svc s.base (.commit w) = some base)
    (hserial : Serial svc.nextCursor start s.results (.of s.base.stored)) :
    Serial svc.nextCursor start (s.results ++ s.returned (.commit w)) (.of base.stored) := by
  simp only [step] at hs
  split at hs
  · next l run hpc =>
    cases hs
    have hreturned : s.returned (.commit w) = [(run, s.base.importsOf w)] := by simp [Workers.returned, hpc]
    obtain ⟨row, hun, hheld, hstored⟩ := commit_cases h.inv hpc
    have howns := h.owns i w hlock hrun
    have htraced := h.inv.traced w
    rw [hpc] at howns htraced
    rw [hreturned, hstored]
    by_cases hsuccess : run.status = .success
    · obtain ⟨hbefore, hafter, hfailures, hversion⟩ := hheld.1 hsuccess
      have hpages := htraced.2 hsuccess
      rw [hbefore] at hpages
      have hserial := hserial.success hsuccess hpages
      rwa [← hafter, ← hfailures, show (Position.of s.base.stored).version + 1 = row.version from hversion.symm]
        at hserial
    · obtain ⟨hfailures, hversion⟩ := howns hsuccess row hun
      have hserial := @Serial.failure _ _ _ _ _ run (s.base.importsOf w) hserial hsuccess
      rwa [show (Position.of s.base.stored).value = row.cursorValue from (hheld.2 hsuccess).symm,
        show (Position.of s.base.stored).failures + 1 = row.consecutiveFailures from hfailures.symm,
        show (Position.of s.base.stored).version + 1 = row.version from hversion.symm] at hserial
  · cases hs

theorem serial_call {start : Position} {e : Event P} {base : State P} (h : Owned svc s)
    (hl : Locked s (.call i e)) (hrun : s.runs i = some e.call) (hs : step svc s.base e = some base)
    (hserial : Serial svc.nextCursor start s.results (.of s.base.stored)) :
    Serial svc.nextCursor start (s.results ++ s.returned e) (.of base.stored) := by
  by_cases hc : ∃ w, e = .commit w
  · obtain ⟨w, rfl⟩ := hc
    exact serial_commit h hl hrun hs hserial
  · have hreturned : s.returned e = [] := by
      cases e <;> first | rfl | exact absurd ⟨_, rfl⟩ hc
    rcases stored_cases (steps_of_step hs) with ⟨w, _, _, he, -⟩ | ⟨-, hstored⟩
    · exact absurd ⟨w, he⟩ hc
    · rwa [hreturned, List.append_nil, hstored]

theorem serial_inductive : ((workers svc stored).restrict Locked).Inductive fun s =>
    (Owned svc s ∧ ((ingestion svc).restrict Current).Reachable s.base) ∧
      Serial svc.nextCursor (.of stored) s.results (.of s.base.stored) := by
  refine owned_inductive.and (fun s h => ?_) (fun s ev s' h hserial hs => ?_)
  · rw [h.results, h.stored]
    exact .nil
  · obtain ⟨hl, hs⟩ := hs
    cases ev with
    | enter i =>
      simp only [workers, LTS.ofFn, workerStep] at hs
      split at hs
      · cases hs
        rcases enter_cases (s := s) i with ⟨-, heq⟩ | ⟨-, heq⟩ <;> rwa [heq]
      · cases hs
    | call i e =>
      obtain ⟨hrun, base, hbase, rfl⟩ := call_cases hs
      exact serial_call h.1 hl hrun hbase hserial
    | leave i =>
      obtain ⟨w, -, -, rfl⟩ := leave_cases hs
      exact hserial
    | drop i =>
      obtain ⟨-, rfl⟩ := drop_cases hs
      exact hserial

/-- **The workers are one worker**: where calls finish and commit under the
lock, the row is the one of the committed runs, one after the other. -/
theorem workers_serial (hr : ((workers svc stored).restrict Locked).Reachable s) :
    Serial svc.nextCursor (.of stored) s.results (.of s.base.stored) :=
  (serial_inductive.reachable s hr).2

/-! ## While the connections last -/

/-- A call that is not over has its worker's lock. -/
structure Exclusive (s : Workers P) : Prop where
  assigned : ∀ w, (s.base.calls w).underWay = true → ∃ i, s.runs i = some w
  held : ∀ i w, s.runs i = some w → s.lock = some i ∨ (s.base.calls w).over = true

theorem underWay_over {pc : Pc P} (h : pc.underWay = true) : pc.over = false := by
  cases pc <;> simp_all [Pc.underWay]

/-- A call that is over takes no step. -/
theorem step_over {s : State P} {e : Event P} (h : (s.calls e.call).over = true) : step svc s e = none := by
  cases hpc : s.calls e.call <;> simp [hpc, Pc.over] at h <;> cases e <;> simp_all [step, Event.call]

theorem locked_of_step (h : Exclusive s) (hs : workerStep svc s ev = some s') : Locked s ev := by
  have hcall : ∀ i e, workerStep svc s (.call i e) = some s' → s.lock = some i := fun i e hs => by
    obtain ⟨hrun, base, hbase, -⟩ := call_cases hs
    refine (h.held i _ hrun).resolve_right fun hover => ?_
    rw [step_over hover] at hbase
    cases hbase
  cases ev with
  | call i e => cases e <;> first | trivial | exact hcall i _ hs
  | _ => trivial

theorem exclusive_step (h : Exclusive s) (ho : Owned svc s) (hk : Kept s ev) (hs : workerStep svc s ev = some s') :
    Exclusive s' := by
  cases ev with
  | enter i =>
    simp only [workerStep] at hs
    split at hs
    · next hnone =>
      cases hs
      rcases enter_cases (s := s) i with ⟨-, heq⟩ | ⟨hlock, heq⟩
      · rwa [heq]
      · rw [heq]
        refine ⟨fun w hw => ?_, fun j w hj => ?_⟩
        · obtain ⟨j, hj⟩ := h.assigned w hw
          have hne : j ≠ i := fun hji => by
            rw [hji, hnone] at hj
            cases hj
          exact ⟨j, (Function.update_of_ne hne ..).trans hj⟩
        · rcases LTS.of_update hj with ⟨rfl, -⟩ | ⟨-, hj⟩
          · exact .inl rfl
          · refine .inr ((h.held j w hj).resolve_left fun hheld => ?_)
            rw [hlock] at hheld
            cases hheld
    · cases hs
  | call i e =>
    obtain ⟨hrun, base, hbase, rfl⟩ := call_cases hs
    have hlock := (h.held i _ hrun).resolve_right fun hover => by
      rw [step_over hover] at hbase
      cases hbase
    refine ⟨fun w hw => ?_, fun j w hj => ?_⟩ <;> by_cases hne : w = e.call
    · exact ⟨i, hne ▸ hrun⟩
    · exact h.assigned w (by rwa [← calls_beside hbase hne])
    · obtain rfl : j = i := ho.one j i w hj (hne ▸ hrun)
      exact .inl hlock
    · exact (h.held j w hj).imp_right fun hover => by
        show (base.calls w).over = true
        rwa [calls_beside hbase hne]
  | leave i =>
    obtain ⟨w, hrun, hover, rfl⟩ := leave_cases hs
    refine ⟨fun w' hw' => ?_, fun j w' hj => ?_⟩
    · obtain ⟨j, hj⟩ := h.assigned w' hw'
      have hne : j ≠ i := fun hji => by
        obtain rfl : w = w' := Option.some.inj (hrun.symm.trans (hji ▸ hj))
        exact absurd hw' (by simp [hover])
      exact ⟨j, (Function.update_of_ne hne ..).trans hj⟩
    · rcases LTS.of_update hj with ⟨-, hnone⟩ | ⟨hne, hj⟩
      · cases hnone
      · refine (h.held j w' hj).imp_left fun hlock => ?_
        show (if s.lock = some i then none else s.lock) = some j
        rw [if_neg (by rw [hlock]; exact fun hji => hne (Option.some.inj hji)), hlock]
  | drop i =>
    obtain ⟨hlock, rfl⟩ := drop_cases hs
    refine ⟨h.assigned, fun j w hj => .inr ((h.held j w hj).elim (fun hheld => ?_) id)⟩
    obtain rfl : i = j := Option.some.inj (hlock.symm.trans hheld)
    exact hk w hj

theorem kept_inductive : ((workers svc stored).restrict Kept).Inductive
    fun s => (Owned svc s ∧ Exclusive s) ∧ ((workers svc stored).restrict Locked).Reachable s where
  init s h := by
    refine ⟨⟨(owned_inductive.init s h).1, fun w hw => ?_, fun i w hi => ?_⟩, .init h⟩
    · rw [h.base.calls] at hw
      cases hw
    · rw [h.runs] at hi
      cases hi
  step s ev s' h hs := by
    obtain ⟨hk, hs⟩ := hs
    obtain ⟨⟨ho, he⟩, hr⟩ := h
    have hl := locked_of_step he hs
    exact ⟨⟨owned_step ho hl hs, exclusive_step he ho hk hs⟩, hr.step ⟨hl, hs⟩⟩

theorem run_locked (hr : ((workers svc stored).restrict Kept).Reachable s) :
    ((workers svc stored).restrict Locked).Reachable s :=
  (kept_inductive.reachable s hr).2

theorem holder_of_underWay (h : Exclusive s) (hw : (s.base.calls w).underWay = true) :
    ∃ i, s.lock = some i ∧ s.runs i = some w := by
  obtain ⟨i, hi⟩ := h.assigned w hw
  refine ⟨i, (h.held i w hi).resolve_right ?_, hi⟩
  simp [underWay_over hw]

theorem only_underWay (h : Exclusive s) (hw : (s.base.calls w).underWay = true)
    (hw' : (s.base.calls w').underWay = true) : w' = w := by
  obtain ⟨i, hlock, hi⟩ := holder_of_underWay h hw
  obtain ⟨j, hlock', hj⟩ := holder_of_underWay h hw'
  obtain rfl : i = j := Option.some.inj (hlock.symm.trans hlock')
  exact Option.some.inj (hj.symm.trans hi)

/-- No other call has written the row. -/
theorem free_of_exclusive (h : Exclusive s) (hinv : Inv svc s.base) (hw : (s.base.calls w).underWay = true) :
    s.base.free w = true := by
  unfold State.free
  cases hun : s.base.uncommitted with
  | none => rfl
  | some held =>
    obtain ⟨w', row⟩ := held
    have hheld := hinv.held w' row hun
    have hw' : (s.base.calls w').underWay = true := by
      cases hpc : s.base.calls w' <;> simp_all [Held, Pc.underWay, Pc.over]
    simpa using only_underWay h hw hw'

/-- The only call that is under way: no statement of it waits, and the cursor is
not lost to it. -/
structure Alone (svc : IngestionService P) (s : Workers P) (w : Nat) : Prop where
  holder : ∃ i, s.lock = some i ∧ s.runs i = some w
  only : ∀ w', (s.base.calls w').underWay = true → w' = w
  inserts : ∀ startedAt serverNow, s.base.calls w = .absent startedAt →
    (step svc s.base (.insert w serverNow)).isSome = true
  advances : ∀ l succeededAt, s.base.calls w = .advancing l → ∃ base copy,
    step svc s.base (.advance w succeededAt) = some base ∧
      base.calls w = ({ l with cursor := copy } : Locals).succeed
  finishes : ∀ l run finishedAt, s.base.calls w = .finishing l run →
    (step svc s.base (.finish w finishedAt)).isSome = true

/-- **One acquisition at a time**, while a connection lasts as long as its call. -/
theorem workers_alone (hr : ((workers svc stored).restrict Kept).Reachable s)
    (hw : (s.base.calls w).underWay = true) : Alone svc s w := by
  obtain ⟨⟨ho, he⟩, -⟩ := kept_inductive.reachable s hr
  obtain ⟨i, hlock, hi⟩ := holder_of_underWay he hw
  have hfree := free_of_exclusive he ho.inv hw
  have howns := ho.owns i w hlock hi
  refine ⟨⟨i, hlock, hi⟩, fun w' hw' => only_underWay he hw hw', fun startedAt serverNow hpc => ?_,
    fun l succeededAt hpc => ?_, fun l run finishedAt hpc => ?_⟩
  · have hnone : s.base.uncommitted = none := by
      cases hun : s.base.uncommitted with
      | none => rfl
      | some held =>
        obtain ⟨w', row⟩ := held
        obtain rfl : w' = w := by simpa [State.free, hun] using hfree
        have hheld := ho.inv.held w' row hun
        rw [hpc] at hheld
        exact hheld.elim
    simp only [step, hpc, insert, hnone]
    split <;> simp_all
  · rw [hpc] at howns
    simp only [step, hpc]
    rw [advance_owned howns.1 howns.2, if_pos hfree]
    exact ⟨_, _, rfl, goto_self⟩
  · simp only [step, hpc, finish, hfree, if_true]
    split
    · rfl
    · split <;> rfl

end

/-! ## Runs -/

def resting : Workers (Option String) := ⟨begun, none, fun _ => none, 0, []⟩

theorem resting_ready : Ready (some (.first ⟨0, 0⟩ ⟨0, 0⟩)) resting :=
  ⟨begun_initial, rfl, rfl, fun _ => rfl, rfl⟩

/-- The first run fails while another worker is turned away; the second imports two pages. -/
def twoRuns : List (WorkerEvent (Option String)) :=
  [.enter 0, .call 0 (.read 0 ⟨0, 0⟩), .enter 1, .call 0 (.fetchRaises 0 (.client false)), .call 0 (.finish 0 ⟨1, 0⟩),
    .call 0 (.commit 0), .leave 0, .enter 1, .call 1 (.read 1 ⟨2, 0⟩), .call 1 (.page 1 (some "p2")),
    .call 1 (.imported 1), .call 1 (.page 1 none), .call 1 (.imported 1)]

def twoRunsIn : Workers (Option String) :=
  (LTS.exec (fun s e => if Kept s e then workerStep twoPages s e else none) resting twoRuns).get (by rfl)

theorem twoRuns_kept :
    ((workers twoPages (some (.first ⟨0, 0⟩ ⟨0, 0⟩))).restrict Kept).Reachable twoRunsIn :=
  LTS.reachable_of_execGuarded twoRuns resting_ready (by rfl)

theorem workers_alone_twoRuns : Alone twoPages twoRunsIn 1 := workers_alone twoRuns_kept (by rfl)

/-- The second run advances the cursor, and is about to commit. -/
def twoFinished : List (WorkerEvent (Option String)) :=
  twoRuns ++ [.call 1 (.advance 1 ⟨3, 0⟩), .call 1 (.finish 1 ⟨3, 0⟩)]

def twoFinishedIn : Workers (Option String) :=
  (LTS.exec (fun s e => if Kept s e then workerStep twoPages s e else none) resting twoFinished).get (by rfl)

theorem twoFinished_locked :
    ((workers twoPages (some (.first ⟨0, 0⟩ ⟨0, 0⟩))).restrict Locked).Reachable twoFinishedIn :=
  run_locked (LTS.reachable_of_execGuarded twoFinished resting_ready (by rfl))

def twoCommittedIn : Workers (Option String) := (workerStep twoPages twoFinishedIn (.call 1 (.commit 1))).get (by rfl)

theorem second_commits :
    ((workers twoPages (some (.first ⟨0, 0⟩ ⟨0, 0⟩))).restrict Locked).step twoFinishedIn (.call 1 (.commit 1))
      twoCommittedIn :=
  ⟨by decide, (Option.some_get _).symm⟩

/-- A failure and a success: the value moves to the second page's cursor. -/
theorem workers_serial_twoRuns :
    twoCommittedIn.results.map (·.1.status) = [.failed, .success] ∧
    Position.of twoCommittedIn.base.stored = ⟨"p2", 0, 2⟩ ∧
    Serial twoPages.nextCursor (.of (some (.first ⟨0, 0⟩ ⟨0, 0⟩))) twoCommittedIn.results
      (.of twoCommittedIn.base.stored) :=
  ⟨by decide, by decide, workers_serial (twoFinished_locked.step second_commits)⟩

theorem workers_safe_twoRuns : Safe twoPages twoFinishedIn.base (.commit 1) twoCommittedIn.base :=
  workers_safe twoFinished_locked second_commits

/-- The connection of the first worker ends while its call goes on. -/
def dropped : List (WorkerEvent (Option String)) :=
  [.enter 0, .call 0 (.read 0 ⟨0, 0⟩), .drop 0, .enter 1, .call 1 (.read 1 ⟨0, 0⟩),
    .call 0 (.fetchRaises 0 (.client false)), .call 1 (.fetchRaises 1 (.client false)), .call 0 (.finish 0 ⟨1, 0⟩),
    .call 0 (.commit 0), .call 1 (.finish 1 ⟨2, 0⟩), .call 1 (.commit 1)]

def droppedIn : Workers (Option String) := (LTS.exec (workerStep twoPages) resting dropped).get (by rfl)

/-- Two failures that count as one. -/
theorem lock_lost : (workers twoPages (some (.first ⟨0, 0⟩ ⟨0, 0⟩))).Reachable droppedIn ∧
    droppedIn.results.length = 2 ∧ droppedIn.base.failures = 1 ∧ droppedIn.base.version = 1 :=
  ⟨LTS.reachable_of_exec dropped resting_ready (by rfl), by decide, by decide, by decide⟩

end BidScope.L13
