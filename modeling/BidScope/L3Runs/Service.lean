import Mathlib.Logic.Function.Basic
import BidScope.L3Runs.Recovery

/-!
# Workers contending on one run

`RunService` of `api/dependencies.py`: any number of workers, in any number of
processes, on one `query_runs` row, one run lock, one checkpoint and one event
log. A step is one committed statement or one step of an `execute` call
(`Executor`); the workers interleave freely.

A worker claims the row (`start`, `confirm`, `retry`), takes the run lock,
heartbeats once, executes, writes the final status back and leaves. It can
leave at any point by an exception (`raise`), and it disappears at any point
(`crash`); its claim can be repaired at any time while its process lives
(`repair`: the error branches, the cancellation repairs and the heartbeat's
repair task are the same compare-and-set). `mark_stale_runs_retryable` runs
beside the workers; when a row counts as stale is left open.

**Checkpoint writes.** The graph stores its checkpoints in the background:
each write passes the saver's ownership guard (`guard`) and lands later
(`exec .write`). LangGraph waits for its background tasks when the stream is
exhausted, when a node raises and when the stream is closed. An exception out
of the body of `execute`'s loop does none of these, so a worker that raises
keeps its writes (`Pc.left` with an `exec`).

**Ghosts.** `approved`: a confirm request with action approve was accepted.
`started`: the token of the last worker that took the run lock.
-/
namespace BidScope.L3

open BidScope.L1 BidScope.L2

inductive RowStatus where
  | running
  | of (status : RunStatus)
  deriving DecidableEq, Repr

/-- The columns of a `query_runs` row that the workers contend on.
mirrors persistence/models.py:170-182 -/
structure Row where
  status : RowStatus := .of .pending
  executionToken : Option Nat := none
  deriving DecidableEq, Repr

inductive Holder where
  | worker (w : Nat)
  | recovery (r : Nat)
  deriving DecidableEq, Repr

/-- Where a worker stands in `_execute_run`. -/
inductive Pc where
  | claimed | locked | active | executing | left
  deriving DecidableEq, Repr

/-- `mode` is the input of the call, `none` until a retry has looked up the
checkpoint; `armed` says that the next checkpoint mutation has passed the
guard; `lost` is a set `heartbeat_failure`. -/
structure Worker where
  token : Nat
  mode : Option Mode
  retry : Bool := mode.isNone
  pc : Pc := .claimed
  exec : Option Exec := none
  armed : Bool := false
  lost : Bool := false

structure SState where
  row : Row := {}
  nextToken : Nat := 0
  store : Store := {}
  lock : Option Holder := none
  workers : Nat → Option Worker := fun _ => none
  approved : Bool := false
  started : Option Nat := none

/-- The compare-and-set condition of every statement of a claimed worker. -/
def SState.owns (s : SState) (x : Worker) : Bool :=
  s.row.status = .running && s.row.executionToken = some x.token

/-- `ensure_active`.
mirrors api/dependencies.py:632-662 -/
def SState.ensureActive (s : SState) (x : Worker) : Bool := s.owns x && !x.lost

def SState.put (s : SState) (w : Nat) (x : Worker) : SState :=
  { s with workers := Function.update s.workers w (some x) }

/-- A run row of `status` without owner. -/
def unowned (status : RunStatus) : Row := { status := .of status, executionToken := none }

/-- Every claim is one `UPDATE … RETURNING` with a fresh token.
mirrors api/dependencies.py:815-833 -/
def SState.claim (s : SState) (w : Nat) (eligible : RunStatus) (mode : Option Mode) :
    Option SState :=
  if s.row.status = .of eligible ∧ (s.workers w).isNone then
    some ({ s with row := { status := .running, executionToken := some s.nextToken }
                   nextToken := s.nextToken + 1 }.put w { token := s.nextToken, mode })
  else none

/-- `_update_status` with the worker's token.
mirrors api/dependencies.py:1108-1180 -/
def SState.updateStatus (s : SState) (x : Worker) (status : RunStatus) : Option SState :=
  if s.owns x then some { s with row := unowned status } else none

/-! ## The steps of a worker -/

inductive WEv where
  | lookup
  | lock
  | activate
  | load
  | exec (x : XEv)
  | guard
  | heartbeat (ok : Bool)
  | raise
  | settle
  | repair
  | release
  | crash

/-- A checkpoint mutation waits to be written. -/
def Exec.mutates : Exec → Bool
  | .resetting _ _ => true
  | .streaming st => !st.puts.isEmpty
  | _ => false

/-- The steps of `execute` behind an ownership check. An append has it in its
own transaction. -/
def Exec.checked : Exec → XEv → Bool
  | _, .nextSeq | _, .reconcile => true
  | .streaming st, .emit => st.persisted < st.cfg.values.nodeEvents.length
  | _, _ => false

def XEv.isWrite : XEv → Bool
  | .write => true
  | _ => false

def XEv.isReconcile : XEv → Bool
  | .reconcile => true
  | _ => false

/-- A write needs the guard passed; the other steps are the worker's own. -/
def Worker.may (x : Worker) (ev : XEv) : Bool :=
  if ev.isWrite then x.armed else x.pc = .executing

variable (lib : Lib) (runId userRequest : String)

/-- mirrors api/dependencies.py:527-793 -/
def wstep (s : SState) (w : Nat) (x : Worker) : WEv → Option SState
  | .lookup =>
    if x.pc = .claimed ∧ x.mode = none then
      some (s.put w { x with mode := some (retryMode userRequest s.store) })
    else none
  | .lock =>
    if x.pc = .claimed ∧ x.mode.isSome then
      if s.lock = none then
        some ({ s with lock := some (.worker w), started := some x.token }.put w
          { x with pc := .locked })
      else some (s.put w { x with pc := .left })
    else none
  | .activate =>
    if x.pc = .locked ∧ s.ensureActive x then some (s.put w { x with pc := .active }) else none
  | .load =>
    match x.mode with
    | none => none
    | some mode =>
      if x.pc = .active ∧ s.owns x then
        some (s.put w { x with pc := .executing, exec := some (load s.store mode) })
      else none
  | .exec ev =>
    match x.mode, x.exec with
    | some mode, some e =>
      if x.may ev ∧ (e.checked ev → s.ensureActive x) then
        (e.step lib runId mode s.store ev).map fun (store, e') =>
          { s with store }.put w { x with exec := some e', armed := x.armed && !ev.isWrite }
      else none
    | _, _ => none
  | .guard =>
    match x.exec with
    | none => none
    | some e =>
      if e.mutates ∧ s.ensureActive x then some (s.put w { x with armed := true }) else none
  | .heartbeat ok =>
    if x.pc = .active ∨ x.pc = .executing then
      some (s.put w { x with lost := x.lost || !(ok && s.owns x) })
    else none
  | .raise => if x.pc ≠ .left then some (s.put w { x with pc := .left }) else none
  | .settle =>
    match x.exec with
    -- a final state whose status no node has written has none
    | some (.returned v) =>
      if x.pc = .executing ∧ v.status ≠ .pending ∧ s.ensureActive x then
        (s.updateStatus x v.status).map (·.put w { x with pc := .left })
      else none
    | _ => none
  | .repair => s.updateStatus x .retryable
  | .release =>
    if x.pc = .left ∧ s.lock = some (.worker w) then some { s with lock := none } else none
  | .crash =>
    some { s with workers := Function.update s.workers w none
                  lock := if s.lock = some (.worker w) then none else s.lock }

/-! ## The system -/

inductive SEv where
  | start (w : Nat)
  | confirm (w : Nat) (action : String)
  | retry (w : Nat)
  | work (w : Nat) (ev : WEv)
  | capacityExhausted
  | stalePending
  | staleLock (r : Nat)
  | staleUpdate (r : Nat)
  | staleRelease (r : Nat)

/-- `capacityExhausted` is the failed `schedule_run` of `create_run`, and the
`stale` steps are `mark_stale_runs_retryable`.
mirrors api/dependencies.py:839-883, api/routes/runs.py:88-103, graph/executor.py:724-778 -/
def sstep (s : SState) : SEv → Option SState
  | .start w => s.claim w .pending (some (.start userRequest))
  -- the route never reads the action
  | .confirm w action =>
    (s.claim w .awaitingConfirmation (some .resume)).map fun s' =>
      { s' with approved := s.approved || action = "approve" }
  | .retry w => s.claim w .retryable none
  | .work w ev => (s.workers w).bind fun x => wstep lib runId userRequest s w x ev
  | .capacityExhausted | .stalePending =>
    if s.row.status = .of .pending then some { s with row := unowned .retryable } else none
  | .staleLock r => if s.lock = none then some { s with lock := some (.recovery r) } else none
  | .staleUpdate r =>
    if s.lock = some (.recovery r) ∧ s.row.status = .running then
      some { s with row := unowned .retryable }
    else none
  | .staleRelease r =>
    if s.lock = some (.recovery r) then some { s with lock := none } else none

/-- The service on the row of a run just created. -/
def service : LTS SState SEv := LTS.ofFn (· = {}) (sstep lib runId userRequest)

/-! ## What one step can do -/

inductive WStep (s : SState) (w : Nat) (x : Worker) : WEv → SState → Prop where
  | lookup (hp : x.pc = .claimed) (hm : x.mode = none) :
      WStep s w x .lookup (s.put w { x with mode := some (retryMode userRequest s.store) })
  | locked (hp : x.pc = .claimed) (hl : s.lock = none) :
      WStep s w x .lock ({ s with lock := some (.worker w), started := some x.token }.put w
        { x with pc := .locked })
  | refused (hp : x.pc = .claimed) : WStep s w x .lock (s.put w { x with pc := .left })
  | activate (hp : x.pc = .locked) (ho : s.ensureActive x = true) :
      WStep s w x .activate (s.put w { x with pc := .active })
  | load {mode : Mode} (hm : x.mode = some mode) (hp : x.pc = .active) (ho : s.owns x = true) :
      WStep s w x .load
        (s.put w { x with pc := .executing, exec := some (L3.load s.store mode) })
  | exec {mode : Mode} {e e' : Exec} {store : Store} {ev : XEv} (hm : x.mode = some mode)
      (he : x.exec = some e) (hmay : x.may ev = true)
      (hchk : e.checked ev = true → s.ensureActive x = true)
      (hs : e.step lib runId mode s.store ev = some (store, e')) :
      WStep s w x (.exec ev)
        ({ s with store }.put w { x with exec := some e', armed := x.armed && !ev.isWrite })
  | guard {e : Exec} (he : x.exec = some e) (ho : s.ensureActive x = true) :
      WStep s w x .guard (s.put w { x with armed := true })
  | heartbeat (ok : Bool) (hp : x.pc = .active ∨ x.pc = .executing) :
      WStep s w x (.heartbeat ok) (s.put w { x with lost := x.lost || !(ok && s.owns x) })
  | raise : WStep s w x .raise (s.put w { x with pc := .left })
  | settle {v : RunState} (he : x.exec = some (.returned v)) (ho : s.ensureActive x = true) :
      WStep s w x .settle ({ s with row := unowned v.status }.put w { x with pc := .left })
  | repair (ho : s.owns x = true) : WStep s w x .repair { s with row := unowned .retryable }
  | release (hp : x.pc = .left) (hl : s.lock = some (.worker w)) :
      WStep s w x .release { s with lock := none }
  | crash :
      WStep s w x .crash
        { s with workers := Function.update s.workers w none
                 lock := if s.lock = some (.worker w) then none else s.lock }

inductive SStep (s : SState) : SEv → SState → Prop where
  | claim {ev : SEv} {w : Nat} {eligible : RunStatus} {mode : Option Mode} {approved : Bool}
      (hw : s.workers w = none) (hrow : s.row.status = .of eligible)
      (hconfirm : ∀ action, ev = .confirm w action →
        approved = (s.approved || action = "approve"))
      (hkeep : approved = s.approved ∨ ∃ action, ev = .confirm w action)
      (hmode : mode = some .resume → ∃ action, ev = .confirm w action) :
      SStep s ev ({ s with row := { status := .running, executionToken := some s.nextToken }
                           nextToken := s.nextToken + 1
                           approved }.put w { token := s.nextToken, mode })
  | work {w : Nat} {ev : WEv} {x : Worker} {s' : SState} (hx : s.workers w = some x)
      (h : WStep lib runId userRequest s w x ev s') : SStep s (.work w ev) s'
  | disown {ev : SEv} (hev : ∀ w wev, ev ≠ .work w wev) : SStep s ev { s with row := unowned .retryable }
  | staleLock (r : Nat) (hl : s.lock = none) :
      SStep s (.staleLock r) { s with lock := some (.recovery r) }
  | staleRelease (r : Nat) (hl : s.lock = some (.recovery r)) :
      SStep s (.staleRelease r) { s with lock := none }

variable {lib runId userRequest} {s s' : SState} {w : Nat} {x : Worker}

theorem updateStatus_eq {status : RunStatus} (h : s.updateStatus x status = some s') :
    s.owns x = true ∧ s' = { s with row := unowned status } := by
  unfold SState.updateStatus at h
  split at h
  · rename_i ho
    cases h
    exact ⟨ho, rfl⟩
  · cases h

theorem wstep_cases {ev : WEv} (h : wstep lib runId userRequest s w x ev = some s') :
    WStep lib runId userRequest s w x ev s' := by
  cases ev with
  | lookup =>
    simp only [wstep] at h
    split at h
    · rename_i hc
      cases h
      exact .lookup hc.1 hc.2
    · cases h
  | lock =>
    simp only [wstep] at h
    split at h
    · rename_i hc
      split at h
      · rename_i hl
        cases h
        exact .locked hc.1 hl
      · cases h
        exact .refused hc.1
    · cases h
  | activate =>
    simp only [wstep] at h
    split at h
    · rename_i hc
      cases h
      exact .activate hc.1 hc.2
    · cases h
  | load =>
    simp only [wstep] at h
    split at h
    · cases h
    · rename_i mode hm
      split at h
      · rename_i hc
        cases h
        exact .load hm hc.1 hc.2
      · cases h
  | exec ev =>
    simp only [wstep] at h
    split at h
    · rename_i mode e hm he
      split at h
      · rename_i hc
        obtain ⟨⟨store, e'⟩, hs, hs'⟩ := Option.map_eq_some_iff.mp h
        cases hs'
        exact .exec hm he hc.1 hc.2 hs
      · cases h
    · cases h
  | guard =>
    simp only [wstep] at h
    split at h
    · cases h
    · rename_i e he
      split at h
      · rename_i hc
        cases h
        exact .guard he hc.2
      · cases h
  | heartbeat ok =>
    simp only [wstep] at h
    split at h
    · rename_i hc
      cases h
      exact .heartbeat ok hc
    · cases h
  | raise =>
    simp only [wstep] at h
    split at h
    · cases h
      exact .raise
    · cases h
  | settle =>
    simp only [wstep] at h
    split at h
    · rename_i v he
      split at h
      · rename_i hc
        obtain ⟨s₁, hs₁, rfl⟩ := Option.map_eq_some_iff.mp h
        obtain ⟨-, rfl⟩ := updateStatus_eq hs₁
        exact .settle he hc.2.2
      · cases h
    · cases h
  | repair =>
    obtain ⟨ho, rfl⟩ := updateStatus_eq h
    exact .repair ho
  | release =>
    simp only [wstep] at h
    split at h
    · rename_i hc
      cases h
      exact .release hc.1 hc.2
    · cases h
  | crash =>
    cases h
    exact .crash

theorem claim_cases {eligible : RunStatus} {mode : Option Mode}
    (h : s.claim w eligible mode = some s') :
    s.workers w = none ∧ s.row.status = .of eligible ∧
      s' = { s with row := { status := .running, executionToken := some s.nextToken }
                    nextToken := s.nextToken + 1 }.put w { token := s.nextToken, mode } := by
  unfold SState.claim at h
  split at h
  · rename_i hc
    cases h
    exact ⟨by simpa using hc.2, hc.1, rfl⟩
  · cases h

theorem work_cases {ev : WEv} (h : sstep lib runId userRequest s (.work w ev) = some s') :
    ∃ x, s.workers w = some x ∧ WStep lib runId userRequest s w x ev s' := by
  obtain ⟨x, hx, hs⟩ := Option.bind_eq_some_iff.mp h
  exact ⟨x, hx, wstep_cases hs⟩

theorem sstep_cases {ev : SEv} (h : sstep lib runId userRequest s ev = some s') :
    SStep lib runId userRequest s ev s' := by
  cases ev with
  | start w =>
    obtain ⟨hw, hrow, rfl⟩ := claim_cases h
    exact .claim hw hrow (fun _ he => by cases he) (Or.inl rfl) (fun he => by cases he)
  | retry w =>
    obtain ⟨hw, hrow, rfl⟩ := claim_cases h
    exact .claim hw hrow (fun _ he => by cases he) (Or.inl rfl) (fun he => by cases he)
  | confirm w action =>
    obtain ⟨s₁, hs₁, rfl⟩ := Option.map_eq_some_iff.mp h
    obtain ⟨hw, hrow, rfl⟩ := claim_cases hs₁
    exact .claim hw hrow (fun a he => by cases he; rfl) (Or.inr ⟨action, rfl⟩)
      (fun _ => ⟨action, rfl⟩)
  | work w ev =>
    obtain ⟨x, hx, hs⟩ := work_cases h
    exact .work hx hs
  | capacityExhausted | stalePending =>
    simp only [sstep] at h
    split at h
    · cases h
      exact .disown (fun _ _ he => by cases he)
    · cases h
  | staleLock r =>
    simp only [sstep] at h
    split at h
    · rename_i hl
      cases h
      exact .staleLock r hl
    · cases h
  | staleUpdate r =>
    simp only [sstep] at h
    split at h
    · cases h
      exact .disown (fun _ _ he => by cases he)
    · cases h
  | staleRelease r =>
    simp only [sstep] at h
    split at h
    · rename_i hl
      cases h
      exact .staleRelease r hl
    · cases h

end BidScope.L3
