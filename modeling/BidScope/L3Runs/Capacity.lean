import Mathlib.Data.List.Count
import BidScope.Core.LTS

/-!
# Run slots

`_active_run_reservations` of the `RunService` in api/dependencies.py over every
sequence of calls of `schedule_run`, `confirm` and `retry`, of claims and
executions ending, and of cancellations. An execution is admitted with a slot
reserved; whoever holds the slot releases it:

* `schedule_run`: the `finally` of `_execute_reserved`, which a task runs that
  may be cancelled before its first step. asyncio then throws the
  `CancelledError` into a coroutine that has not entered its `try`.
* `confirm`: its own `finally` until `handed_off`, then that of
  `_execute_reserved`, which it enters without giving up control.
* `retry`: itself behind a result, else its `finally`.

**Accounting (`capacity_iff`).** At the end of a run the counter is the number
of executions in flight and within its bound exactly when no step of the run was
the first of a cancelled task. `slot_lost` is the shortest run that loses one.

Between two awaits the event loop runs nothing else, so a step of the model goes
from one await to the next; those that move no execution on are left out.
-/
namespace BidScope.L3

inductive EntryPoint | schedule | confirm | retry
deriving DecidableEq

/-- `created`: a task that has not taken its first step. `claiming`: awaiting
`_claim_run_safely`. `running`: inside `execute_run` or `_retry_after_claim_safely`. -/
inductive Stage | created | claiming | running | ended
deriving DecidableEq

structure Execution where
  entry : EntryPoint
  stage : Stage
  cancelRequested : Bool := false
  deriving DecidableEq

/-- The fields of the service the accounting is about, and the executions
admitted so far. -/
structure Slots where
  maxConcurrentRuns : Option Nat
  active : Nat := 0
  shuttingDown : Bool := false
  executions : List Execution := []
  deriving DecidableEq

namespace Slots

variable (s : Slots)

/-- `getattr(settings, "max_concurrent_runs", 1_000_000)` -/
def limit : Nat := s.maxConcurrentRuns.getD 1000000

/-- mirrors api/dependencies.py:275-283 -/
def tryReserve : Option Slots := if s.active ≥ s.limit then none else some { s with active := s.active + 1 }

/-- mirrors api/dependencies.py:285-288 -/
def release : Slots := if s.active > 0 then { s with active := s.active - 1 } else s

def push (e : Execution) : Slots := { s with executions := s.executions ++ [e] }

def put (i : Nat) (e : Execution) : Slots := { s with executions := s.executions.set i e }

/-- Executions admitted and not yet ended. -/
def inFlight : Nat := s.executions.countP fun e => e.stage ≠ .ended

end Slots

inductive Outcome | returned | raised | cancelled
deriving DecidableEq

/-- `createTaskRaises`: what `asyncio.create_task` does in `schedule_run`. -/
inductive SlotEvent where
  | scheduleRun (createTaskRaises : Bool)
  | confirm
  | retry
  | firstStep (i : Nat)
  | claim (i : Nat) (granted : Bool)
  | finish (i : Nat) (outcome : Outcome)
  | cancel (i : Nat)
  | shutdown
  deriving DecidableEq

/-- mirrors api/dependencies.py:343-356 -/
def scheduleRun (s : Slots) (createTaskRaises : Bool) : Slots :=
  if s.shuttingDown then s
  else
    match s.tryReserve with
    | none => s
    | some s => if createTaskRaises then s.release else s.push ⟨.schedule, .created, false⟩

/-- `confirm` and `retry` up to the claim.
mirrors api/dependencies.py:839-852, 862-873 -/
def reserveAndClaim (s : Slots) (entry : EntryPoint) : Slots :=
  match s.tryReserve with
  | none => s
  | some s => s.push ⟨entry, .claiming, false⟩

/-- mirrors api/dependencies.py:858-860 -/
def confirmFinally (s : Slots) (handedOff : Bool) : Slots := if handedOff then s else s.release

/-- mirrors api/dependencies.py:881-883 -/
def retryFinally (s : Slots) (released : Bool) : Slots := if released then s else s.release

/-- What the claim of execution `i` leads to; `failed` is what the `finally`
leaves when it raised, by itself or because the caller was cancelled. -/
def claimed (s failed : Slots) (i : Nat) (entry : EntryPoint) (cancelled granted : Bool) : Slots :=
  if granted then s.put i ⟨entry, .running, cancelled⟩ else failed.put i ⟨entry, .ended, cancelled⟩

/-- The execution came to its end.
mirrors api/dependencies.py:290-298, 853-860, 876-883 -/
def finished (s : Slots) (outcome : Outcome) : EntryPoint → Slots
  | .schedule => s.release
  | .confirm => confirmFinally s.release true
  | .retry => if outcome = .returned then retryFinally s.release true else retryFinally s false

/-- `task.cancel()`: the request is delivered at the task's next step. -/
def requestCancel (e : Execution) : Execution :=
  if e.stage = .ended then e else { e with cancelRequested := true }

/-- One step; `none` where the execution is not at the point the event is about. -/
def slotStep (s : Slots) : SlotEvent → Option Slots
  | .scheduleRun createTaskRaises => some (scheduleRun s createTaskRaises)
  | .confirm => some (reserveAndClaim s .confirm)
  | .retry => some (reserveAndClaim s .retry)
  | .firstStep i =>
    match s.executions[i]? with
    | some ⟨.schedule, .created, cancelled⟩ =>
      -- thrown in before the `try`, the cancellation passes no `finally`
      some (s.put i ⟨.schedule, if cancelled then .ended else .running, cancelled⟩)
    | _ => none
  | .claim i granted =>
    match s.executions[i]? with
    | some ⟨.confirm, .claiming, cancelled⟩ => some (claimed s (confirmFinally s false) i .confirm cancelled granted)
    | some ⟨.retry, .claiming, cancelled⟩ => some (claimed s (retryFinally s false) i .retry cancelled granted)
    | _ => none
  | .finish i outcome =>
    match s.executions[i]? with
    | some ⟨entry, .running, cancelled⟩ => some ((finished s outcome entry).put i ⟨entry, .ended, cancelled⟩)
    | _ => none
  | .cancel i => (s.executions[i]?).map fun e => s.put i (requestCancel e)
  | .shutdown => some { s with
      shuttingDown := true
      executions := s.executions.map fun e => if e.entry = .schedule then requestCancel e else e }

/-- The service starts with no slot taken. -/
def Fresh (s : Slots) : Prop := s.active = 0 ∧ s.executions = []

/-- The service under every interleaving of its callers. -/
def slots : LTS Slots SlotEvent := .ofFn Fresh slotStep

/-- The counter counts the executions in flight, within its bound; with none in
flight no slot is taken. -/
structure Accounted (s : Slots) : Prop where
  counted : s.active = s.inFlight
  bounded : s.active ≤ s.limit
  idle : s.inFlight = 0 → s.active = 0

/-- The event is not the first step of a task that is already cancelled. -/
def Entered (s : Slots) (e : SlotEvent) : Prop :=
  match e with
  | .firstStep i => ∀ x, s.executions[i]? = some x → x.cancelRequested = false
  | _ => True

/-! ## What one step does -/

variable {s s' : Slots} {e : SlotEvent} {i : Nat} {x y : Execution}

/-- What an execution counts for. -/
def Execution.weight (x : Execution) : Nat := if x.stage ≠ .ended then 1 else 0

theorem tryReserve_some (h : s.tryReserve = some s') : s' = { s with active := s.active + 1 } ∧ s.active < s.limit := by
  unfold Slots.tryReserve at h
  split at h
  · cases h
  · next hlt => exact ⟨(Option.some.inj h).symm, Nat.lt_of_not_le hlt⟩

theorem active_release (h : 0 < s.active) : s.release.active + 1 = s.active := by
  rw [Slots.release, if_pos h]
  exact Nat.sub_add_cancel h

@[simp] theorem executions_release : s.release.executions = s.executions := by
  unfold Slots.release
  split <;> rfl

@[simp] theorem limit_release : s.release.limit = s.limit := by
  unfold Slots.release
  split <;> rfl

theorem inFlight_push : (s.push x).inFlight = s.inFlight + x.weight := by
  simp only [Slots.inFlight, Slots.push, List.countP_append, List.countP_singleton, Execution.weight,
    decide_eq_true_eq]

theorem inFlight_put (h : s.executions[i]? = some x) : (s.put i y).inFlight + x.weight = s.inFlight + y.weight := by
  obtain ⟨hi, rfl⟩ := List.getElem?_eq_some_iff.mp h
  have hle := List.boole_getElem_le_countP (p := fun e : Execution => decide (e.stage ≠ .ended)) hi
  simp only [Slots.inFlight, Slots.put, List.countP_set hi, Execution.weight, decide_eq_true_eq] at hle ⊢
  omega

theorem inFlight_congr (h : s'.executions = s.executions) : s'.inFlight = s.inFlight := by
  rw [Slots.inFlight, h, Slots.inFlight]

theorem weight_le (h : s.executions[i]? = some x) : x.weight ≤ s.inFlight := by
  have hput := inFlight_put (y := ⟨x.entry, .ended, false⟩) h
  have hended : (⟨x.entry, .ended, false⟩ : Execution).weight = 0 := rfl
  omega

theorem requestCancel_stage (x : Execution) : (requestCancel x).stage = x.stage := by
  unfold requestCancel
  split <;> rfl

theorem weight_requestCancel (x : Execution) : (requestCancel x).weight = x.weight := by
  rw [Execution.weight, requestCancel_stage, Execution.weight]

/-- However it ends, an execution gives its slot back once. -/
theorem finished_eq (s : Slots) (outcome : Outcome) (entry : EntryPoint) :
    finished s outcome entry = s.release := by
  cases entry with
  | schedule => rfl
  | confirm => rfl
  | retry => cases outcome <;> rfl

/-- The slots the event loses: one, if it is the first step of a cancelled task. -/
def lost (s : Slots) : SlotEvent → Nat
  | .firstStep i => if s.executions[i]?.any (·.cancelRequested) then 1 else 0
  | _ => 0

/-- Every execution in flight has its slot, and the bound is kept. -/
structure Slotted (s : Slots) : Prop where
  covered : s.inFlight ≤ s.active
  bounded : s.active ≤ s.limit

/-- What a step changes the counter by, beside the executions in flight. -/
structure Balance (s s' : Slots) (k : Nat) : Prop where
  balance : s'.active + s.inFlight = s.active + s'.inFlight + k
  limit : s'.limit = s.limit
  bounded : s'.active ≤ s.limit

theorem balance_refl (hs : Slotted s) : Balance s s 0 := ⟨rfl, rfl, hs.bounded⟩

theorem balance_push (h : s.tryReserve = some s') (hx : x.weight = 1) : Balance s (s'.push x) 0 := by
  obtain ⟨rfl, hlt⟩ := tryReserve_some h
  refine ⟨?_, rfl, hlt⟩
  rw [inFlight_push, hx]
  have hkeep : ({ s with active := s.active + 1 } : Slots).inFlight = s.inFlight := rfl
  simp only [Slots.push, hkeep]
  omega

theorem balance_put (hs : Slotted s) (hi : s.executions[i]? = some x) (hxy : x.weight = y.weight) :
    Balance s (s.put i y) 0 := by
  have hput := inFlight_put (y := y) hi
  refine ⟨?_, rfl, hs.bounded⟩
  simp only [Slots.put] at hput ⊢
  omega

theorem balance_release_put (hs : Slotted s) (hi : s.executions[i]? = some x) (hx : x.weight = 1)
    (hy : y.weight = 0) : Balance s (s.release.put i y) 0 := by
  have hpos : 0 < s.active := by
    have hle := weight_le hi
    have hcovered := hs.covered
    omega
  have hrelease := active_release hpos
  have hput := inFlight_put (y := y) (s := s.release) (by rwa [executions_release])
  have hkeep : s.release.inFlight = s.inFlight := inFlight_congr executions_release
  have hbounded := hs.bounded
  refine ⟨?_, limit_release, ?_⟩
  · simp only [Slots.put] at hput ⊢
    omega
  · simp only [Slots.put]
    omega

theorem scheduleRun_balance (hs : Slotted s) (createTaskRaises : Bool) :
    Balance s (scheduleRun s createTaskRaises) 0 := by
  unfold scheduleRun
  split
  · exact balance_refl hs
  · split
    · exact balance_refl hs
    · next t ht =>
      split
      · obtain ⟨rfl, hlt⟩ := tryReserve_some ht
        rw [Slots.release, if_pos (Nat.succ_pos _)]
        exact balance_refl hs
      · exact balance_push ht rfl

theorem reserveAndClaim_balance (hs : Slotted s) (entry : EntryPoint) : Balance s (reserveAndClaim s entry) 0 := by
  unfold reserveAndClaim
  split
  · exact balance_refl hs
  · next t ht => exact balance_push ht rfl

theorem claimed_balance (hs : Slotted s) {entry : EntryPoint} {cancelled : Bool}
    (hi : s.executions[i]? = some ⟨entry, .claiming, cancelled⟩) (granted : Bool) :
    Balance s (claimed s s.release i entry cancelled granted) 0 := by
  unfold claimed
  split
  · exact balance_put hs hi rfl
  · exact balance_release_put hs hi rfl rfl

theorem shutdown_balance (hs : Slotted s) : Balance s { s with
    shuttingDown := true
    executions := s.executions.map fun e => if e.entry = .schedule then requestCancel e else e } 0 := by
  have hkeep : (s.executions.map fun e => if e.entry = .schedule then requestCancel e else e).countP
      (fun e => decide (e.stage ≠ .ended)) = s.inFlight := by
    rw [List.countP_map]
    refine List.countP_congr fun e _ => ?_
    simp only [Function.comp_apply]
    split
    · rw [requestCancel_stage]
    · rfl
  refine ⟨?_, rfl, hs.bounded⟩
  simp only [Slots.inFlight] at hkeep ⊢
  rw [hkeep]
  rfl

/-- **Step.** The counter moves with the executions in flight, but for a slot
lost. -/
theorem slotStep_balance (hs : Slotted s) (h : slotStep s e = some s') : Balance s s' (lost s e) := by
  cases e with
  | scheduleRun createTaskRaises =>
    obtain rfl := Option.some.inj h
    exact scheduleRun_balance hs createTaskRaises
  | confirm =>
    obtain rfl := Option.some.inj h
    exact reserveAndClaim_balance hs .confirm
  | retry =>
    obtain rfl := Option.some.inj h
    exact reserveAndClaim_balance hs .retry
  | firstStep i =>
    simp only [slotStep] at h
    split at h
    · next cancelled hi =>
      obtain rfl := Option.some.inj h
      cases cancelled with
      | false =>
        have hlost : lost s (.firstStep i) = 0 := by simp [lost, hi]
        rw [hlost]
        exact balance_put hs hi rfl
      | true =>
        have hlost : lost s (.firstStep i) = 1 := by simp [lost, hi]
        have hput := inFlight_put (y := ⟨.schedule, .ended, true⟩) hi
        have hold : (⟨.schedule, .created, true⟩ : Execution).weight = 1 := rfl
        have hnew : (⟨.schedule, .ended, true⟩ : Execution).weight = 0 := rfl
        refine ⟨?_, rfl, hs.bounded⟩
        rw [hlost]
        simp only [Slots.put, if_true] at hput ⊢
        omega
    · cases h
  | claim i granted =>
    simp only [slotStep] at h
    split at h
    · next cancelled hi =>
      obtain rfl := Option.some.inj h
      exact claimed_balance hs hi granted
    · next cancelled hi =>
      obtain rfl := Option.some.inj h
      exact claimed_balance hs hi granted
    · cases h
  | finish i outcome =>
    simp only [slotStep] at h
    split at h
    · next entry cancelled hi =>
      obtain rfl := Option.some.inj h
      rw [finished_eq]
      exact balance_release_put hs hi rfl rfl
    · cases h
  | cancel i =>
    obtain ⟨x, hi, rfl⟩ := Option.map_eq_some_iff.mp h
    exact balance_put hs hi (weight_requestCancel x).symm
  | shutdown =>
    obtain rfl := Option.some.inj h
    exact shutdown_balance hs

theorem Balance.slotted {k : Nat} (h : Balance s s' k) (hs : Slotted s) : Slotted s' := by
  have hbalance := h.balance
  have hcovered := hs.covered
  exact ⟨by omega, by rw [h.limit]; exact h.bounded⟩

theorem slotted_fresh (h : Fresh s) : Slotted s := by
  obtain ⟨hactive, hnone⟩ := h
  refine ⟨?_, by rw [hactive]; exact Nat.zero_le _⟩
  rw [Slots.inFlight, hnone]
  exact Nat.zero_le _

theorem fresh_inFlight (h : Fresh s) : s.inFlight = 0 := by rw [Slots.inFlight, h.2]; rfl

/-! ## What a run does -/

/-- An event loses no slot exactly when it is no first step of a cancelled task. -/
theorem lost_eq_zero (h : slotStep s e = some s') : lost s e = 0 ↔ Entered s e := by
  cases e with
  | firstStep i =>
    simp only [lost, Entered]
    cases hi : s.executions[i]? with
    | none => simp
    | some x => simp
  | _ => exact iff_of_true rfl trivial

/-- Over a run the counter gains on the executions in flight what the run loses,
and that is nothing exactly when each step is `Entered`. -/
theorem run_balance {ls : List SlotEvent} (hrun : slots.Run s ls s') : Slotted s →
    Slotted s' ∧ ∃ k, s'.active + s.inFlight = s.active + s'.inFlight + k ∧
      (k = 0 ↔ (slots.restrict Entered).Run s ls s') := by
  induction hrun with
  | nil s => exact fun hs => ⟨hs, 0, rfl, iff_of_true rfl (.nil s)⟩
  | @cons s t u l ls hstep hrest ih =>
    intro hs
    have hbalance := slotStep_balance hs hstep
    obtain ⟨hu, k, hk, hiff⟩ := ih (hbalance.slotted hs)
    refine ⟨hu, lost s l + k, ?_, ?_⟩
    · have hone := hbalance.balance
      omega
    · rw [Nat.add_eq_zero_iff, lost_eq_zero hstep, hiff]
      constructor
      · rintro ⟨hentered, hrestricted⟩
        exact .cons ⟨hentered, hstep⟩ hrestricted
      · intro hrestricted
        cases hrestricted with
        | @cons _ t' _ _ _ h htail =>
          obtain rfl : t' = t := Option.some.inj (h.2.symm.trans hstep)
          exact ⟨h.1, htail⟩

/-- **Accounting.** At the end of a run the counter is the number of executions
in flight, within its bound, and zero with none in flight, exactly when no step
was the first of a task cancelled before it. -/
theorem capacity_iff {ls : List SlotEvent} (hfresh : Fresh s) (hrun : slots.Run s ls s') :
    Accounted s' ↔ (slots.restrict Entered).Run s ls s' := by
  obtain ⟨hs', k, hbalance, hiff⟩ := run_balance hrun (slotted_fresh hfresh)
  have hflight := fresh_inFlight hfresh
  have hactive := hfresh.1
  rw [← hiff]
  constructor
  · intro h
    have hcounted := h.counted
    omega
  · intro hk
    exact ⟨by omega, hs'.bounded, by omega⟩

/-- Two slots for three callers. -/
def freshSlots : Slots := { maxConcurrentRuns := some 2 }

/-- A task that is cancelled while it runs, a claim that fails, a call that is
refused and a retry that raises. -/
def mixedEvents : List SlotEvent :=
  [.scheduleRun false, .firstStep 0, .confirm, .retry, .claim 1 false, .retry, .cancel 0,
    .finish 0 .cancelled, .claim 2 true, .finish 2 .raised]

def mixedSlots : Slots where
  maxConcurrentRuns := some 2
  executions := [⟨.schedule, .ended, true⟩, ⟨.confirm, .ended, false⟩, ⟨.retry, .ended, false⟩]

theorem capacity_iff_mixed :
    Accounted mixedSlots ↔ (slots.restrict Entered).Run freshSlots mixedEvents mixedSlots :=
  capacity_iff ⟨rfl, rfl⟩ (LTS.run_of_exec mixedEvents (by decide))

/-- With the one slot of the service lost. -/
def lostSlots : Slots where
  maxConcurrentRuns := some 1
  active := 1
  executions := [⟨.schedule, .ended, true⟩]

/-- A task cancelled before its first step keeps its slot, and no run is
admitted any more. -/
theorem slot_lost : slots.Reachable lostSlots ∧ ¬ Accounted lostSlots ∧ scheduleRun lostSlots false = lostSlots := by
  refine ⟨⟨{ maxConcurrentRuns := some 1 }, [.scheduleRun false, .cancel 0, .firstStep 0], ⟨rfl, rfl⟩,
    LTS.run_of_exec _ (by decide)⟩, fun h => ?_, by decide⟩
  exact absurd (h.idle (by decide)) (by decide)

end BidScope.L3
