import BidScope.Core.LTS
import BidScope.L4Subscriptions.Notices

/-!
# Subscription cycles side by side

`run_subscription` of `subscriptions/service.py` as a state machine: any number
of calls, scheduled or direct, on any subscriptions, in any number of
processes. A step is one statement of a call against the database, or one
stretch of work between two statements; the calls interleave freely.

A call takes the advisory lock of its subscription and minute, reads the row,
creates or finds the run of that minute, executes it, reads the report, the
views and the seen items, decides on each seen item, and commits once. A
scheduled call checks after the lock that the row still names its occurrence.
It can raise at any point behind the lock, and it can disappear at any point.

**Transactions.** The session of a call commits once, with its inbox events,
seen items and row together. It is READ COMMITTED: each statement reads what is
committed when it runs. Updates of a row another call has open wait for it, so
the writes of a call take effect when it commits. What the session has loaded
it keeps (`expire_on_commit=False`): `row` is the subscription as first read,
and a column is written only if its new value differs from the loaded one.

**Ghosts.** `log`: the committed calls, in commit order, with what they read.
`Filed.before`, `Filed.after`: the pair of seen hashes behind an inbox event.
-/
namespace BidScope.L4

open BidScope.L1

/-! ## Rows -/

/-- The internal keys of `normalized_intent`; `nextRunAt` is the instant its
text denotes, `none` where it does not parse. -/
structure Intent where
  userRequest : Option String := none
  nextRunAt : Option Int := none
  consecutiveFailures : Nat := 0
  deriving DecidableEq, Repr

inductive SubStatus where
  | active | paused
  deriving DecidableEq, Repr

/-- mirrors persistence/models.py:440-451 -/
structure Subscription where
  cronExpression : String
  timezone : String
  normalizedIntent : Intent
  status : SubStatus := .active
  deriving DecidableEq, Repr

abbrev Subscription.nextRunAt (sub : Subscription) : Option Int := sub.normalizedIntent.nextRunAt

abbrev Subscription.failures (sub : Subscription) : Nat := sub.normalizedIntent.consecutiveFailures

/-- An inbox event with the hashes it was decided on. -/
structure Filed where
  event : InboxEvent
  before : Option String
  after : String
  deriving DecidableEq, Repr

/-- The rows of one subscription. -/
structure Tables where
  sub : Subscription
  seen : SeenItems := .empty
  inbox : List Filed := []
  deriving DecidableEq

/-- What the service is built over. -/
structure Env where
  lib : Lib
  /-- the first eight bytes of `hashlib.sha256(text.encode()).digest()`, signed -/
  digest64 : String → Int
  /-- `_compute_next_run` over `CronTrigger.get_next_fire_time(after, after)`, `none` where it
  raises -/
  computeNextRun : String → String → Int → Option Int
  failEveryRun : Bool := false

/-- `get_next_fire_time(t, t)` returns a time after `t`. -/
def Env.FiresLater (env : Env) : Prop :=
  ∀ cron timezone after next, env.computeNextRun cron timezone after = some next → after < next

variable (env : Env)

/-- mirrors subscriptions/scheduler.py:115-117 -/
def bucket (scheduledAt : Int) : String :=
  env.lib.isoformat ⟨scheduledAt - scheduledAt % 60000000, 0⟩

/-- mirrors subscriptions/scheduler.py:104-112 -/
def subscriptionLockKey (subscriptionId scheduledTime : String) : Int :=
  env.digest64 (subscriptionId ++ "::" ++ scheduledTime)

/-- mirrors subscriptions/service.py:375-383 -/
def scheduledRunKey (subscriptionId : String) (scheduledAt : Int) : String :=
  "subscription:" ++ subscriptionId ++ ":" ++ bucket env scheduledAt

/-- mirrors subscriptions/service.py:209-225 -/
def matchesScheduledOccurrence (sub : Subscription) (scheduledAt : Int) : Bool :=
  sub.status == .active && sub.nextRunAt == some scheduledAt

/-! ## What a call writes -/

/-- `diffAndEmit` with the hashes each event was decided on. -/
def file (previousViews matched : Dict String NoticeView) : List Filed :=
  matched.entries.filterMap fun e =>
    ((verdict env.lib previousViews e.1 e.2).event e.1 e.2).map fun event =>
      ⟨event, (previousViews.get e.1).map (·.contentHash), e.2.contentHash⟩

theorem file_events (previousViews matched : Dict String NoticeView) :
    (file env previousViews matched).map (·.event) =
      (diffAndEmit env.lib previousViews matched).1 := by
  simp only [file, diffAndEmit, List.map_filterMap]
  congr 1
  funext e
  cases (verdict env.lib previousViews e.1 e.2).event e.1 e.2 <;> rfl

/-- A JSON column is part of the `UPDATE` only if its value is a new one. -/
def Intent.flush (read new stored : Intent) : Intent := if new = read then stored else new

/-- The row after a success: what is written comes from the row as read.
mirrors subscriptions/service.py:720-730 -/
def successRow (advance : Bool) (scheduledAt : Int) (read stored : Subscription) :
    Option Subscription :=
  let intent := { read.normalizedIntent with consecutiveFailures := 0 }
  let newIntent :=
    if advance then
      (env.computeNextRun read.cronExpression read.timezone scheduledAt).map fun next =>
        { intent with nextRunAt := some next }
    else some intent
  newIntent.map fun new =>
    { stored with normalizedIntent := Intent.flush read.normalizedIntent new stored.normalizedIntent }

/-- mirrors subscriptions/service.py:992-999 -/
def failureRow (read stored : Subscription) : Subscription :=
  let failures := read.failures + 1
  { stored with
    normalizedIntent := { read.normalizedIntent with consecutiveFailures := failures }
    status := if failures ≥ 3 ∧ read.status ≠ .paused then .paused else stored.status }

/-- What `_advance_seen` leaves in the session for one notice. -/
inductive SeenWrite where
  | insert (hash : String)
  | update (hash : String)
  | touch
  deriving DecidableEq, Repr

/-- The row is looked up as committed now; its hash is the one the session
loaded first.
mirrors subscriptions/service.py:972-990 -/
def seenWrite (seen seenRead : SeenItems) (noticeId hash : String) : SeenWrite :=
  match seen.get noticeId with
  | none => .insert hash
  | some stored => if (seenRead.get noticeId).getD stored = hash then .touch else .update hash

def SeenWrite.apply (seen : SeenItems) (noticeId : String) : SeenWrite → SeenItems
  | .insert hash | .update hash => seen.set noticeId hash
  | .touch => seen

/-- The open transaction of a call behind its diff; `db` and `seenRead` are what
the diff read. -/
structure Txn where
  db : NoticeDb
  seenRead : SeenItems
  matched : Dict String NoticeView
  events : List Filed
  writes : List (String × SeenWrite) := []

/-- `uq_subscription_seen_items_subscription_id_notice_id` -/
def Txn.clashes (txn : Txn) (seen : SeenItems) : Bool :=
  txn.writes.any fun e =>
    match e.2 with
    | .insert _ => (seen.get e.1).isSome
    | _ => false

def Txn.apply (txn : Txn) (seen : SeenItems) : SeenItems :=
  txn.writes.foldl (fun seen e => e.2.apply seen e.1) seen

/-! ## Calls -/

/-- Where a call stands; `row` is the subscription as it read it. -/
inductive Pc where
  | start
  | locked
  | entered (row : Subscription)
  | executing (row : Subscription)
  | gate (row : Subscription)
  | cited (row : Subscription) (items : List String)
  | matched (row : Subscription) (views : Dict String NoticeView)
  | advancing (row : Subscription) (txn : Txn) (rest : List (String × NoticeView))
  | failing (row : Subscription)
  | leaving

def Pc.row : Pc → Option Subscription
  | .start | .locked | .leaving => none
  | .entered row | .executing row | .gate row | .cited row _ | .matched row _
  | .advancing row _ _ | .failing row => some row

/-- A call of `run_subscription`. -/
structure Call where
  sub : String
  scheduledAt : Int
  advance : Bool
  pc : Pc := .start

def Call.key (c : Call) : Int := subscriptionLockKey env c.sub (bucket env c.scheduledAt)

inductive Outcome where
  | success (db : NoticeDb) (matched : Dict String NoticeView)
  | failure
  deriving DecidableEq

/-- A committed call. -/
structure Entry where
  sub : String
  scheduledAt : Int
  advance : Bool
  outcome : Outcome
  deriving DecidableEq

def Call.entry (c : Call) (outcome : Outcome) : Entry := ⟨c.sub, c.scheduledAt, c.advance, outcome⟩

/-- `runs` maps a run key to its persisted report. -/
structure CState where
  tables : String → Option Tables
  runs : Dict String (Option (List String)) := .empty
  db : NoticeDb := .empty
  locks : Int → Option Nat := fun _ => none
  calls : Nat → Option Call := fun _ => none
  log : List Entry := []

namespace CState

def goto (s : CState) (w : Nat) (c : Call) (pc : Pc) : CState :=
  { s with calls := Function.update s.calls w (some { c with pc }) }

/-- The call is over, and its connection had no lock. -/
def drop (s : CState) (w : Nat) : CState := { s with calls := Function.update s.calls w none }

/-- The call is over, and its lock connection is closed. -/
def leave (s : CState) (w : Nat) : CState :=
  { s with
    locks := fun key => if s.locks key = some w then none else s.locks key
    calls := Function.update s.calls w none }

/-- The commit of call `c`: its subscription's rows and the log. -/
def write (s : CState) (c : Call) (tables : Tables) (outcome : Outcome) : CState :=
  { s with
    tables := Function.update s.tables c.sub (some tables)
    log := s.log ++ [c.entry outcome] }

end CState

inductive CallEv where
  | acquire
  | read
  | enter
  | execute (completed : Bool) (report : Option (List String))
  | gate
  /-- The query for the latest versions returns its rows in this order. -/
  | views (order : List String)
  | diff
  | advance
  | commit
  | recordFailure
  | raise
  | release
  | crash

/-- mirrors subscriptions/service.py:514-731 -/
def callStep (s : CState) (w : Nat) (c : Call) : CallEv → Option CState
  | .acquire =>
    match c.pc with
    | .start =>
      if s.locks (c.key env) = none then
        some ({ s with locks := Function.update s.locks (c.key env) (some w) }.goto w c .locked)
      else some (s.drop w)
    | _ => none
  | .read =>
    match c.pc with
    | .locked =>
      match s.tables c.sub with
      -- skipped, or `KeyError` of a direct call
      | none => some (s.goto w c .leaving)
      | some t =>
        if c.advance && !matchesScheduledOccurrence t.sub c.scheduledAt then
          some (s.goto w c .leaving)
        else some (s.goto w c (.entered t.sub))
    | _ => none
  | .enter =>
    match c.pc with
    | .entered row =>
      if env.failEveryRun || (row.normalizedIntent.userRequest.getD "") == "" then
        some (s.goto w c (.failing row))
      else
        -- `create_run`: the row of the key is created or found
        match s.runs.get (scheduledRunKey env c.sub c.scheduledAt) with
        | some _ => some (s.goto w c (.gate row))
        | none =>
          some ({ s with runs := s.runs.set (scheduledRunKey env c.sub c.scheduledAt) none }.goto w c
            (.executing row))
    | _ => none
  | .execute completed report =>
    match c.pc with
    | .executing row =>
      let runs := match report with
        | some items => s.runs.set (scheduledRunKey env c.sub c.scheduledAt) (some items)
        | none => s.runs
      some ({ s with runs }.goto w c (if completed then .gate row else .failing row))
    | _ => none
  | .gate =>
    match c.pc with
    | .gate row =>
      match (s.runs.get (scheduledRunKey env c.sub c.scheduledAt)).join with
      | some items => some (s.goto w c (.cited row items))
      | none => some (s.goto w c (.failing row))
    | _ => none
  | .views order =>
    match c.pc with
    | .cited row items => some (s.goto w c (.matched row (noticeViewsFromReport order s.db items)))
    | _ => none
  | .diff =>
    match c.pc, s.tables c.sub with
    | .matched row views, some t =>
      some (s.goto w c (.advancing row
        { db := s.db, seenRead := t.seen, matched := views
          events := file env (loadSeenViews s.db t.seen) views } views.entries))
    | _, _ => none
  | .advance =>
    match c.pc, s.tables c.sub with
    | .advancing row txn ((n, view) :: rest), some t =>
      some (s.goto w c (.advancing row
        { txn with
          writes := txn.writes ++ [(n, seenWrite t.seen txn.seenRead n view.contentHash)] } rest))
    | _, _ => none
  | .commit =>
    match c.pc, s.tables c.sub with
    | .advancing row txn [], some t =>
      if txn.clashes t.seen then none
      else (successRow env c.advance c.scheduledAt row t.sub).map fun sub =>
        (s.write c { sub, seen := txn.apply t.seen, inbox := t.inbox ++ txn.events }
          (.success txn.db txn.matched)).goto w c .leaving
    | _, _ => none
  | .recordFailure =>
    match c.pc, s.tables c.sub with
    | .failing row, some t =>
      some ((s.write c { t with sub := failureRow row t.sub } .failure).goto w c .leaving)
    | _, _ => none
  | .raise =>
    match c.pc with
    | .start | .leaving => none
    | _ => some (s.goto w c .leaving)
  | .release =>
    match c.pc with
    | .leaving => some (s.leave w)
    | _ => none
  | .crash => some (s.leave w)

inductive CEv where
  | scan (w : Nat) (sub : String) (now : Int)
  | request (w : Nat) (sub : String) (scheduledAt : Int)
  | call (w : Nat) (ev : CallEv)
  /-- the run of `key` delivers outside any call: recovery, retry, confirm -/
  | delivered (key : String) (items : List String)
  | importVersion (noticeId : String) (row : SourceNotice) (contentHash : String)
      (version : NoticeVersion)
  | deleteVersion (noticeId contentHash : String)
  /-- the pause and resume routes -/
  | setStatus (sub : String) (status : SubStatus)

/-- `scan` is one due subscription of `list_due_subscriptions`, whose call
follows when the worker gets to it.
mirrors subscriptions/scheduler.py:150-165, 217-257, api/routes/subscriptions.py:101-154 -/
def cstep (s : CState) : CEv → Option CState
  | .scan w sub now =>
    match s.calls w, s.tables sub with
    | none, some t =>
      match t.sub.nextRunAt with
      | some next =>
        if t.sub.status = .active ∧ next ≤ now then
          some (s.goto w { sub, scheduledAt := next, advance := true } .start)
        else none
      | none => none
    | _, _ => none
  | .request w sub scheduledAt =>
    if (s.calls w).isNone then some (s.goto w { sub, scheduledAt, advance := false } .start)
    else none
  | .call w ev => (s.calls w).bind fun c => callStep env s w c ev
  | .delivered key items =>
    if s.runs.get key = some none then some { s with runs := s.runs.set key (some items) } else none
  | .importVersion n row hash version => some { s with db := importVersion s.db n row hash version }
  | .deleteVersion n hash => some { s with db := deleteVersion s.db n hash }
  | .setStatus sub status =>
    (s.tables sub).map fun t =>
      { s with tables := Function.update s.tables sub (some { t with sub := { t.sub with status } }) }

/-- Freshly created subscriptions. -/
def fresh (subs : String → Option Subscription) (id : String) : Option Tables :=
  (subs id).map fun sub => { sub }

/-- The cycles of the subscriptions `subs`. -/
def cycle (subs : String → Option Subscription) : LTS CState CEv :=
  LTS.ofFn (· = { tables := fresh subs }) (cstep env)

/-! ## What reaches the intent column -/

/-- Resetting the failures writes nothing when there are none. -/
theorem flush_reset (read stored : Intent) :
    Intent.flush read { read with consecutiveFailures := 0 } stored =
      if read.consecutiveFailures = 0 then stored else { read with consecutiveFailures := 0 } := by
  unfold Intent.flush
  by_cases h : read.consecutiveFailures = 0
  · have hsame : { read with consecutiveFailures := 0 } = read := by rw [← h]
    rw [if_pos hsame, if_pos h]
  · have hne : { read with consecutiveFailures := 0 } ≠ read := fun he =>
      h (congrArg Intent.consecutiveFailures he).symm
    rw [if_neg hne, if_neg h]

/-- A later next run is always written. -/
theorem flush_next {read stored : Intent} {scheduledAt next : Int}
    (hread : read.nextRunAt = some scheduledAt) (hlt : scheduledAt < next) :
    Intent.flush read { read with consecutiveFailures := 0, nextRunAt := some next } stored =
      { read with consecutiveFailures := 0, nextRunAt := some next } := by
  have hne : { read with consecutiveFailures := 0, nextRunAt := some next } ≠ read := by
    intro he
    have hsame : some next = read.nextRunAt := congrArg Intent.nextRunAt he
    rw [hread, Option.some.injEq] at hsame
    omega
  rw [Intent.flush, if_neg hne]

/-! ## What one step can do -/

inductive CallStep (s : CState) (w : Nat) (c : Call) : CallEv → CState → Prop where
  | acquire (hpc : c.pc = .start) (hl : s.locks (c.key env) = none) :
      CallStep s w c .acquire
        ({ s with locks := Function.update s.locks (c.key env) (some w) }.goto w c .locked)
  | refused (hpc : c.pc = .start) (hl : s.locks (c.key env) ≠ none) :
      CallStep s w c .acquire (s.drop w)
  | skip (hpc : c.pc = .locked)
      (hskip : ∀ t, s.tables c.sub = some t →
        c.advance = true ∧ matchesScheduledOccurrence t.sub c.scheduledAt = false) :
      CallStep s w c .read (s.goto w c .leaving)
  | read {t : Tables} (hpc : c.pc = .locked) (ht : s.tables c.sub = some t)
      (hm : c.advance = true → matchesScheduledOccurrence t.sub c.scheduledAt = true) :
      CallStep s w c .read (s.goto w c (.entered t.sub))
  | work {ev : CallEv} {row : Subscription} {pc : Pc} {runs : Dict String (Option (List String))}
      (hrow : c.pc.row = some row) (hpc : pc = .executing row ∨ pc = .gate row ∨ pc = .failing row ∨
        ∃ items, pc = .cited row items) :
      CallStep s w c ev ({ s with runs }.goto w c pc)
  | views {order : List String} {row : Subscription} {items : List String}
      (hpc : c.pc = .cited row items) :
      CallStep s w c (.views order)
        (s.goto w c (.matched row (noticeViewsFromReport order s.db items)))
  | diff {row : Subscription} {views : Dict String NoticeView} {t : Tables}
      (hpc : c.pc = .matched row views) (ht : s.tables c.sub = some t) :
      CallStep s w c .diff (s.goto w c (.advancing row
        { db := s.db, seenRead := t.seen, matched := views
          events := file env (loadSeenViews s.db t.seen) views } views.entries))
  | advance {row : Subscription} {txn : Txn} {n : String} {view : NoticeView}
      {rest : List (String × NoticeView)} {t : Tables}
      (hpc : c.pc = .advancing row txn ((n, view) :: rest)) (ht : s.tables c.sub = some t) :
      CallStep s w c .advance (s.goto w c (.advancing row
        { txn with
          writes := txn.writes ++ [(n, seenWrite t.seen txn.seenRead n view.contentHash)] } rest))
  | commit {row : Subscription} {txn : Txn} {t : Tables} {sub : Subscription}
      (hpc : c.pc = .advancing row txn []) (ht : s.tables c.sub = some t)
      (hsub : successRow env c.advance c.scheduledAt row t.sub = some sub) :
      CallStep s w c .commit
        ((s.write c { sub, seen := txn.apply t.seen, inbox := t.inbox ++ txn.events }
          (.success txn.db txn.matched)).goto w c .leaving)
  | recordFailure {row : Subscription} {t : Tables} (hpc : c.pc = .failing row)
      (ht : s.tables c.sub = some t) :
      CallStep s w c .recordFailure
        ((s.write c { t with sub := failureRow row t.sub } .failure).goto w c .leaving)
  | raise (hpc : c.pc ≠ .start) : CallStep s w c .raise (s.goto w c .leaving)
  | release (hpc : c.pc = .leaving) : CallStep s w c .release (s.leave w)
  | crash : CallStep s w c .crash (s.leave w)

variable {env} {s s' : CState} {w : Nat} {c : Call}

theorem callStep_cases {ev : CallEv} (h : callStep env s w c ev = some s') :
    CallStep env s w c ev s' := by
  cases ev with
  | acquire =>
    simp only [callStep] at h
    split at h
    · rename_i hpc
      split at h
      · rename_i hl
        cases h
        exact .acquire hpc hl
      · rename_i hl
        cases h
        exact .refused hpc hl
    · cases h
  | read =>
    simp only [callStep] at h
    split at h
    · rename_i hpc
      split at h
      · rename_i hn
        cases h
        refine .skip hpc fun t ht => ?_
        rw [hn] at ht
        cases ht
      · rename_i t ht
        split at h
        · rename_i hskip
          cases h
          refine .skip hpc fun t' ht' => ?_
          rw [ht] at ht'
          cases ht'
          simpa using hskip
        · rename_i hm
          cases h
          exact .read hpc ht fun ha => by simpa [ha] using hm
    · cases h
  | enter =>
    simp only [callStep] at h
    split at h
    · rename_i row hpc
      have hrow : c.pc.row = some row := by rw [hpc]; rfl
      split at h
      · cases h
        exact .work hrow (Or.inr (Or.inr (Or.inl rfl)))
      · split at h
        · cases h
          exact .work hrow (Or.inr (Or.inl rfl))
        · cases h
          exact .work hrow (Or.inl rfl)
    · cases h
  | execute completed report =>
    simp only [callStep] at h
    split at h
    · rename_i row hpc
      have hrow : c.pc.row = some row := by rw [hpc]; rfl
      cases h
      cases completed with
      | true => exact .work hrow (Or.inr (Or.inl rfl))
      | false => exact .work hrow (Or.inr (Or.inr (Or.inl rfl)))
    · cases h
  | gate =>
    simp only [callStep] at h
    split at h
    · rename_i row hpc
      have hrow : c.pc.row = some row := by rw [hpc]; rfl
      split at h
      · rename_i items _
        cases h
        exact .work hrow (Or.inr (Or.inr (Or.inr ⟨items, rfl⟩)))
      · cases h
        exact .work hrow (Or.inr (Or.inr (Or.inl rfl)))
    · cases h
  | views order =>
    simp only [callStep] at h
    split at h
    · rename_i hpc
      cases h
      exact .views hpc
    · cases h
  | diff =>
    simp only [callStep] at h
    split at h
    · rename_i hpc ht
      cases h
      exact .diff hpc ht
    · cases h
  | advance =>
    simp only [callStep] at h
    split at h
    · rename_i hpc ht
      cases h
      exact .advance hpc ht
    · cases h
  | commit =>
    simp only [callStep] at h
    split at h
    · rename_i hpc ht
      split at h
      · cases h
      · obtain ⟨sub, hsub, rfl⟩ := Option.map_eq_some_iff.mp h
        exact .commit hpc ht hsub
    · cases h
  | recordFailure =>
    simp only [callStep] at h
    split at h
    · rename_i hpc ht
      cases h
      exact .recordFailure hpc ht
    · cases h
  | raise =>
    simp only [callStep] at h
    split at h
    · cases h
    · cases h
    · rename_i hpc _
      cases h
      exact .raise hpc
  | release =>
    simp only [callStep] at h
    split at h
    · rename_i hpc
      cases h
      exact .release hpc
    · cases h
  | crash =>
    cases h
    exact .crash

/-- A call keeps its arguments, and none returns to its start. -/
theorem CallStep.calls {ev : CallEv} (h : CallStep env s w c ev s') :
    ∃ y, s'.calls = Function.update s.calls w y ∧
      ∀ c', y = some c' → ∃ pc, c' = { c with pc } ∧ pc ≠ .start := by
  cases h with
  | refused => exact ⟨none, rfl, fun c' hc' => by cases hc'⟩
  | release => exact ⟨none, rfl, fun c' hc' => by cases hc'⟩
  | crash => exact ⟨none, rfl, fun c' hc' => by cases hc'⟩
  | work hrow hpc =>
    refine ⟨some _, rfl, fun c' hc' => ?_⟩
    cases hc'
    rcases hpc with rfl | rfl | rfl | ⟨items, rfl⟩ <;> exact ⟨_, rfl, fun he => by cases he⟩
  | _ => exact ⟨some _, rfl, fun c' hc' => by cases hc'; exact ⟨_, rfl, fun he => by cases he⟩⟩

/-- The row a call works from is the one it read behind the lock. -/
theorem CallStep.row {ev : CallEv} {c' : Call} {row : Subscription}
    (h : CallStep env s w c ev s') (hc' : s'.calls w = some c') (hrow' : c'.pc.row = some row) :
    c.pc.row = some row ∨ ∃ t, s.tables c.sub = some t ∧ row = t.sub ∧
      (c.advance = true → matchesScheduledOccurrence t.sub c.scheduledAt = true) := by
  cases h with
  | read hpc ht hm =>
    cases LTS.of_update_self hc'
    cases hrow'
    exact Or.inr ⟨_, ht, rfl, hm⟩
  | work hrow hpc =>
    cases LTS.of_update_self hc'
    left
    rcases hpc with rfl | rfl | rfl | ⟨items, rfl⟩ <;> (cases hrow'; exact hrow)
  | views hpc =>
    cases LTS.of_update_self hc'
    cases hrow'
    exact Or.inl (by rw [hpc]; rfl)
  | diff hpc ht =>
    cases LTS.of_update_self hc'
    cases hrow'
    exact Or.inl (by rw [hpc]; rfl)
  | advance hpc ht =>
    cases LTS.of_update_self hc'
    cases hrow'
    exact Or.inl (by rw [hpc]; rfl)
  | _ =>
    cases LTS.of_update_self hc'
    try cases hrow'

theorem matches_next {sub : Subscription} {scheduledAt : Int}
    (h : matchesScheduledOccurrence sub scheduledAt = true) : sub.nextRunAt = some scheduledAt := by
  simp only [matchesScheduledOccurrence, Bool.and_eq_true, beq_iff_eq] at h
  exact h.2

theorem call_cases {ev : CallEv} (h : cstep env s (.call w ev) = some s') :
    ∃ c, s.calls w = some c ∧ CallStep env s w c ev s' := by
  obtain ⟨c, hc, hs⟩ := Option.bind_eq_some_iff.mp h
  exact ⟨c, hc, callStep_cases hs⟩

/-- Steps outside the calls; `scan` and `request` start one. -/
theorem scan_cases {sub : String} {now : Int} (h : cstep env s (.scan w sub now) = some s') :
    ∃ scheduledAt, s.calls w = none ∧
      s' = s.goto w { sub, scheduledAt, advance := true } .start := by
  simp only [cstep] at h
  split at h
  · rename_i hw _
    split at h
    · rename_i next _
      split at h
      · cases h
        exact ⟨next, hw, rfl⟩
      · cases h
    · cases h
  · cases h

theorem request_cases {sub : String} {scheduledAt : Int}
    (h : cstep env s (.request w sub scheduledAt) = some s') :
    s.calls w = none ∧ s' = s.goto w { sub, scheduledAt, advance := false } .start := by
  simp only [cstep] at h
  split at h
  · rename_i hw
    cases h
    exact ⟨by simpa using hw, rfl⟩
  · cases h

theorem delivered_cases {key : String} {items : List String}
    (h : cstep env s (.delivered key items) = some s') :
    ∃ runs, s' = { s with runs } := by
  simp only [cstep] at h
  split at h
  · cases h
    exact ⟨_, rfl⟩
  · cases h

theorem setStatus_cases {sub : String} {status : SubStatus}
    (h : cstep env s (.setStatus sub status) = some s') :
    ∃ t, s.tables sub = some t ∧ s' = { s with
      tables := Function.update s.tables sub (some { t with sub := { t.sub with status } }) } := by
  obtain ⟨t, ht, rfl⟩ := Option.map_eq_some_iff.mp h
  exact ⟨t, ht, rfl⟩

/-- The rows of subscriptions change by the two commits of a call, and by the
pause and resume routes. -/
inductive Effect (env : Env) (s : CState) : CEv → CState → Prop where
  | quiet {ev : CEv} {s' : CState} (ht : s'.tables = s.tables) (hl : s'.log = s.log) :
      Effect env s ev s'
  | status {sub : String} {status : SubStatus} {t : Tables} (ht : s.tables sub = some t) :
      Effect env s (.setStatus sub status) { s with
        tables := Function.update s.tables sub (some { t with sub := { t.sub with status } }) }
  | commit {w : Nat} {c : Call} {row : Subscription} {txn : Txn} {t : Tables} {sub : Subscription}
      (hc : s.calls w = some c) (hpc : c.pc = .advancing row txn []) (ht : s.tables c.sub = some t)
      (hsub : successRow env c.advance c.scheduledAt row t.sub = some sub) :
      Effect env s (.call w .commit)
        ((s.write c { sub, seen := txn.apply t.seen, inbox := t.inbox ++ txn.events }
          (.success txn.db txn.matched)).goto w c .leaving)
  | failure {w : Nat} {c : Call} {row : Subscription} {t : Tables} (hc : s.calls w = some c)
      (hpc : c.pc = .failing row) (ht : s.tables c.sub = some t) :
      Effect env s (.call w .recordFailure)
        ((s.write c { t with sub := failureRow row t.sub } .failure).goto w c .leaving)

theorem cstep_effect {ev : CEv} (h : cstep env s ev = some s') : Effect env s ev s' := by
  cases ev with
  | scan w sub now =>
    obtain ⟨t, -, rfl⟩ := scan_cases h
    exact .quiet rfl rfl
  | request w sub t =>
    obtain ⟨-, rfl⟩ := request_cases h
    exact .quiet rfl rfl
  | call w ev =>
    obtain ⟨c, hc, hs⟩ := call_cases h
    cases hs with
    | commit hpc ht hsub => exact .commit hc hpc ht hsub
    | recordFailure hpc ht => exact .failure hc hpc ht
    | _ => exact .quiet rfl rfl
  | delivered key items =>
    obtain ⟨runs, rfl⟩ := delivered_cases h
    exact .quiet rfl rfl
  | importVersion n row hash version =>
    cases h
    exact .quiet rfl rfl
  | deleteVersion n hash =>
    cases h
    exact .quiet rfl rfl
  | setStatus sub status =>
    obtain ⟨t, ht, rfl⟩ := setStatus_cases h
    exact .status ht

/-- A call after a step is one that just started, or one from before. -/
theorem calls_back {ev : CEv} {w : Nat} {c' : Call} (h : cstep env s ev = some s')
    (hc' : s'.calls w = some c') :
    (s.calls w = none ∧ c'.pc = .start ∧ (c'.advance = true ∨ ∃ sub t, ev = .request w sub t)) ∨
      s.calls w = some c' ∨
      ∃ c cev, ev = .call w cev ∧ s.calls w = some c ∧ CallStep env s w c cev s' ∧
        ∃ pc, c' = { c with pc } ∧ pc ≠ .start := by
  cases ev with
  | scan w₁ sub now =>
    obtain ⟨t, hw, rfl⟩ := scan_cases h
    rcases LTS.of_update hc' with ⟨rfl, hy⟩ | ⟨-, h₀⟩
    · cases hy
      exact Or.inl ⟨hw, rfl, Or.inl rfl⟩
    · exact Or.inr (Or.inl h₀)
  | request w₁ sub t =>
    obtain ⟨hw, rfl⟩ := request_cases h
    rcases LTS.of_update hc' with ⟨rfl, hy⟩ | ⟨-, h₀⟩
    · cases hy
      exact Or.inl ⟨hw, rfl, Or.inr ⟨sub, t, rfl⟩⟩
    · exact Or.inr (Or.inl h₀)
  | call w₁ cev =>
    obtain ⟨c, hc, hs⟩ := call_cases h
    obtain ⟨y, hcalls, hy⟩ := hs.calls
    rw [hcalls] at hc'
    rcases LTS.of_update hc' with ⟨rfl, hyc⟩ | ⟨-, h₀⟩
    · exact Or.inr (Or.inr ⟨c, cev, rfl, hc, hs, hy c' hyc⟩)
    · exact Or.inr (Or.inl h₀)
  | delivered key items =>
    obtain ⟨runs, rfl⟩ := delivered_cases h
    exact Or.inr (Or.inl hc')
  | importVersion n row hash version =>
    cases h
    exact Or.inr (Or.inl hc')
  | deleteVersion n hash =>
    cases h
    exact Or.inr (Or.inl hc')
  | setStatus sub status =>
    obtain ⟨t, -, rfl⟩ := setStatus_cases h
    exact Or.inr (Or.inl hc')

/-! ## A subscription that is due every minute -/

/-- The library on the first, sixth and eleventh minute of 1970. -/
def everyMinute : Env where
  lib :=
    { asciiLib with
      isoformat := fun t =>
        if t.utc = 0 then "1970-01-01T00:00:00+00:00"
        else if t.utc = 300000000 then "1970-01-01T00:05:00+00:00"
        else "1970-01-01T00:10:00+00:00" }
  digest64 text :=
    if text = "sub-1::1970-01-01T00:00:00+00:00" then -1465032676301988311
    else if text = "sub-1::1970-01-01T00:05:00+00:00" then -7718754776540149720
    else -5234165465266977857
  computeNextRun _ _ after := some (after - after % 60000000 + 60000000)

theorem everyMinute_firesLater : everyMinute.FiresLater := by
  intro cron timezone after next h
  simp only [everyMinute, Option.some.injEq] at h
  omega

def oneSub (id : String) : Option Subscription :=
  if id = "sub-1" then
    some ⟨"* * * * *", "UTC", { userRequest := some "road works", nextRunAt := some 0 }, .active⟩
  else none

/-- The first version of the only notice. -/
def imported : CEv :=
  .importVersion "notice-1" ⟨"ccgp", "T-1", "https://example.org/t-1", none, .empty⟩ "h1"
    { id := "v1", createdAt := 1, title := some "Road works" }

end BidScope.L4
