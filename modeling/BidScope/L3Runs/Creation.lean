import BidScope.Core.LTS
import BidScope.L1Domain.Types
import BidScope.L3Runs.Service

/-!
# Creating a run

`create_run` (`graph/executor.py`) and its two callers: the route
`POST /api/runs`, which answers and schedules, and a subscription run, which
executes the run it created or takes the one it found, and then reads its report.

The calls are numbered, and the `uuid4` a call draws for a new run is its number.
A step of a call is one statement or transaction: the lookup by key, the insert
(at the flush of the audit event, else at the commit), the commit, the lookup
after a conflict, and what the caller does with the id. An insert waits while a
transaction with the same key is open, and fails when it has committed.

* `kept_inductive`: a row is its creator's, keys are unique, and whoever was told
  an id was told that of the row with its key.
-/
namespace BidScope.L3

open BidScope.L1

/-- The columns of `query_runs` that creation reads and writes.
mirrors persistence/models.py:170-182 -/
structure QueryRun where
  id : Nat
  runKey : String
  userRequest : String
  status : RowStatus
  deriving DecidableEq, Repr

/-- Who calls `create_run`: the route, with the body, the `Idempotency-Key` header
and the key drawn where there is none; or a subscription run. -/
inductive Caller where
  | route (body : String) (header : Option String) (drawn : String)
  | scheduled (runKey userRequest : String)
  deriving DecidableEq, Repr

/-- What the route refuses with 422.
mirrors api/routes/runs.py:64-70 -/
def Caller.refused : Caller → Option String
  | .route body header _ =>
    if strip body = "" then some "user_request must not be empty"
    else if header.map strip = some "" then some "Idempotency-Key must not be blank"
    else none
  | .scheduled _ _ => none

/-- mirrors api/routes/runs.py:71 -/
def Caller.runKey : Caller → String
  | .route _ header drawn => (header.map strip).getD drawn
  | .scheduled runKey _ => runKey

def Caller.userRequest : Caller → String
  | .route body _ _ => strip body
  | .scheduled _ userRequest => userRequest

/-- Only the route gives an audit context. -/
def Caller.audited : Caller → Bool
  | .route _ _ _ => true
  | .scheduled _ _ => false

/-- The route's answer. -/
inductive Answer where
  /-- 201 for the run created, 200 for the one found -/
  | run (id : Nat)
  /-- 409 -/
  | conflict
  /-- 429 -/
  | capacity
  deriving DecidableEq, Repr

/-- Where a call stands once it has an id. -/
inductive Phase where
  | resolved
  | fetched (run : Option QueryRun)
  | unscheduled
  | answered (answer : Answer)
  | gate
  | diffed
  | failed
  deriving DecidableEq, Repr

/-- Where a call stands. -/
inductive CallPc where
  | arrived
  | refused (detail : String)
  | missed
  | inserted
  | raced
  | raised
  | told (id : Nat) (created : Bool) (phase : Phase)
  deriving DecidableEq, Repr

/-- `uncommitted` are the rows of open transactions; `scheduled` the runs whose
task was created; `reports` the runs with an online report. -/
structure CreateState where
  rows : List QueryRun := []
  uncommitted : List QueryRun := []
  scheduled : List Nat := []
  reports : List Nat := []
  pc : Nat → CallPc := fun _ => .arrived

inductive CreateEv where
  | refuse (i : Nat)
  | lookup (i : Nat)
  | insert (i : Nat)
  | commit (i : Nat)
  | reselect (i : Nat)
  | fetch (i : Nat)
  | respond (i : Nat) (free : Bool)
  | makeRetryable (i : Nat)
  | execute (i : Nat) (status : RunStatus) (delivered : Bool)
  | gate (i : Nat)
  | background (id : Nat) (status : RowStatus) (delivered : Bool)
  deriving DecidableEq, Repr

/-- `select(QueryRun).where(run_key == key)` -/
def byKey (rows : List QueryRun) (key : String) : Option QueryRun := rows.find? (·.runKey = key)

/-- `session.get(QueryRun, id)` -/
def byId (rows : List QueryRun) (id : Nat) : Option QueryRun := rows.find? (·.id = id)

/-- `UPDATE query_runs SET status WHERE id [AND status = expected]` -/
def setStatus (rows : List QueryRun) (id : Nat) (status : RowStatus) (expected : Option RowStatus) :
    List QueryRun :=
  rows.map fun r =>
    if r.id = id ∧ expected.all (· = r.status) then { r with status := status } else r

variable (callers : Nat → Caller)

/-- mirrors graph/executor.py:684-693 -/
def newRow (i : Nat) : QueryRun := ⟨i, (callers i).runKey, (callers i).userRequest, .of .pending⟩

def CreateState.goto (s : CreateState) (i : Nat) (pc : CallPc) : CreateState :=
  { s with pc := Function.update s.pc i pc }

def deliver (reports : List Nat) (id : Nat) (delivered : Bool) : List Nat :=
  if delivered then reports ++ [id] else reports

/-- A run that was scheduled, or one of a subscription, which an operator may retry. -/
def CreateState.executable (s : CreateState) (id : Nat) : Bool :=
  s.scheduled.contains id || (s.rows.any (·.id = id) && ! (callers id).audited)

/-- The insert of a new row: by the flush of the audit event, whose exception leaves
`create_run`, else by the commit, whose exception is caught.
mirrors graph/executor.py:684-714 -/
def CreateState.insert (s : CreateState) (i : Nat) : Option CreateState :=
  if ∃ r ∈ s.uncommitted, r.runKey = (callers i).runKey then none
  else
    match byKey s.rows (callers i).runKey with
    | none => some { s.goto i .inserted with uncommitted := s.uncommitted ++ [newRow callers i] }
    | some _ => some (s.goto i (if (callers i).audited then .raised else .raced))

/-- What the route does with a run it has.
mirrors api/routes/runs.py:83-108 -/
def CreateState.respond (s : CreateState) (i id : Nat) (created : Bool) (run : Option QueryRun)
    (free : Bool) : CreateState :=
  if ¬ created ∧ ∃ r ∈ run, r.userRequest ≠ (callers i).userRequest then
    s.goto i (.told id created (.answered .conflict))
  else if created then
    if free then
      { s.goto i (.told id created (.answered (.run id))) with scheduled := s.scheduled ++ [id] }
    else s.goto i (.told id created .unscheduled)
  else s.goto i (.told id created (.answered (.run id)))

/-- `create_run` (graph/executor.py:664-721), the route (api/routes/runs.py:57-108) and
`_run_locked` from step 1 to the report gate (subscriptions/service.py:668-708). -/
def createStep (s : CreateState) : CreateEv → Option CreateState
  | .refuse i =>
    match s.pc i, (callers i).refused with
    | .arrived, some detail => some (s.goto i (.refused detail))
    | _, _ => none
  | .lookup i =>
    match s.pc i, (callers i).refused with
    | .arrived, none =>
      match byKey s.rows (callers i).runKey with
      | some r => some (s.goto i (.told r.id false .resolved))
      | none => some (s.goto i .missed)
    | _, _ => none
  | .insert i =>
    match s.pc i with
    | .missed => s.insert callers i
    | _ => none
  | .commit i =>
    match s.pc i with
    | .inserted =>
      some { s.goto i (.told i true .resolved) with
        rows := s.rows ++ [newRow callers i]
        uncommitted := s.uncommitted.filter (·.id ≠ i) }
    | _ => none
  | .reselect i =>
    match s.pc i with
    | .raced =>
      match byKey s.rows (callers i).runKey with
      | some r => some (s.goto i (.told r.id false .resolved))
      | none => some (s.goto i .raised)
    | _ => none
  | .fetch i =>
    match s.pc i, callers i with
    | .told id created .resolved, .route _ _ _ =>
      some (s.goto i (.told id created (.fetched (byId s.rows id))))
    | _, _ => none
  | .respond i free =>
    match s.pc i with
    | .told id created (.fetched run) => some (s.respond callers i id created run free)
    | _ => none
  | .makeRetryable i =>
    match s.pc i with
    | .told id created .unscheduled =>
      some { s.goto i (.told id created (.answered .capacity)) with
        rows := setStatus s.rows id (.of .retryable) (some (.of .pending)) }
    | _ => none
  | .execute i status delivered =>
    match s.pc i, callers i with
    | .told id true .resolved, .scheduled _ _ =>
      some { s.goto i (.told id true (if status = .completed then .gate else .failed)) with
        rows := setStatus s.rows id (.of status) none
        reports := deliver s.reports id delivered }
    | _, _ => none
  | .gate i =>
    match s.pc i, callers i with
    | .told id false .resolved, .scheduled _ _ =>
      some (s.goto i (.told id false (if id ∈ s.reports then .diffed else .failed)))
    | .told id true .gate, _ =>
      some (s.goto i (.told id true (if id ∈ s.reports then .diffed else .failed)))
    | _, _ => none
  | .background id status delivered =>
    if s.executable callers id then
      some { s with
        rows := setStatus s.rows id status none
        reports := deliver s.reports id delivered }
    else none

def creation : LTS CreateState CreateEv := LTS.ofFn (· = {}) (createStep callers)

/-- `createStep`, one case for each branch. -/
inductive CreateStep (s : CreateState) : CreateEv → CreateState → Prop where
  | refuse {i detail} (hpc : s.pc i = .arrived) (h : (callers i).refused = some detail) :
    CreateStep s (.refuse i) (s.goto i (.refused detail))
  | find {i r} (hpc : s.pc i = .arrived) (h : (callers i).refused = none)
    (hrow : byKey s.rows (callers i).runKey = some r) :
    CreateStep s (.lookup i) (s.goto i (.told r.id false .resolved))
  | miss {i} (hpc : s.pc i = .arrived) (h : (callers i).refused = none)
    (hrow : byKey s.rows (callers i).runKey = none) : CreateStep s (.lookup i) (s.goto i .missed)
  | insert {i} (hpc : s.pc i = .missed) (hfree : ∀ r ∈ s.uncommitted, r.runKey ≠ (callers i).runKey)
    (hrow : byKey s.rows (callers i).runKey = none) :
    CreateStep s (.insert i)
      { s.goto i .inserted with uncommitted := s.uncommitted ++ [newRow callers i] }
  | clash {i r} (hpc : s.pc i = .missed) (hrow : byKey s.rows (callers i).runKey = some r) :
    CreateStep s (.insert i) (s.goto i (if (callers i).audited then .raised else .raced))
  | commit {i} (hpc : s.pc i = .inserted) :
    CreateStep s (.commit i)
      { s.goto i (.told i true .resolved) with
        rows := s.rows ++ [newRow callers i]
        uncommitted := s.uncommitted.filter (·.id ≠ i) }
  | reselect {i r} (hpc : s.pc i = .raced) (hrow : byKey s.rows (callers i).runKey = some r) :
    CreateStep s (.reselect i) (s.goto i (.told r.id false .resolved))
  | lost {i} (hpc : s.pc i = .raced) (hrow : byKey s.rows (callers i).runKey = none) :
    CreateStep s (.reselect i) (s.goto i .raised)
  | fetch {i id created} (hpc : s.pc i = .told id created .resolved) (h : (callers i).audited = true) :
    CreateStep s (.fetch i) (s.goto i (.told id created (.fetched (byId s.rows id))))
  | respond {i id created run free} (hpc : s.pc i = .told id created (.fetched run)) :
    CreateStep s (.respond i free) (s.respond callers i id created run free)
  | makeRetryable {i id created} (hpc : s.pc i = .told id created .unscheduled) :
    CreateStep s (.makeRetryable i)
      { s.goto i (.told id created (.answered .capacity)) with
        rows := setStatus s.rows id (.of .retryable) (some (.of .pending)) }
  | execute {i id status delivered} (hpc : s.pc i = .told id true .resolved)
    (h : (callers i).audited = false) :
    CreateStep s (.execute i status delivered)
      { s.goto i (.told id true (if status = .completed then .gate else .failed)) with
        rows := setStatus s.rows id (.of status) none
        reports := deliver s.reports id delivered }
  | gate {i id created phase} (hpc : s.pc i = .told id created phase)
    (h : (created = false ∧ phase = .resolved ∧ (callers i).audited = false) ∨
      (created = true ∧ phase = .gate)) :
    CreateStep s (.gate i) (s.goto i (.told id created (if id ∈ s.reports then .diffed else .failed)))
  | background {id status delivered} (h : s.executable callers id = true) :
    CreateStep s (.background id status delivered)
      { s with rows := setStatus s.rows id status none, reports := deliver s.reports id delivered }

/-! ## Rows -/

variable {callers} {s s' : CreateState} {rows : List QueryRun} {r : QueryRun} {i id : Nat}

theorem byKey_some {key : String} (h : byKey rows key = some r) : r ∈ rows ∧ r.runKey = key :=
  ⟨List.mem_of_find?_eq_some h, by simpa using List.find?_some h⟩

theorem byKey_none {key : String} (h : byKey rows key = none) : ∀ r ∈ rows, r.runKey ≠ key := by
  simpa [byKey] using h

theorem byId_some (h : byId rows id = some r) : r ∈ rows ∧ r.id = id :=
  ⟨List.mem_of_find?_eq_some h, by simpa using List.find?_some h⟩

theorem byId_of_mem (h : ∃ r ∈ rows, r.id = id) : ∃ r, byId rows id = some r := by
  rw [← Option.isSome_iff_exists, byId, List.find?_isSome]
  simpa using h

/-- Two rows that differ in their status only. -/
structure SameRun (r r' : QueryRun) : Prop where
  id : r'.id = r.id
  key : r'.runKey = r.runKey
  request : r'.userRequest = r.userRequest

theorem map_setStatus (rows : List QueryRun) (id : Nat) (status : RowStatus) (expected : Option RowStatus) :
    (setStatus rows id status expected).map (·.runKey) = rows.map (·.runKey) := by
  rw [setStatus, List.map_map]
  refine List.map_congr_left fun r _ => ?_
  simp only [Function.comp_apply]
  split <;> rfl

theorem mem_setStatus {status : RowStatus} {expected : Option RowStatus} {r' : QueryRun}
    (h : r' ∈ setStatus rows id status expected) : ∃ r ∈ rows, SameRun r r' := by
  obtain ⟨r, hr, rfl⟩ := List.mem_map.mp h
  refine ⟨r, hr, ?_⟩
  split <;> exact ⟨rfl, rfl, rfl⟩

theorem setStatus_of_mem (id : Nat) (status : RowStatus) (expected : Option RowStatus) (h : r ∈ rows) :
    ∃ r' ∈ setStatus rows id status expected, SameRun r r' := by
  refine ⟨_, List.mem_map_of_mem h, ?_⟩
  split <;> exact ⟨rfl, rfl, rfl⟩

/-- Rows of other runs stay as they are. -/
theorem setStatus_of_ne {status : RowStatus} {expected : Option RowStatus} (h : r ∈ rows) (hne : r.id ≠ id) :
    r ∈ setStatus rows id status expected := by
  refine List.mem_map.mpr ⟨r, h, ?_⟩
  rw [if_neg fun hc => hne hc.1]

/-! ## The invariant -/

/-- Rows are their creators', with one row a key; calls know where they stand. -/
structure Kept (callers : Nat → Caller) (s : CreateState) : Prop where
  row : ∀ r ∈ s.rows ++ s.uncommitted,
    r.runKey = (callers r.id).runKey ∧ r.userRequest = (callers r.id).userRequest
  keys : ((s.rows ++ s.uncommitted).map (·.runKey)).Nodup
  inserted : ∀ i, s.pc i = .inserted ↔ ∃ r ∈ s.uncommitted, r.id = i
  told : ∀ i id created phase, s.pc i = .told id created phase →
    (∃ r ∈ s.rows, r.id = id ∧ r.runKey = (callers i).runKey) ∧ (created = true → id = i)
  creator : ∀ r ∈ s.rows, ∃ phase, s.pc r.id = .told r.id true phase
  fetched : ∀ i id created run, s.pc i = .told id created (.fetched run) →
    ∃ r, run = some r ∧ r.userRequest = (callers id).userRequest

@[simp] theorem goto_rows (s : CreateState) (i : Nat) (pc : CallPc) : (s.goto i pc).rows = s.rows := rfl

@[simp] theorem goto_uncommitted (s : CreateState) (i : Nat) (pc : CallPc) :
    (s.goto i pc).uncommitted = s.uncommitted := rfl

@[simp] theorem goto_scheduled (s : CreateState) (i : Nat) (pc : CallPc) :
    (s.goto i pc).scheduled = s.scheduled := rfl

@[simp] theorem goto_self (s : CreateState) (i : Nat) (pc : CallPc) : (s.goto i pc).pc i = pc :=
  Function.update_self ..

theorem goto_ne (s : CreateState) (pc : CallPc) {i j : Nat} (h : j ≠ i) : (s.goto i pc).pc j = s.pc j :=
  Function.update_of_ne h ..

/-- What a call may become without an insert or a commit. -/
structure Moves (callers : Nat → Caller) (s : CreateState) (i : Nat) (pc : CallPc) : Prop where
  before : s.pc i ≠ .inserted
  after : pc ≠ .inserted
  told : ∀ id created phase, pc = .told id created phase →
    (∃ r ∈ s.rows, r.id = id ∧ r.runKey = (callers i).runKey) ∧ (created = true → id = i)
  creator : ∀ phase, s.pc i = .told i true phase → ∃ phase', pc = .told i true phase'
  fetched : ∀ id created run, pc = .told id created (.fetched run) →
    ∃ r, run = some r ∧ r.userRequest = (callers id).userRequest

theorem Kept.move {pc : CallPc} (h : Kept callers s) (hm : Moves callers s i pc) :
    Kept callers (s.goto i pc) where
  row := h.row
  keys := h.keys
  inserted j := by
    by_cases hj : j = i
    · subst hj
      rw [goto_self]
      exact iff_of_false hm.after fun he => hm.before ((h.inserted j).mpr he)
    · rw [goto_ne s pc hj]
      exact h.inserted j
  told j id created phase hj := by
    by_cases he : j = i
    · subst he
      rw [goto_self] at hj
      exact hm.told id created phase hj
    · rw [goto_ne s pc he] at hj
      exact h.told j id created phase hj
  creator r hr := by
    obtain ⟨phase, hphase⟩ := h.creator r hr
    by_cases he : r.id = i
    · subst he
      rw [goto_self]
      exact hm.creator phase hphase
    · rw [goto_ne s pc he]
      exact ⟨phase, hphase⟩
  fetched j id created run hj := by
    by_cases he : j = i
    · subst he
      rw [goto_self] at hj
      exact hm.fetched id created run hj
    · rw [goto_ne s pc he] at hj
      exact h.fetched j id created run hj

/-- A call that has not been told an id. -/
theorem Moves.untold {pc : CallPc} (hb : s.pc i ≠ .inserted) (ha : pc ≠ .inserted)
    (hold : ∀ id created phase, s.pc i ≠ .told id created phase)
    (hnew : ∀ id created phase, pc ≠ .told id created phase) : Moves callers s i pc where
  before := hb
  after := ha
  told id created phase h := absurd h (hnew id created phase)
  creator phase h := absurd h (hold _ _ phase)
  fetched _ _ _ h := absurd h (hnew _ _ _)

/-- A call that is told the id of a row with its key. -/
theorem Moves.found (hb : s.pc i ≠ .inserted) (hold : ∀ id created phase, s.pc i ≠ .told id created phase)
    (h : byKey s.rows (callers i).runKey = some r) : Moves callers s i (.told r.id false .resolved) where
  before := hb
  after := by simp
  told id created phase he := by
    simp only [CallPc.told.injEq] at he
    obtain ⟨rfl, rfl, -⟩ := he
    obtain ⟨hr, hkey⟩ := byKey_some h
    exact ⟨⟨r, hr, rfl, hkey⟩, by simp⟩
  creator phase h := absurd h (hold _ _ phase)
  fetched id created run he := by simp at he

/-- A call that goes on with the id it was told. -/
theorem Moves.next {created : Bool} {phase phase' : Phase} (hk : Kept callers s)
    (h : s.pc i = .told id created phase)
    (hf : ∀ run, phase' = .fetched run → ∃ r, run = some r ∧ r.userRequest = (callers id).userRequest) :
    Moves callers s i (.told id created phase') where
  before := by simp [h]
  after := by simp
  told id' created' p he := by
    simp only [CallPc.told.injEq] at he
    obtain ⟨rfl, rfl, -⟩ := he
    exact hk.told i id created phase h
  creator p he := by
    rw [h] at he
    simp only [CallPc.told.injEq] at he
    obtain ⟨rfl, rfl, -⟩ := he
    exact ⟨phase', rfl⟩
  fetched id' created' run he := by
    simp only [CallPc.told.injEq] at he
    obtain ⟨rfl, rfl, hp⟩ := he
    exact hf run hp

/-- Nothing else of the state matters. -/
theorem Kept.of_eq (h : Kept callers s) (hrows : s'.rows = s.rows)
    (huncommitted : s'.uncommitted = s.uncommitted) (hpc : s'.pc = s.pc) : Kept callers s' := by
  obtain ⟨row, keys, inserted, told, creator, fetched⟩ := h
  constructor <;> simpa only [hrows, huncommitted, hpc]

/-- A status changes. -/
theorem Kept.status (h : Kept callers s) (id : Nat) (status : RowStatus) (expected : Option RowStatus) :
    Kept callers { s with rows := setStatus s.rows id status expected } where
  row r hr := by
    rcases List.mem_append.mp hr with hr | hr
    · obtain ⟨r₀, hr₀, hsame⟩ := mem_setStatus hr
      rw [hsame.id, hsame.key, hsame.request]
      exact h.row r₀ (List.mem_append_left _ hr₀)
    · exact h.row r (List.mem_append_right _ hr)
  keys := by
    rw [List.map_append, map_setStatus, ← List.map_append]
    exact h.keys
  inserted := h.inserted
  told j id' created phase hj := by
    obtain ⟨⟨r, hr, hid, hkey⟩, hc⟩ := h.told j id' created phase hj
    obtain ⟨r', hr', hsame⟩ := setStatus_of_mem id status expected hr
    exact ⟨⟨r', hr', by rw [hsame.id, hid], by rw [hsame.key, hkey]⟩, hc⟩
  creator r hr := by
    obtain ⟨r₀, hr₀, hsame⟩ := mem_setStatus hr
    rw [hsame.id]
    exact h.creator r₀ hr₀
  fetched := h.fetched

theorem Kept.insert (h : Kept callers s) (hpc : s.pc i = .missed)
    (hfree : ∀ r ∈ s.uncommitted, r.runKey ≠ (callers i).runKey)
    (hnone : byKey s.rows (callers i).runKey = none) :
    Kept callers { s.goto i .inserted with uncommitted := s.uncommitted ++ [newRow callers i] } where
  row r hr := by
    rw [← List.append_assoc] at hr
    rcases List.mem_append.mp hr with hr | hr
    · exact h.row r hr
    · rw [List.mem_singleton.mp hr]
      exact ⟨rfl, rfl⟩
  keys := by
    rw [goto_rows, ← List.append_assoc, List.map_append]
    refine List.nodup_append.mpr ⟨h.keys, by simp, ?_⟩
    intro key hkey key' hkey' he
    subst he
    obtain ⟨r, hr, rfl⟩ := List.mem_map.mp hkey
    have hnew : r.runKey = (callers i).runKey := by simpa [newRow] using hkey'
    rcases List.mem_append.mp hr with hr | hr
    · exact byKey_none hnone r hr hnew
    · exact hfree r hr hnew
  inserted j := by
    by_cases hj : j = i
    · subst hj
      rw [show (s.goto j .inserted).pc j = _ from goto_self ..]
      exact iff_of_true rfl ⟨newRow callers j, by simp, rfl⟩
    · show (s.goto i .inserted).pc j = _ ↔ _
      rw [goto_ne s _ hj, h.inserted j]
      constructor
      · rintro ⟨r, hr, he⟩
        exact ⟨r, List.mem_append_left _ hr, he⟩
      · rintro ⟨r, hr, he⟩
        rcases List.mem_append.mp hr with hr | hr
        · exact ⟨r, hr, he⟩
        · rw [List.mem_singleton.mp hr] at he
          exact absurd he.symm hj
  told j id created phase hj := by
    by_cases he : j = i
    · subst he
      rw [show (s.goto j .inserted).pc j = _ from goto_self ..] at hj
      cases hj
    · exact h.told j id created phase ((goto_ne s .inserted he).symm.trans hj)
  creator r hr := by
    obtain ⟨phase, hphase⟩ := h.creator r hr
    have hne : r.id ≠ i := fun he => by rw [he, hpc] at hphase; cases hphase
    exact ⟨phase, (goto_ne s .inserted hne).trans hphase⟩
  fetched j id created run hj := by
    by_cases he : j = i
    · subst he
      rw [show (s.goto j .inserted).pc j = _ from goto_self ..] at hj
      cases hj
    · exact h.fetched j id created run ((goto_ne s .inserted he).symm.trans hj)

/-- The row of an open transaction is that of its call. -/
theorem Kept.open_row (h : Kept callers s) (hpc : s.pc i = .inserted) :
    ∃ r ∈ s.uncommitted, r.id = i ∧ r.runKey = (callers i).runKey := by
  obtain ⟨r, hr, rfl⟩ := (h.inserted i).mp hpc
  exact ⟨r, hr, rfl, (h.row r (List.mem_append_right _ hr)).1⟩

/-- Calls whose rows have one key are one. -/
theorem Kept.id_unique (h : Kept callers s) {r r' : QueryRun} (hr : r ∈ s.rows ++ s.uncommitted)
    (hr' : r' ∈ s.rows ++ s.uncommitted) (hkey : r.runKey = r'.runKey) : r = r' :=
  List.inj_on_of_nodup_map h.keys hr hr' hkey

theorem Kept.commit (h : Kept callers s) (hpc : s.pc i = .inserted) :
    Kept callers { s.goto i (.told i true .resolved) with
      rows := s.rows ++ [newRow callers i]
      uncommitted := s.uncommitted.filter (·.id ≠ i) } where
  row r hr := by
    rcases List.mem_append.mp hr with hr | hr
    · rcases List.mem_append.mp hr with hr | hr
      · exact h.row r (List.mem_append_left _ hr)
      · rw [List.mem_singleton.mp hr]
        exact ⟨rfl, rfl⟩
    · exact h.row r (List.mem_append_right _ (List.mem_filter.mp hr).1)
  keys := by
    obtain ⟨r₀, hr₀, hid, hkey⟩ := h.open_row hpc
    -- the row committed takes the place of the one that was open
    have hsub : (s.rows ++ s.uncommitted.filter (·.id ≠ i)).Sublist (s.rows ++ s.uncommitted) :=
      List.Sublist.append_left (List.filter_sublist ..) _
    have hnew : (newRow callers i).runKey ∉
        (s.rows ++ s.uncommitted.filter (·.id ≠ i)).map (·.runKey) := by
      intro hmem
      obtain ⟨r, hr, he⟩ := List.mem_map.mp hmem
      have hsame : r = r₀ := h.id_unique (hsub.subset hr) (List.mem_append_right _ hr₀) (by
        rw [he, hkey]
        rfl)
      rcases List.mem_append.mp hr with hr | hr
      · obtain ⟨phase, hphase⟩ := h.creator r hr
        rw [hsame, hid, hpc] at hphase
        cases hphase
      · have := (List.mem_filter.mp hr).2
        simp [hsame, hid] at this
    have hperm : ((newRow callers i) :: (s.rows ++ s.uncommitted.filter (·.id ≠ i))).Perm
        (s.rows ++ [newRow callers i] ++ s.uncommitted.filter (·.id ≠ i)) := by
      rw [List.append_assoc]
      exact List.perm_middle.symm
    rw [← (hperm.map _).nodup_iff, List.map_cons, List.nodup_cons]
    exact ⟨hnew, h.keys.sublist (hsub.map _)⟩
  inserted j := by
    by_cases hj : j = i
    · subst hj
      rw [show (s.goto j (.told j true .resolved)).pc j = _ from goto_self ..]
      refine iff_of_false (by simp) ?_
      rintro ⟨r, hr, he⟩
      simpa [he] using (List.mem_filter.mp hr).2
    · show (s.goto i _).pc j = _ ↔ _
      rw [goto_ne s _ hj, h.inserted j]
      constructor
      · rintro ⟨r, hr, he⟩
        exact ⟨r, List.mem_filter.mpr ⟨hr, by simpa [he] using hj⟩, he⟩
      · rintro ⟨r, hr, he⟩
        exact ⟨r, (List.mem_filter.mp hr).1, he⟩
  told j id created phase hj := by
    by_cases he : j = i
    · subst he
      rw [show (s.goto j (.told j true .resolved)).pc j = _ from goto_self ..] at hj
      simp only [CallPc.told.injEq] at hj
      obtain ⟨rfl, rfl, -⟩ := hj
      exact ⟨⟨newRow callers j, by simp, rfl, rfl⟩, fun _ => rfl⟩
    · obtain ⟨⟨r, hr, hid, hkey⟩, hc⟩ :=
        h.told j id created phase ((goto_ne s (.told i true .resolved) he).symm.trans hj)
      exact ⟨⟨r, List.mem_append_left _ hr, hid, hkey⟩, hc⟩
  creator r hr := by
    rcases List.mem_append.mp hr with hr | hr
    · obtain ⟨phase, hphase⟩ := h.creator r hr
      have hne : r.id ≠ i := fun he => by rw [he, hpc] at hphase; cases hphase
      exact ⟨phase, (goto_ne s (.told i true .resolved) hne).trans hphase⟩
    · rw [List.mem_singleton.mp hr]
      exact ⟨.resolved, goto_self ..⟩
  fetched j id created run hj := by
    by_cases he : j = i
    · subst he
      rw [show (s.goto j (.told j true .resolved)).pc j = _ from goto_self ..] at hj
      simp at hj
    · exact h.fetched j id created run ((goto_ne s (.told i true .resolved) he).symm.trans hj)

/-! ## Steps -/

theorem create_cases {ev : CreateEv} (h : createStep callers s ev = some s') :
    CreateStep callers s ev s' := by
  cases ev with
  | refuse i =>
    simp only [createStep] at h
    split at h
    · rename_i hpc hr
      cases h
      exact .refuse hpc hr
    · cases h
  | lookup i =>
    simp only [createStep] at h
    split at h
    · rename_i hpc hr
      split at h
      · rename_i r hrow
        cases h
        exact .find hpc hr hrow
      · rename_i hrow
        cases h
        exact .miss hpc hr hrow
    · cases h
  | insert i =>
    simp only [createStep] at h
    split at h
    · rename_i hpc
      unfold CreateState.insert at h
      split at h
      · cases h
      · rename_i hfree
        split at h
        · rename_i hrow
          cases h
          exact .insert hpc (by simpa using hfree) hrow
        · rename_i r hrow
          cases h
          exact .clash hpc hrow
    · cases h
  | commit i =>
    simp only [createStep] at h
    split at h
    · rename_i hpc
      cases h
      exact .commit hpc
    · cases h
  | reselect i =>
    simp only [createStep] at h
    split at h
    · rename_i hpc
      split at h
      · rename_i r hrow
        cases h
        exact .reselect hpc hrow
      · rename_i hrow
        cases h
        exact .lost hpc hrow
    · cases h
  | fetch i =>
    simp only [createStep] at h
    split at h
    · rename_i hpc hroute
      cases h
      exact .fetch hpc (by rw [hroute]; rfl)
    · cases h
  | respond i free =>
    simp only [createStep] at h
    split at h
    · rename_i hpc
      cases h
      exact .respond hpc
    · cases h
  | makeRetryable i =>
    simp only [createStep] at h
    split at h
    · rename_i hpc
      cases h
      exact .makeRetryable hpc
    · cases h
  | execute i status delivered =>
    simp only [createStep] at h
    split at h
    · rename_i hpc hs
      cases h
      exact .execute hpc (by rw [hs]; rfl)
    · cases h
  | gate i =>
    simp only [createStep] at h
    split at h
    · rename_i hpc hs
      cases h
      exact .gate hpc (.inl ⟨rfl, rfl, by rw [hs]; rfl⟩)
    · rename_i hpc
      cases h
      exact .gate hpc (.inr ⟨rfl, rfl⟩)
    · cases h
  | background id status delivered =>
    simp only [createStep] at h
    split at h
    · rename_i he
      cases h
      exact .background he
    · cases h

theorem Kept.respond {created free : Bool} {run : Option QueryRun} (h : Kept callers s)
    (hpc : s.pc i = .told id created (.fetched run)) : Kept callers (s.respond callers i id created run free) := by
  have hnext : ∀ phase : Phase, (∀ run, phase ≠ .fetched run) →
      Kept callers (s.goto i (.told id created phase)) := fun phase hp =>
    h.move (.next h hpc fun run he => absurd he (hp run))
  unfold CreateState.respond
  split
  · exact hnext _ (by simp)
  · split
    · split
      · exact (hnext (.answered (.run id)) (by simp)).of_eq rfl rfl rfl
      · exact hnext _ (by simp)
    · exact hnext _ (by simp)

theorem kept_step {ev : CreateEv} (h : Kept callers s) (hs : CreateStep callers s ev s') : Kept callers s' := by
  cases hs with
  | refuse hpc => exact h.move (.untold (by simp [hpc]) (by simp) (by simp [hpc]) (by simp))
  | find hpc _ hrow => exact h.move (.found (by simp [hpc]) (by simp [hpc]) hrow)
  | miss hpc => exact h.move (.untold (by simp [hpc]) (by simp) (by simp [hpc]) (by simp))
  | insert hpc hfree hrow => exact h.insert hpc hfree hrow
  | clash hpc =>
    exact h.move (.untold (by simp [hpc]) (by split <;> simp) (by simp [hpc]) (by split <;> simp))
  | commit hpc => exact h.commit hpc
  | reselect hpc hrow => exact h.move (.found (by simp [hpc]) (by simp [hpc]) hrow)
  | lost hpc => exact h.move (.untold (by simp [hpc]) (by simp) (by simp [hpc]) (by simp))
  | @fetch i id created hpc =>
    refine h.move (.next h hpc fun run he => ?_)
    cases he
    -- the row is there: the call was told its id
    obtain ⟨⟨r, hr, hid, -⟩, -⟩ := h.told _ _ _ _ hpc
    obtain ⟨r', hr'⟩ := byId_of_mem ⟨r, hr, hid⟩
    obtain ⟨hmem, rfl⟩ := byId_some hr'
    exact ⟨r', hr', (h.row r' (List.mem_append_left _ hmem)).2⟩
  | respond hpc => exact h.respond hpc
  | makeRetryable hpc => exact (h.move (.next h hpc (by simp))).status ..
  | @execute i id status delivered hpc =>
    have hphase : ∀ run, (if status = .completed then Phase.gate else .failed) ≠ .fetched run := by
      intro run
      split <;> simp
    exact ((h.move (.next h hpc fun run he => absurd he (hphase run))).status id (.of status) none).of_eq
      rfl rfl rfl
  | gate hpc => exact h.move (.next h hpc (by split <;> simp))
  | @background id status delivered => exact (h.status id status none).of_eq rfl rfl rfl

theorem kept_inductive : (creation callers).Inductive (Kept callers) where
  init := by
    rintro s rfl
    exact ⟨by simp, by simp, by simp, by simp, by simp, by simp⟩
  step _ _ _ h hs := kept_step h (create_cases hs)

end BidScope.L3
