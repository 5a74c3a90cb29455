import BidScope.Core.LTS
import BidScope.L7Delivery.RoundTrip

/-!
# Concurrent persists of one run

Any number of `persist_online_report` calls, each in its own transaction
(READ COMMITTED), with whatever reports they carry.

**Steps of a call.** `find` looks the run's report up; `insert` inserts the
report row: it waits while another transaction holds an uncommitted row of the
run, and raises `IntegrityError` when one is committed; `write` writes the rest
and commits; `retry` is the lookup after an `IntegrityError`. `fail` is a fault
of the environment at any point, `grow` what other code stores meanwhile.
Between `insert` and its commit nothing a call writes is seen by others, so
`write` is one step; the evidence its `SELECT`s saw are earlier states of the
table, which only grows at its end.

**Law.** Once a report is stored,
* it loads as the same report (`PersistLaw.loads`);
* every other call of the run that returned has returned it
  (`PersistLaw.returned`), and none raises any more but by a fault or changes a
  row (`PersistLaw.settled`);
* each unfinished call of the run needs at most two more steps of its own to
  return it (`PersistLaw.progress`).
-/
namespace BidScope.L7

open BidScope.L1 BidScope.L2

structure Call where
  report : Report
  evidenceByHash : EvidenceById
  verifications : List ClaimVerification
  deriving DecidableEq

inductive Phase where
  | asked
  | missed
  | inserted
  | conflicted
  | done (result : Except PersistError PersistedReport)
  deriving DecidableEq

def Phase.finished : Phase → Bool
  | .done _ => true
  | _ => false

/-- `stored` says which call stored the report of a run. -/
structure PState where
  db : Db
  calls : Dict Nat (Call × Phase) := .empty
  stored : Dict Uuid Nat := .empty

inductive PEv where
  | begin (i : Nat) (call : Call)
  | find (i : Nat)
  | insert (i : Nat)
  | write (i : Nat) (draw : Nat → Uuid) (seen : Nat → Nat)
  | retry (i : Nat)
  | fail (i : Nat) (message : String)
  | grow (more : Base)

/-- The call a step is of. -/
def PEv.caller : PEv → Option Nat
  | .begin i _ | .find i | .insert i | .write i _ _ | .retry i | .fail i _ => some i
  | .grow _ => none

def PEv.isFault : PEv → Bool
  | .fail _ _ => true
  | _ => false

def PState.put (s : PState) (i : Nat) (call : Call) (phase : Phase) : PState :=
  { s with calls := s.calls.set i (call, phase) }

variable (pg : Pg)

/-- Another transaction holds an uncommitted report row of the run. -/
def PState.held (s : PState) (run : Uuid) : Bool :=
  s.calls.entries.any fun e => match e.2 with
    | (call, .inserted) => pg.parseUuid call.report.runId == some run
    | _ => false

def findPhase (db : Db) (run : Uuid) : Phase :=
  match findByRunId db.rows run with
  | some row => .done (project pg db row)
  | none => .missed

def insertPhase (db : Db) (run : Uuid) : Phase :=
  match findByRunId db.rows run with
  | some _ => .conflicted
  | none => if run ∈ db.base.runs then .inserted else .conflicted

/-- What the `SELECT`s of a transaction see: earlier states of the table. -/
def envOf (db : Db) (draw : Nat → Uuid) (seen : Nat → Nat) : Env where
  draw := draw
  evidence k := db.base.evidence.take (seen k)

def writeStep (s : PState) (i : Nat) (call : Call) (run : Uuid) (env : Env) : PState :=
  match writeReport pg env call.evidenceByHash run call.report call.verifications with
  | .error e => s.put i call (.done (.error e))
  | .ok t =>
    match commit s.db t with
    | .error _ => s.put i call .conflicted
    | .ok db => {
        db
        calls := s.calls.set i
          (call, .done (.ok ⟨pg.uuidStr t.report.id, call.report, t.report.docxObjectKey⟩))
        stored := s.stored.set run i }

def growBase (base more : Base) : Base where
  runs := base.runs ++ more.runs
  versions := base.versions ++ more.versions
  evidence := base.evidence ++ more.evidence

def pstep (s : PState) : PEv → Option PState
  | .begin i call => if (s.calls.get i).isNone then some (s.put i call .asked) else none
  | .find i =>
    match s.calls.get i with
    | some (call, .asked) =>
      match pg.parseUuid call.report.runId with
      | none => some (s.put i call (.done (.error .data)))
      | some run => some (s.put i call (findPhase pg s.db run))
    | _ => none
  | .insert i =>
    match s.calls.get i with
    | some (call, .missed) =>
      match pg.parseUuid call.report.runId with
      | none => none
      | some run => if s.held pg run then none else some (s.put i call (insertPhase s.db run))
    | _ => none
  | .write i draw seen =>
    match s.calls.get i with
    | some (call, .inserted) =>
      match pg.parseUuid call.report.runId with
      | none => none
      | some run => some (writeStep pg s i call run (envOf s.db draw seen))
    | _ => none
  | .retry i =>
    match s.calls.get i with
    | some (call, .conflicted) =>
      match pg.parseUuid call.report.runId with
      | none => none
      | some run => some (s.put i call (.done (afterIntegrityError pg s.db run)))
    | _ => none
  | .fail i message =>
    match s.calls.get i with
    | some (call, phase) =>
      if phase.finished then none else some (s.put i call (.done (.error (.fault message))))
    | none => none
  | .grow more =>
    if h : Constraints (growBase s.db.base more) s.db.rows then
      some { s with db := ⟨growBase s.db.base more, s.db.rows, h⟩ }
    else none

/-- No report is stored yet and nothing runs. -/
def PStart (s : PState) : Prop := s.db.rows = {} ∧ s.calls = .empty ∧ s.stored = .empty

def plts : LTS PState PEv := LTS.ofFn PStart (pstep pg)

/-! ## What a step can be -/

variable {pg} {s s' : PState} {ev : PEv}

/-- Call `i` moves to `phase`, and nothing is stored. -/
structure Moved (pg : Pg) (s : PState) (ev : PEv) (i : Nat) (call : Call) (phase : Phase) : Prop where
  caller : ev.caller = some i
  unfinished : ∀ c ph, s.calls.get i = some (c, ph) → c = call ∧ ph.finished = false
  inserted : phase = .inserted → ∃ run, pg.parseUuid call.report.runId = some run ∧
    findByRunId s.db.rows run = none ∧ s.held pg run = false
  returned : ∀ p, phase = .done (.ok p) → ∃ run row, pg.parseUuid call.report.runId = some run ∧
    findByRunId s.db.rows run = some row ∧ project pg s.db row = .ok p
  raised : ∀ e, phase = .done (.error e) → ev.isFault = true ∨
    pg.parseUuid call.report.runId = none ∨ s.calls.get i = some (call, .inserted) ∨
    ∃ run, pg.parseUuid call.report.runId = some run ∧
      ∀ row, findByRunId s.db.rows run = some row → project pg s.db row = .error e

/-- Call `i` stores its report. -/
structure Stores (pg : Pg) (s s' : PState) (ev : PEv) (i : Nat) (call : Call) (run : Uuid) :
    Prop where
  caller : ev.caller = some i
  phase : s.calls.get i = some (call, .inserted)
  parsed : pg.parseUuid call.report.runId = some run
  stores : ∃ env t, Stored pg env s.db s'.db run call.report call.verifications t ∧
    s'.calls = s.calls.set i (call, .done (.ok ⟨pg.uuidStr t.report.id, call.report, none⟩)) ∧
    s'.stored = s.stored.set run i

theorem findPhase_moved {i : Nat} {call : Call} {run : Uuid}
    (hget : s.calls.get i = some (call, .asked))
    (hrun : pg.parseUuid call.report.runId = some run) :
    Moved pg s (.find i) i call (findPhase pg s.db run) := by
  have hphase : findPhase pg s.db run = .missed ∨ ∃ row, findByRunId s.db.rows run = some row ∧
      findPhase pg s.db run = .done (project pg s.db row) := by
    unfold findPhase
    cases hrow : findByRunId s.db.rows run with
    | none => exact Or.inl rfl
    | some row => exact Or.inr ⟨row, rfl, rfl⟩
  refine ⟨rfl, fun c ph h => ?_, fun h => ?_, fun p h => ?_, fun e h => ?_⟩
  · rw [hget] at h
    cases h
    exact ⟨rfl, rfl⟩
  · rcases hphase with hm | ⟨row, -, hd⟩
    · rw [hm] at h
      cases h
    · rw [hd] at h
      cases h
  · rcases hphase with hm | ⟨row, hrow, hd⟩
    · rw [hm] at h
      cases h
    · rw [hd, Phase.done.injEq] at h
      exact ⟨run, row, hrun, hrow, h⟩
  · rcases hphase with hm | ⟨row, hrow, hd⟩
    · rw [hm] at h
      cases h
    · rw [hd, Phase.done.injEq] at h
      refine Or.inr (Or.inr (Or.inr ⟨run, hrun, fun row' hrow' => ?_⟩))
      rw [hrow] at hrow'
      cases hrow'
      exact h

theorem insertPhase_moved {i : Nat} {call : Call} {run : Uuid}
    (hget : s.calls.get i = some (call, .missed))
    (hrun : pg.parseUuid call.report.runId = some run) (hheld : s.held pg run = false) :
    Moved pg s (.insert i) i call (insertPhase s.db run) := by
  have hphase : insertPhase s.db run = .conflicted ∨ (findByRunId s.db.rows run = none ∧
      insertPhase s.db run = .inserted) := by
    unfold insertPhase
    cases hrow : findByRunId s.db.rows run with
    | none =>
      by_cases hin : run ∈ s.db.base.runs
      · exact Or.inr ⟨rfl, if_pos hin⟩
      · exact Or.inl (if_neg hin)
    | some row => exact Or.inl rfl
  refine ⟨rfl, fun c ph h => ?_, fun h => ?_, fun p h => ?_, fun e h => ?_⟩
  · rw [hget] at h
    cases h
    exact ⟨rfl, rfl⟩
  · rcases hphase with hc | ⟨hnone, -⟩
    · rw [hc] at h
      cases h
    · exact ⟨run, hrun, hnone, hheld⟩
  · rcases hphase with hc | ⟨-, hi⟩
    · rw [hc] at h
      cases h
    · rw [hi] at h
      cases h
  · rcases hphase with hc | ⟨-, hi⟩
    · rw [hc] at h
      cases h
    · rw [hi] at h
      cases h

theorem retry_moved {i : Nat} {call : Call} {run : Uuid}
    (hget : s.calls.get i = some (call, .conflicted))
    (hrun : pg.parseUuid call.report.runId = some run) :
    Moved pg s (.retry i) i call (.done (afterIntegrityError pg s.db run)) := by
  refine ⟨rfl, fun c ph h => ?_, fun h => ?_, fun p h => ?_, fun e h => ?_⟩
  · rw [hget] at h
    cases h
    exact ⟨rfl, rfl⟩
  · cases h
  · rw [Phase.done.injEq] at h
    unfold afterIntegrityError at h
    split at h
    · cases h
    · rename_i row hrow
      exact ⟨run, row, hrun, hrow, h⟩
  · rw [Phase.done.injEq] at h
    refine Or.inr (Or.inr (Or.inr ⟨run, hrun, fun row hrow => ?_⟩))
    unfold afterIntegrityError at h
    rw [hrow] at h
    exact h

/-- A phase that neither inserts nor returns. -/
theorem other_moved {i : Nat} {call : Call} {phase : Phase} (hcaller : ev.caller = some i)
    (hget : ∀ c ph, s.calls.get i = some (c, ph) → c = call ∧ ph.finished = false)
    (hinserted : phase ≠ .inserted) (hok : ∀ p, phase ≠ .done (.ok p))
    (hraised : ∀ e, phase = .done (.error e) → ev.isFault = true ∨
      pg.parseUuid call.report.runId = none ∨ s.calls.get i = some (call, .inserted)) :
    Moved pg s ev i call phase where
  caller := hcaller
  unfinished := hget
  inserted h := absurd h hinserted
  returned p h := absurd h (hok p)
  raised e h := by
    rcases hraised e h with h | h | h
    · exact Or.inl h
    · exact Or.inr (Or.inl h)
    · exact Or.inr (Or.inr (Or.inl h))

theorem writeStep_cases {i : Nat} {call : Call} {run : Uuid} {draw : Nat → Uuid} {seen : Nat → Nat}
    (hget : s.calls.get i = some (call, .inserted))
    (hrun : pg.parseUuid call.report.runId = some run) :
    (∃ phase, writeStep pg s i call run (envOf s.db draw seen) = s.put i call phase ∧
        Moved pg s (.write i draw seen) i call phase) ∨
      Stores pg s (writeStep pg s i call run (envOf s.db draw seen)) (.write i draw seen) i call
        run := by
  have hunfinished : ∀ c ph, s.calls.get i = some (c, ph) → c = call ∧ ph.finished = false := by
    intro c ph h
    rw [hget] at h
    cases h
    exact ⟨rfl, rfl⟩
  unfold writeStep
  split
  · rename_i e _
    refine Or.inl ⟨_, rfl, other_moved rfl hunfinished (by simp) (by simp) fun _ _ => ?_⟩
    exact Or.inr (Or.inr hget)
  · rename_i t ht
    obtain ⟨hrow, hwritten, -⟩ := writeReport_written ht
    split
    · exact Or.inl ⟨_, rfl, other_moved rfl hunfinished (by simp) (by simp) (by simp)⟩
    · rename_i db hdb
      refine Or.inr ⟨rfl, hget, hrun, envOf s.db draw seen, t,
        ⟨hdb, hrow, hwritten, fun k e he => List.mem_of_mem_take he⟩, ?_, rfl⟩
      rw [hrow]
      rfl

/-- What a step can be. -/
theorem pstep_cases (h : pstep pg s ev = some s') :
    (∃ i call phase, s' = s.put i call phase ∧ Moved pg s ev i call phase) ∨
    (∃ i call run, Stores pg s s' ev i call run) ∨
    (ev.caller = none ∧ Grown s.db s'.db ∧ s'.db.rows = s.db.rows ∧ s'.calls = s.calls ∧
      s'.stored = s.stored) := by
  cases ev with
  | begin i call =>
    simp only [pstep] at h
    split at h
    · rename_i hnone
      cases h
      refine Or.inl ⟨i, call, .asked, rfl, other_moved rfl ?_ (by simp) (by simp) (by simp)⟩
      intro c ph hget
      rw [hget] at hnone
      cases hnone
    · cases h
  | find i =>
    simp only [pstep] at h
    split at h
    · rename_i call hget
      split at h
      · rename_i hparse
        cases h
        refine Or.inl ⟨i, call, _, rfl, other_moved rfl ?_ (by simp) (by simp)
          fun _ _ => Or.inr (Or.inl hparse)⟩
        intro c ph hget'
        rw [hget] at hget'
        cases hget'
        exact ⟨rfl, rfl⟩
      · rename_i run hrun
        cases h
        exact Or.inl ⟨i, call, _, rfl, findPhase_moved hget hrun⟩
    · cases h
  | insert i =>
    simp only [pstep] at h
    split at h
    · rename_i call hget
      split at h
      · cases h
      · rename_i run hrun
        split at h
        · cases h
        · rename_i hheld
          cases h
          exact Or.inl ⟨i, call, _, rfl,
            insertPhase_moved hget hrun (Bool.eq_false_iff.mpr hheld)⟩
    · cases h
  | write i draw seen =>
    simp only [pstep] at h
    split at h
    · rename_i call hget
      split at h
      · cases h
      · rename_i run hrun
        cases h
        rcases writeStep_cases hget hrun with ⟨phase, heq, hmoved⟩ | hstores
        · exact Or.inl ⟨i, call, phase, heq, hmoved⟩
        · exact Or.inr (Or.inl ⟨i, call, run, hstores⟩)
    · cases h
  | retry i =>
    simp only [pstep] at h
    split at h
    · rename_i call hget
      split at h
      · cases h
      · rename_i run hrun
        cases h
        exact Or.inl ⟨i, call, _, rfl, retry_moved hget hrun⟩
    · cases h
  | fail i message =>
    simp only [pstep] at h
    split at h
    · rename_i call phase hget
      split at h
      · cases h
      · rename_i hunfinished
        cases h
        refine Or.inl ⟨i, call, _, rfl, other_moved rfl ?_ (by simp) (by simp)
          fun _ _ => Or.inl rfl⟩
        intro c ph hget'
        rw [hget] at hget'
        cases hget'
        exact ⟨rfl, Bool.eq_false_iff.mpr hunfinished⟩
    · cases h
  | grow more =>
    simp only [pstep] at h
    split at h
    · cases h
      exact Or.inr (Or.inr ⟨rfl, .of_rows rfl ⟨more.evidence, rfl⟩, rfl, rfl, rfl⟩)
    · cases h

/-! ## The invariant -/

/-- The report of the run is stored, and it is the one call `i` carried. -/
def IsStored (pg : Pg) (s : PState) (run : Uuid) (i : Nat) (call : Call) (row : ReportRow) : Prop :=
  s.calls.get i = some (call, .done (.ok ⟨pg.uuidStr row.id, call.report, none⟩)) ∧
    pg.parseUuid call.report.runId = some run ∧ row ∈ s.db.rows.reports ∧ row.runId = run ∧
    project pg s.db row =
      .ok ⟨pg.uuidStr row.id, storedReport pg call.verifications call.report, none⟩

structure PInv (pg : Pg) (s : PState) : Prop where
  held : ∀ i call, s.calls.get i = some (call, .inserted) →
    ∃ run, pg.parseUuid call.report.runId = some run ∧ findByRunId s.db.rows run = none
  single : ∀ i j call call' run, s.calls.get i = some (call, .inserted) →
    s.calls.get j = some (call', .inserted) → pg.parseUuid call.report.runId = some run →
    pg.parseUuid call'.report.runId = some run → i = j
  stored : ∀ run i, s.stored.get run = some i → ∃ call row, IsStored pg s run i call row
  returned : ∀ j call p, s.calls.get j = some (call, .done (.ok p)) →
    ∃ run, pg.parseUuid call.report.runId = some run ∧ (s.stored.get run = some j ∨
      ∃ row ∈ s.db.rows.reports, row.runId = run ∧ project pg s.db row = .ok p)

theorem findByRunId_mem {db : Db} {row : ReportRow} (h : row ∈ db.rows.reports) :
    findByRunId db.rows row.runId = some row :=
  Joins.first_unique db.constraints.reportRunId h

theorem mem_findByRunId {rows : Rows} {run : Uuid} {row : ReportRow}
    (h : findByRunId rows run = some row) : row ∈ rows.reports ∧ row.runId = run :=
  Ledger.first_mem h

theorem held_false {run : Uuid} (h : s.held pg run = false) {i : Nat} {call : Call}
    (hget : s.calls.get i = some (call, .inserted))
    (hrun : pg.parseUuid call.report.runId = some run) : False := by
  have hmem := (Dict.mem_iff_get ..).mpr hget
  have hany := List.any_eq_false.mp h _ hmem
  simp [hrun] at hany

theorem pinv_moved {i : Nat} {call : Call} {phase : Phase} (hI : PInv pg s)
    (hm : Moved pg s ev i call phase) : PInv pg (s.put i call phase) := by
  have hget : ∀ j, (s.put i call phase).calls.get j =
      if i = j then some (call, phase) else s.calls.get j := fun j => Dict.get_set ..
  constructor
  · intro j c h
    rw [hget] at h
    split at h
    · cases h
      obtain ⟨run, hrun, hnone, -⟩ := hm.inserted rfl
      exact ⟨run, hrun, hnone⟩
    · exact hI.held j c h
  · intro j k c c' run hj hk hrun hrun'
    rw [hget] at hj hk
    split at hj
    · rename_i hij
      split at hk
      · rename_i hik
        rw [← hij, ← hik]
      · cases hj
        obtain ⟨run', hparse, -, hheld⟩ := hm.inserted rfl
        rw [hrun, Option.some.injEq] at hparse
        exact (held_false (hparse ▸ hheld) hk hrun').elim
    · split at hk
      · cases hk
        obtain ⟨run', hparse, -, hheld⟩ := hm.inserted rfl
        rw [hrun', Option.some.injEq] at hparse
        exact (held_false (hparse ▸ hheld) hj hrun).elim
      · exact hI.single j k c c' run hj hk hrun hrun'
  · intro run j hj
    obtain ⟨c, row, hcall, hrest⟩ := hI.stored run j hj
    have hne : i ≠ j := by
      intro hij
      rw [← hij] at hcall
      cases (hm.unfinished _ _ hcall).2
    refine ⟨c, row, ?_, hrest⟩
    rw [hget, if_neg hne]
    exact hcall
  · intro j c p h
    rw [hget] at h
    split at h
    · cases h
      obtain ⟨run, row, hrun, hrow, hproject⟩ := hm.returned p rfl
      obtain ⟨hmem, hrowRun⟩ := mem_findByRunId hrow
      exact ⟨run, hrun, Or.inr ⟨row, hmem, hrowRun, hproject⟩⟩
    · exact hI.returned j c p h

/-- A report that is stored stays stored. -/
theorem isStored_grown {run : Uuid} {i : Nat} {call : Call} {row : ReportRow}
    (h : IsStored pg s run i call row) (hg : Grown s.db s'.db)
    (hcall : s'.calls.get i = s.calls.get i) : IsStored pg s' run i call row := by
  obtain ⟨hget, hparse, hmem, hrow, hproject⟩ := h
  obtain ⟨more, hmore, -⟩ := hg.rows
  refine ⟨by rw [hcall, hget], hparse, ?_, hrow, by rw [project_grown hg hmem, hproject]⟩
  rw [hmore]
  exact List.mem_append_left _ hmem

theorem pinv_stores {i : Nat} {call : Call} {run : Uuid} (hI : PInv pg s)
    (hst : Stores pg s s' ev i call run) : PInv pg s' := by
  obtain ⟨env, t, hs, hcalls, hstored⟩ := hst.stores
  have hg : Grown s.db s'.db := grown_of_commit hs.rooted hs.committed
  have hreports : s'.db.rows.reports = s.db.rows.reports ++ [t.report] := by
    rw [(commit_ok hs.committed).2]
    rfl
  have hrun : t.report.runId = run := by
    rw [hs.row]
    rfl
  have hnew : findByRunId s.db.rows run = none := by
    obtain ⟨run', hparse, hnone⟩ := hI.held i call hst.phase
    rw [hst.parsed, Option.some.injEq] at hparse
    rw [hparse]
    exact hnone
  have hget : ∀ j, s'.calls.get j = if i = j then
      some (call, .done (.ok ⟨pg.uuidStr t.report.id, call.report, none⟩)) else s.calls.get j := by
    intro j
    rw [hcalls]
    exact Dict.get_set ..
  have hfinished : ∀ {j c r}, s.calls.get j = some (c, .done r) → i ≠ j := by
    intro j c r hj hij
    rw [← hij, hst.phase] at hj
    cases hj
  constructor
  · intro j c h
    rw [hget] at h
    split at h
    · cases h
    · rename_i hne
      obtain ⟨run', hparse, hnone⟩ := hI.held j c h
      refine ⟨run', hparse, ?_⟩
      have hother : t.report.runId ≠ run' := by
        intro heq
        rw [hrun] at heq
        exact hne (hI.single i j call c run hst.phase h hst.parsed (heq ▸ hparse))
      unfold findByRunId at *
      rw [hreports, List.find?_append, hnone]
      simp [hother]
  · intro j k c c' run' hj hk hr hr'
    rw [hget] at hj hk
    split at hj
    · cases hj
    · split at hk
      · cases hk
      · exact hI.single j k c c' run' hj hk hr hr'
  · intro run' j hj
    rw [hstored, Dict.get_set] at hj
    split at hj
    · rename_i heq
      cases hj
      refine ⟨call, t.report, by rw [hget, if_pos rfl], heq ▸ hst.parsed, ?_, by rw [hrun, heq],
        hs.project_stored hst.parsed⟩
      rw [hreports]
      exact List.mem_append_right _ (List.mem_singleton_self _)
    · obtain ⟨c, row, hold⟩ := hI.stored run' j hj
      refine ⟨c, row, isStored_grown hold hg ?_⟩
      rw [hget, if_neg (hfinished hold.1)]
  · intro j c p h
    rw [hget] at h
    split at h
    · rename_i hij
      cases h
      exact ⟨run, hst.parsed, Or.inl (by rw [hstored, hij]; exact Dict.get_set_self ..)⟩
    · obtain ⟨run', hparse, hor⟩ := hI.returned j c p h
      refine ⟨run', hparse, ?_⟩
      rcases hor with hj | ⟨row, hmem, hrow, hproject⟩
      · obtain ⟨c', row, -, -, hmem, hrow, -⟩ := hI.stored run' j hj
        have hne : run ≠ run' := by
          intro heq
          rw [heq, ← hrow, findByRunId_mem hmem] at hnew
          cases hnew
        exact Or.inl (by rw [hstored, Dict.get_set_ne _ _ hne]; exact hj)
      · refine Or.inr ⟨row, ?_, hrow, by rw [project_grown hg hmem, hproject]⟩
        rw [hreports]
        exact List.mem_append_left _ hmem

theorem pinv_grown (hI : PInv pg s) (hg : Grown s.db s'.db) (hrows : s'.db.rows = s.db.rows)
    (hcalls : s'.calls = s.calls) (hstored : s'.stored = s.stored) : PInv pg s' := by
  constructor
  · intro i call h
    rw [hcalls] at h
    rw [hrows]
    exact hI.held i call h
  · intro i j c c' run hi hj
    rw [hcalls] at hi hj
    exact hI.single i j c c' run hi hj
  · intro run i h
    rw [hstored] at h
    obtain ⟨call, row, hold⟩ := hI.stored run i h
    exact ⟨call, row, isStored_grown hold hg (by rw [hcalls])⟩
  · intro j c p h
    rw [hcalls] at h
    obtain ⟨run, hparse, hor⟩ := hI.returned j c p h
    refine ⟨run, hparse, ?_⟩
    rcases hor with hj | ⟨row, hmem, hrow, hproject⟩
    · exact Or.inl (by rw [hstored]; exact hj)
    · exact Or.inr ⟨row, by rw [hrows]; exact hmem, hrow, by rw [project_grown hg hmem, hproject]⟩

theorem pinv_inductive (pg : Pg) : (plts pg).Inductive (PInv pg) where
  init s h := by
    obtain ⟨-, hcalls, hstored⟩ := h
    constructor
    · intro i call hget
      rw [hcalls] at hget
      cases hget
    · intro i j c c' run hi
      rw [hcalls] at hi
      cases hi
    · intro run i hi
      rw [hstored] at hi
      cases hi
    · intro j c p hj
      rw [hcalls] at hj
      cases hj
  step s ev s' hI h := by
    rcases pstep_cases h with ⟨i, call, phase, rfl, hm⟩ | ⟨i, call, run, hst⟩ |
      ⟨-, hg, hrows, hcalls, hstored⟩
    · exact pinv_moved hI hm
    · exact pinv_stores hI hst
    · exact pinv_grown hI hg hrows hcalls hstored

/-! ## The law -/

structure PersistLaw (pg : Pg) (s : PState) : Prop where
  loads : ∀ run i call phase, s.stored.get run = some i → s.calls.get i = some (call, phase) →
    ∃ p, loadOnlineReport pg s.db call.report.runId = .ok (some p) ∧
      SameReport pg call.verifications call.report p.report
  returned : ∀ run i j call p, s.stored.get run = some i → i ≠ j →
    s.calls.get j = some (call, .done (.ok p)) → pg.parseUuid call.report.runId = some run →
    loadOnlineReport pg s.db call.report.runId = .ok (some p)
  settled : ∀ run i j call phase ev s', s.stored.get run = some i →
    s.calls.get j = some (call, phase) → pg.parseUuid call.report.runId = some run →
    ev.caller = some j → pstep pg s ev = some s' →
    s'.db = s.db ∧ ∀ e, s'.calls.get j = some (call, .done (.error e)) → ev.isFault = true
  progress : ∀ run i j call phase, s.stored.get run = some i →
    s.calls.get j = some (call, phase) → phase.finished = false →
    pg.parseUuid call.report.runId = some run →
    ∃ evs s' p, LTS.exec (pstep pg) s evs = some s' ∧ evs.length ≤ 2 ∧
      (∀ ev ∈ evs, ev.caller = some j ∧ ev.isFault = false) ∧
      s'.calls.get j = some (call, .done (.ok p)) ∧
      loadOnlineReport pg s'.db call.report.runId = .ok (some p)
  kept : ∀ run i ev s', s.stored.get run = some i → pstep pg s ev = some s' →
    s'.stored.get run = some i ∧ s'.calls.get i = s.calls.get i ∧
      ∀ runId, pg.parseUuid runId = some run →
        loadOnlineReport pg s'.db runId = loadOnlineReport pg s.db runId

theorem load_stored {db : Db} {row : ReportRow} {runId : String} {p : PersistedReport}
    (hmem : row ∈ db.rows.reports) (hrun : pg.parseUuid runId = some row.runId)
    (hproject : project pg db row = .ok p) : loadOnlineReport pg db runId = .ok (some p) := by
  unfold loadOnlineReport
  rw [hrun]
  dsimp only
  rw [findByRunId_mem hmem]
  dsimp only
  rw [hproject]

/-- The stored report of a run as every lookup finds it. -/
theorem stored_found (hI : PInv pg s) {run : Uuid} {i : Nat} (h : s.stored.get run = some i) :
    ∃ call row, IsStored pg s run i call row ∧ findByRunId s.db.rows run = some row := by
  obtain ⟨call, row, hst⟩ := hI.stored run i h
  obtain ⟨-, -, hmem, hrow, -⟩ := id hst
  exact ⟨call, row, hst, by rw [← hrow, findByRunId_mem hmem]⟩

/-- Nobody is inserting a report of a run whose report is stored. -/
theorem not_inserting (hI : PInv pg s) {run : Uuid} {row : ReportRow} {j : Nat} {call : Call}
    (hfound : findByRunId s.db.rows run = some row)
    (hrun : pg.parseUuid call.report.runId = some run) :
    s.calls.get j ≠ some (call, .inserted) := by
  intro h
  obtain ⟨run', hparse, hnone⟩ := hI.held j call h
  rw [hrun, Option.some.injEq] at hparse
  rw [← hparse, hfound] at hnone
  cases hnone

theorem held_stored (hI : PInv pg s) {run : Uuid} {row : ReportRow}
    (hfound : findByRunId s.db.rows run = some row) : s.held pg run = false := by
  unfold PState.held
  rw [List.any_eq_false]
  intro e he
  obtain ⟨j, call, phase⟩ := e
  rw [Dict.mem_iff_get] at he
  cases phase with
  | inserted =>
    intro hrun
    exact not_inserting hI hfound (by simpa using hrun) he
  | asked | missed | conflicted | done r => simp

theorem settled_of_inv (hI : PInv pg s) {run : Uuid} {i j : Nat} {call : Call} {phase : Phase}
    (hst : s.stored.get run = some i) (hcall : s.calls.get j = some (call, phase))
    (hrun : pg.parseUuid call.report.runId = some run) (hcaller : ev.caller = some j)
    (hstep : pstep pg s ev = some s') :
    s'.db = s.db ∧ ∀ e, s'.calls.get j = some (call, .done (.error e)) → ev.isFault = true := by
  obtain ⟨c₀, row, hstored, hfound⟩ := stored_found hI hst
  rcases pstep_cases hstep with ⟨k, c, ph, rfl, hm⟩ | ⟨k, c, run', hstores⟩ | ⟨hnone, -⟩
  · refine ⟨rfl, fun e he => ?_⟩
    have hk : k = j := Option.some.inj (hm.caller.symm.trans hcaller)
    subst hk
    obtain ⟨rfl, -⟩ := hm.unfinished _ _ hcall
    have hphase : ph = .done (.error e) := by
      have hput : (s.put k call ph).calls.get k = some (call, ph) := Dict.get_set_self ..
      rw [hput] at he
      exact (Prod.mk.inj (Option.some.inj he)).2
    rcases hm.raised e hphase with hfault | hparse | hins | ⟨run', hparse, herr⟩
    · exact hfault
    · rw [hrun] at hparse
      cases hparse
    · exact absurd hins (not_inserting hI hfound hrun)
    · rw [hrun, Option.some.injEq] at hparse
      have hbad := herr row (hparse ▸ hfound)
      rw [hstored.2.2.2.2] at hbad
      cases hbad
  · have hk : k = j := Option.some.inj (hstores.caller.symm.trans hcaller)
    subst hk
    have hsame := hstores.phase
    rw [hcall] at hsame
    cases hsame
    exact absurd hcall (not_inserting hI hfound hrun)
  · rw [hcaller] at hnone
    cases hnone

theorem progress_of_inv (hI : PInv pg s) {run : Uuid} {i j : Nat} {call : Call} {phase : Phase}
    (hst : s.stored.get run = some i) (hcall : s.calls.get j = some (call, phase))
    (hphase : phase.finished = false) (hrun : pg.parseUuid call.report.runId = some run) :
    ∃ evs s' p, LTS.exec (pstep pg) s evs = some s' ∧ evs.length ≤ 2 ∧
      (∀ ev ∈ evs, ev.caller = some j ∧ ev.isFault = false) ∧
      s'.calls.get j = some (call, .done (.ok p)) ∧
      loadOnlineReport pg s'.db call.report.runId = .ok (some p) := by
  obtain ⟨c₀, row, ⟨-, -, hmem, hrow, hproject⟩, hfound⟩ := stored_found hI hst
  have hload := load_stored hmem (hrow ▸ hrun) hproject
  cases phase with
  | asked =>
    refine ⟨[.find j], s.put j call (findPhase pg s.db run), _, ?_, by simp, by simp [PEv.caller,
      PEv.isFault], ?_, hload⟩
    · simp only [LTS.exec, pstep, hcall, hrun, Option.bind_some]
    · have hfind : findPhase pg s.db run = .done (project pg s.db row) := by
        unfold findPhase
        rw [hfound]
      rw [hfind, hproject]
      exact Dict.get_set_self ..
  | missed =>
    have hinsert : insertPhase s.db run = .conflicted := by
      unfold insertPhase
      rw [hfound]
    have hget : (s.put j call .conflicted).calls.get j = some (call, .conflicted) :=
      Dict.get_set_self ..
    refine ⟨[.insert j, .retry j], (s.put j call .conflicted).put j call
      (.done (afterIntegrityError pg s.db run)), _, ?_, by simp, by simp [PEv.caller, PEv.isFault],
      ?_, hload⟩
    · simp only [LTS.exec, pstep, hcall, hrun, held_stored hI hfound, hinsert, Bool.false_eq_true,
        if_false, Option.bind_some, hget]
      rfl
    · have hretry : afterIntegrityError pg s.db run = project pg s.db row := by
        unfold afterIntegrityError
        rw [hfound]
      rw [hretry, hproject]
      exact Dict.get_set_self ..
  | inserted => exact absurd hcall (not_inserting hI hfound hrun)
  | conflicted =>
    refine ⟨[.retry j], s.put j call (.done (afterIntegrityError pg s.db run)), _, ?_, by simp,
      by simp [PEv.caller, PEv.isFault], ?_, hload⟩
    · simp only [LTS.exec, pstep, hcall, hrun, Option.bind_some]
    · have hretry : afterIntegrityError pg s.db run = project pg s.db row := by
        unfold afterIntegrityError
        rw [hfound]
      rw [hretry, hproject]
      exact Dict.get_set_self ..
  | done r => cases hphase

theorem kept_of_inv (hI : PInv pg s) {run : Uuid} {i : Nat} (hst : s.stored.get run = some i)
    (hstep : pstep pg s ev = some s') :
    s'.stored.get run = some i ∧ s'.calls.get i = s.calls.get i ∧
      ∀ runId, pg.parseUuid runId = some run →
        loadOnlineReport pg s'.db runId = loadOnlineReport pg s.db runId := by
  obtain ⟨call, row, ⟨hget, -, hmem, hrow, hproject⟩, hfound⟩ := stored_found hI hst
  have hload : ∀ {s'' : PState}, Grown s.db s''.db → ∀ runId, pg.parseUuid runId = some run →
      loadOnlineReport pg s''.db runId = loadOnlineReport pg s.db runId := by
    intro s'' hg runId hparse
    obtain ⟨more, hmore, -⟩ := hg.rows
    have hmem' : row ∈ s''.db.rows.reports := by
      rw [hmore]
      exact List.mem_append_left _ hmem
    rw [load_stored hmem (hrow ▸ hparse) hproject,
      load_stored hmem' (hrow ▸ hparse) (by rw [project_grown hg hmem, hproject])]
  rcases pstep_cases hstep with ⟨k, c, ph, rfl, hm⟩ | ⟨k, c, run', hstores⟩ |
    ⟨-, hg, -, hcalls, hstored⟩
  · refine ⟨hst, ?_, fun _ _ => rfl⟩
    have hne : k ≠ i := by
      intro hki
      rw [← hki] at hget
      cases (hm.unfinished _ _ hget).2
    exact Dict.get_set_ne _ _ hne
  · obtain ⟨env, t, hs, hcalls, hstored⟩ := hstores.stores
    have hrun' : run' ≠ run := by
      intro heq
      exact not_inserting hI hfound (heq ▸ hstores.parsed) hstores.phase
    have hne : k ≠ i := by
      intro hki
      rw [← hki, hstores.phase] at hget
      cases hget
    refine ⟨?_, ?_, hload (grown_of_commit hs.rooted hs.committed)⟩
    · rw [hstored, Dict.get_set_ne _ _ hrun']
      exact hst
    · rw [hcalls]
      exact Dict.get_set_ne _ _ hne
  · exact ⟨by rw [hstored]; exact hst, by rw [hcalls], hload hg⟩

/-- The report of every stored run is a tree its call wrote, and the tables
have only grown since. -/
def Written (pg : Pg) (s : PState) : Prop :=
  ∀ run i call phase, s.stored.get run = some i → s.calls.get i = some (call, phase) →
    ∃ env t before after, Stored pg env before after run call.report call.verifications t ∧
      Grown after s.db

theorem written_inductive (pg : Pg) : (plts pg).Inductive fun s => PInv pg s ∧ Written pg s := by
  refine (pinv_inductive pg).and ?_ ?_
  · intro s hinit run i call phase hst
    obtain ⟨-, -, hstored⟩ := hinit
    rw [hstored] at hst
    cases hst
  · intro s ev s' hI hW hstep run i call phase hst hcall
    have hkept : s.stored.get run = some i → Grown s.db s'.db →
        ∃ env t before after, Stored pg env before after run call.report call.verifications t ∧
          Grown after s'.db := by
      intro hold hg
      rw [(kept_of_inv hI hold hstep).2.1] at hcall
      obtain ⟨env, t, before, after, hs, hafter⟩ := hW run i call phase hold hcall
      exact ⟨env, t, before, after, hs, hafter.trans hg⟩
    rcases pstep_cases hstep with ⟨k, c, ph, rfl, -⟩ | ⟨k, c, run', hstores⟩ |
      ⟨-, hg, -, -, hstored⟩
    · exact hkept hst (.refl _)
    · obtain ⟨env, t, hs, hcalls, hstored⟩ := hstores.stores
      rw [hstored, Dict.get_set] at hst
      split at hst
      · rename_i heq
        obtain rfl := Option.some.inj hst
        rw [hcalls, Dict.get_set_self] at hcall
        obtain ⟨rfl, -⟩ := Prod.mk.inj (Option.some.inj hcall)
        subst heq
        exact ⟨env, t, s.db, s'.db, hs, .refl _⟩
      · exact hkept hst (grown_of_commit hs.rooted hs.committed)
    · rw [hstored] at hst
      exact hkept hst hg

/-- The row of a tree written before. -/
theorem Stored.found {env : Env} {run : Uuid} {report : Report} {vs : List ClaimVerification}
    {t : ReportRows} {before after db : Db} (hs : Stored pg env before after run report vs t)
    (hg : Grown after db) :
    t.report ∈ after.rows.reports ∧ findByRunId db.rows run = some t.report := by
  have hmem : t.report ∈ after.rows.reports := by
    rw [(commit_ok hs.committed).2]
    exact List.mem_append_right _ (List.mem_singleton_self _)
  obtain ⟨more, hmore, -⟩ := hg.rows
  have hrun : t.report.runId = run := by
    rw [hs.row]
    rfl
  have hmem' : t.report ∈ db.rows.reports := by
    rw [hmore]
    exact List.mem_append_left _ hmem
  exact ⟨hmem, hrun ▸ findByRunId_mem hmem'⟩

theorem Stored.loaded {env : Env} {run : Uuid} {report : Report} {vs : List ClaimVerification}
    {t : ReportRows} {before after db : Db} (hs : Stored pg env before after run report vs t)
    (hg : Grown after db) (hrun : pg.parseUuid report.runId = some run) :
    loadOnlineReport pg db report.runId =
      .ok (some ⟨pg.uuidStr t.report.id, storedReport pg vs report, none⟩) := by
  obtain ⟨hmem, hfound⟩ := hs.found hg
  unfold loadOnlineReport
  simp only [hrun, hfound, project_grown hg hmem, hs.project_stored hrun]

/-- A stored report's call named its run. -/
theorem parsed_stored (hI : PInv pg s) {run : Uuid} {i : Nat} {call : Call} {phase : Phase}
    (hst : s.stored.get run = some i) (hcall : s.calls.get i = some (call, phase)) :
    pg.parseUuid call.report.runId = some run := by
  obtain ⟨c, row, hget, hparse, -⟩ := hI.stored run i hst
  rw [hcall] at hget
  cases hget
  exact hparse

/-- In every state reached, whatever calls race and whatever fails: a stored
report loads as the same report, every call of its run that returns returns it,
and none changes a row. -/
theorem persist_roundTrip (pg : Pg) (s : PState) (h : (plts pg).Reachable s) : PersistLaw pg s := by
  have hI := (pinv_inductive pg).reachable s h
  constructor
  · intro run i call phase hst hcall
    obtain ⟨c, row, ⟨hget, hparse, hmem, hrow, hproject⟩, -⟩ := stored_found hI hst
    rw [hcall] at hget
    cases hget
    exact ⟨_, load_stored hmem (hrow ▸ hparse) hproject,
      sameReport_stored pg call.verifications call.report⟩
  · intro run i j call p hst hne hcall hparse
    obtain ⟨c, row, ⟨-, -, hmem, hrow, hproject⟩, -⟩ := stored_found hI hst
    obtain ⟨run', hparse', hor⟩ := hI.returned j call p hcall
    rw [hparse, Option.some.injEq] at hparse'
    subst hparse'
    rcases hor with hj | ⟨row', hmem', hrow', hproject'⟩
    · rw [hst, Option.some.injEq] at hj
      exact absurd hj hne
    · exact load_stored hmem' (hrow' ▸ hparse) hproject'
  · intro run i j call phase ev s' hst hcall hrun hcaller hstep
    exact settled_of_inv hI hst hcall hrun hcaller hstep
  · intro run i j call phase hst hcall hphase hrun
    exact progress_of_inv hI hst hcall hphase hrun
  · intro run i ev s' hst hstep
    exact kept_of_inv hI hst hstep

/-! ## Uuids in hexadecimal, and two calls -/

def hexValue (c : Char) : Option Nat :=
  if '0' ≤ c ∧ c ≤ '9' then some (c.toNat - 48)
  else if 'a' ≤ c ∧ c ≤ 'f' then some (c.toNat - 87)
  else if 'A' ≤ c ∧ c ≤ 'F' then some (c.toNat - 55)
  else none

def hexDigit (n : Nat) : Char := .ofNat (if n < 10 then 48 + n else 87 + n)

/-- Digits of either case are read, and written in lower case with hyphens. -/
def hexPg : Pg where
  parseUuid text :=
    let digits := text.toList.filter (· ≠ '-')
    if digits.length = 32 then
      digits.foldl (fun n c => n.bind fun n => (hexValue c).map (16 * n + ·)) (some 0)
    else none
  uuidStr n :=
    let digits := (List.range 32).map fun i => hexDigit (n / 16 ^ (31 - i) % 16)
    .ofList (digits.take 8 ++ '-' :: (digits.drop 8).take 4 ++ '-' :: (digits.drop 12).take 4 ++
      '-' :: (digits.drop 16).take 4 ++ '-' :: digits.drop 20)
  jsonKeys es := es
  jsonPerm es := .refl es

/-- Run 10 and notice version 11. -/
def demoDb : Db where
  base := ⟨[10], [11], []⟩
  rows := {}
  constraints := by decide +kernel

def demoStart : PState := { db := demoDb }

def demoReport (citations : List ReportCitation) : Report where
  runId := "00000000-0000-0000-0000-00000000000a"
  generatedAt := ⟨0, 0⟩
  queryConditions := []
  items := [{
    noticeId := "00000000-0000-0000-0000-00000000000B"
    title := "road works"
    citations }]

/-- The first call cites a span nobody supplied. -/
def unboundCall : Call := ⟨demoReport [{ evidenceId := "h" }], .empty, []⟩

def plainCall : Call := ⟨demoReport [], .empty, []⟩

/-- Both look the report up before either inserts; the first inserts first. -/
def bothBegin : List PEv := [.begin 0 unboundCall, .begin 1 plainCall]

def race : List PEv :=
  [.find 0, .find 1, .insert 0, .write 0 (100 + ·) id, .insert 1, .write 1 (200 + ·) id]

def bothBegun : PState := (LTS.exec (pstep hexPg) demoStart bothBegin).getD demoStart

def raceEnd : PState := (LTS.exec (pstep hexPg) bothBegun race).getD demoStart

theorem bothBegun_eq : LTS.exec (pstep hexPg) demoStart bothBegin = some bothBegun := by
  have hsome : (LTS.exec (pstep hexPg) demoStart bothBegin).isSome = true := by decide +kernel
  obtain ⟨s, hs⟩ := Option.isSome_iff_exists.mp hsome
  rw [bothBegun, hs]
  rfl

theorem raceEnd_eq : LTS.exec (pstep hexPg) bothBegun race = some raceEnd := by
  have hsome : (LTS.exec (pstep hexPg) bothBegun race).isSome = true := by decide +kernel
  obtain ⟨s, hs⟩ := Option.isSome_iff_exists.mp hsome
  rw [raceEnd, hs]
  rfl

theorem bothBegun_reachable : (plts hexPg).Reachable bothBegun :=
  ⟨demoStart, bothBegin, ⟨rfl, rfl, rfl⟩, LTS.run_of_exec bothBegin bothBegun_eq⟩

theorem raceEnd_run : (plts hexPg).Run bothBegun race raceEnd := LTS.run_of_exec race raceEnd_eq

theorem bothBegun_calls : bothBegun.calls.get 0 = some (unboundCall, .asked) ∧
    bothBegun.calls.get 1 = some (plainCall, .asked) := by
  decide +kernel

theorem raceEnd_calls : raceEnd.stored.get 10 = some 1 ∧
    raceEnd.calls.get 0 = some (unboundCall, .done (.error (.delivery
      "report citation is not bound to this notice version"))) ∧
    raceEnd.calls.get 1 = some (plainCall, .done (.ok
      ⟨"00000000-0000-0000-0000-0000000000c8", plainCall.report, none⟩)) := by
  decide +kernel

theorem raceEnd_reachable : (plts hexPg).Reachable raceEnd := bothBegun_reachable.run raceEnd_run

/-! ## A cited report, and two calls that return it -/

def budgetSpan : NoticeEvidence :=
  ⟨"00000000-0000-0000-0000-00000000000b", "Budget 100", 0, 10, "h", by decide, by decide⟩

def closingSpan : NoticeEvidence :=
  ⟨"00000000-0000-0000-0000-00000000000b", "Closes Friday", 11, 24, "g", by decide, by decide⟩

/-- Both spans are stored, the later one first. -/
def citedDb : Db where
  base := ⟨[10], [11], [⟨32, 11, "Closes Friday", 11, 24, "g"⟩, ⟨31, 11, "Budget 100", 0, 10, "h"⟩]⟩
  rows := {}
  constraints := by decide +kernel

theorem cites_both : ["g", "h"] ≠ [] ∧ ["g", "h"].Nodup := by decide

theorem cites_budget : ["h"] ≠ [] ∧ ["h"].Nodup := by decide

def citedClaims : List ReportClaim :=
  [⟨"A budget of 100 until Friday", ["g", "h"], none, cites_both.1, cites_both.2⟩,
    ⟨"A budget of 100", ["h"], none, cites_budget.1, cites_budget.2⟩]

def citedItem : ReportItem where
  noticeId := "00000000-0000-0000-0000-00000000000b"
  title := "road works"
  knownFields := [("budget", "100"), ("region", "north")]
  citations := [{ evidenceId := "h", label := some "budget" }, { evidenceId := "g" }]
  claims := citedClaims

theorem uncertain_texts : strip "no sum" ≠ "" ∧ strip "v1" ≠ "" := by decide +kernel

/-- The second claim's verdict. -/
def uncertainVerdict : ClaimSupportVerification where
  status := .uncertain
  rationale := "no sum"
  evidenceIdsUsed := ["h"]
  conflictEvidenceIds := []
  verifierVersion := "v1"
  rationaleNonblank := uncertain_texts.1
  versionNonblank := uncertain_texts.2
  conflictsUnsupported := fun _ => rfl
  conflictsUsed := by simp

def citedCall : Call where
  report := { demoReport [] with items := [citedItem] }
  evidenceByHash := (Dict.empty.set "h" (.one budgetSpan)).set "g" (.one closingSpan)
  verifications := [⟨citedItem.noticeId, 1, uncertainVerdict⟩]

/-- Call 1 misses the report and inserts after it; call 2 comes later. -/
def citedRun : List PEv :=
  [.begin 0 citedCall, .begin 1 plainCall, .find 0, .find 1, .insert 0, .write 0 (100 + ·) (fun _ => 2),
    .insert 1, .retry 1, .begin 2 unboundCall, .find 2]

def citedEnd : PState := (LTS.exec (pstep hexPg) { db := citedDb } citedRun).getD demoStart

theorem citedEnd_reachable : (plts hexPg).Reachable citedEnd := by
  have hsome : (LTS.exec (pstep hexPg) { db := citedDb } citedRun).isSome = true := by decide +kernel
  obtain ⟨s, hs⟩ := Option.isSome_iff_exists.mp hsome
  have hend : citedEnd = s := by
    rw [citedEnd, hs]
    rfl
  rw [hend]
  exact ⟨{ db := citedDb }, citedRun, ⟨rfl, rfl, rfl⟩, LTS.run_of_exec citedRun hs⟩

/-- The report the three calls returned: the second claim has its verdict's status. -/
theorem citedEnd_calls : citedEnd.stored.get 10 = some 0 ∧
    (citedEnd.calls.get 1).map (·.2) = some (.done (.ok
      ⟨"00000000-0000-0000-0000-000000000064", storedReport hexPg citedCall.verifications
        citedCall.report, none⟩)) ∧
    (citedEnd.calls.get 2).map (·.2) = (citedEnd.calls.get 1).map (·.2) := by
  decide +kernel

/-- The law after a race for a report with claims and citations, which a call
that inserted later and a call that came later return. -/
theorem race_roundTrip : PersistLaw hexPg citedEnd ∧
    (citedEnd.calls.get 1).map (·.2) = some (.done (.ok
      ⟨"00000000-0000-0000-0000-000000000064", storedReport hexPg citedCall.verifications
        citedCall.report, none⟩)) ∧
    (citedEnd.calls.get 2).map (·.2) = (citedEnd.calls.get 1).map (·.2) :=
  ⟨persist_roundTrip hexPg citedEnd citedEnd_reachable, citedEnd_calls.2⟩

/-- A stored report loads as it was given, its ids as they were spelled. -/
def LoadsExactly (pg : Pg) : Prop :=
  ∀ s, (plts pg).Reachable s → ∀ run i call phase, s.stored.get run = some i →
    s.calls.get i = some (call, phase) →
    ∃ p, loadOnlineReport pg s.db call.report.runId = .ok (some p) ∧
      SameReport pg call.verifications call.report p.report ∧
      p.report.runId = call.report.runId ∧
      p.report.items.map (·.noticeId) = call.report.items.map (·.noticeId)

/-- Of two calls of a run that ran beside each other without a fault, one of
which stored its report, the other returned it if it ended. -/
def ConcurrentReturn (pg : Pg) : Prop :=
  ∀ s₀ evs s, (plts pg).Reachable s₀ → (plts pg).Run s₀ evs s → (∀ ev ∈ evs, ev.isFault = false) →
    ∀ run i j call call' phase phase' r, s₀.calls.get i = some (call, phase) →
      phase.finished = false → s₀.calls.get j = some (call', phase') → phase'.finished = false →
      pg.parseUuid call'.report.runId = some run → s.stored.get run = some i →
      s.calls.get j = some (call', .done r) →
      ∃ p, r = .ok p ∧ loadOnlineReport pg s.db call'.report.runId = .ok (some p)

/-- The notice id comes back in lower case; and the call that inserted first
raised before the other stored its report. -/
theorem race_not_exact : ¬ LoadsExactly hexPg ∧ ¬ ConcurrentReturn hexPg := by
  obtain ⟨hstored, hfirst, hsecond⟩ := raceEnd_calls
  constructor
  · intro h
    obtain ⟨p, hload, -, -, hids⟩ := h raceEnd raceEnd_reachable 10 1 plainCall _ hstored hsecond
    have hlower : ((loadOnlineReport hexPg raceEnd.db plainCall.report.runId).toOption.map
        fun p => p.map fun p => p.report.items.map (·.noticeId)) =
        some (some ["00000000-0000-0000-0000-00000000000b"]) := by
      decide +kernel
    rw [hload] at hlower
    have hids' : p.report.items.map (·.noticeId) = ["00000000-0000-0000-0000-00000000000b"] :=
      Option.some.inj (Option.some.inj hlower)
    rw [hids] at hids'
    revert hids'
    decide +kernel
  · intro h
    obtain ⟨p, hok, -⟩ := h bothBegun race raceEnd bothBegun_reachable raceEnd_run
      (by simp [race, PEv.isFault]) 10 1 0 plainCall unboundCall _ _ _ bothBegun_calls.2 rfl
      bothBegun_calls.1 rfl (by decide +kernel) hstored hfirst
    cases hok

end BidScope.L7
