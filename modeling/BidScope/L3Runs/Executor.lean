import Mathlib.Data.List.Infix
import BidScope.Core.PyValue
import BidScope.L2Graph.Builder

/-!
# Executing a run

`graph/executor.py`: one execution of a run drives the graph and copies its
node events into the relational log. Two stores advance on their own: the
checkpoint, which LangGraph writes in the background after each superstep, and
the log, appended when the superstep's state is consumed.

`Exec` is the state of one `execute` call, `step` its atomic pieces in the
order the code makes them:
* `nextSeq` (force-fresh only): read the base of the new attempt;
* `write`: the oldest pending checkpoint mutation reaches the store: the
  deletion of the thread, or the checkpoint of a superstep;
* `reconcile`: align the cursor with the log and open the stream, or return
  the values of a finished graph;
* `superstep`, `emit`: LangGraph yields a state after each superstep and waits
  while the consumer appends its events; the checkpoint may land before or
  after;
* `finish`: the stream has ended and every checkpoint has landed.

A step that the code answers with an exception is not a step: the call is then
over (`Attempts`, `Service`). The recursion limit is never met
(`L2.rank_le`) and the wall-clock columns of a row are left out: nothing reads
them back.
-/
namespace BidScope.L3

open BidScope.L1 BidScope.L2

/-- A row of `run_events` of the run.
mirrors persistence/models.py:185-206 -/
structure EventRow (V : Type) where
  seq : Nat
  node : String
  event : String
  status : String
  message : Option String
  details : List (String × V)
  deriving DecidableEq, Repr

abbrev RunEvent := EventRow Detail

/-- The values of details, as Python has them. -/
class PyDetail (V : Type) where
  value : V → PyValue

instance : PyDetail PyValue := ⟨id⟩

def detailValue : Detail → PyValue
  | .int n => .int n
  | .bool b => .bool b
  | .str s => .str s
  | .strs l => .list (l.map .str)

instance : PyDetail Detail := ⟨detailValue⟩

/-- Details as `==` compares them: dicts, so in any order. -/
abbrev Fingerprint := String × String × String × Option String × PyValue.Canon

section
variable {V : Type} [PyDetail V]

def comparedDetails (details : List (String × V)) : PyValue.Canon :=
  (PyValue.dict (details.map fun e => (e.1, PyDetail.value e.2))).canon

/-- mirrors graph/executor.py:310-326, of a streamed event -/
def fingerprint (e : NodeEventOf V) : Fingerprint :=
  (e.node, e.event, e.status, e.message, comparedDetails e.details)

/-- mirrors graph/executor.py:310-326, of a stored row -/
def EventRow.fingerprint (r : EventRow V) : Fingerprint :=
  (r.node, r.event, r.status, r.message, comparedDetails r.details)

end

abbrev Log := List RunEvent

variable {V : Type}

/-- mirrors graph/executor.py:301-307 -/
def maxEventSeq (log : List (EventRow V)) : Option Nat := (log.map (·.seq)).max?

/-- mirrors graph/executor.py:430-436 -/
def nextEventSeq (log : Log) : Nat :=
  match maxEventSeq log with
  | some maximum => maximum + 1
  | none => 0

/-- mirrors graph/executor.py:283-298 -/
def eventRows (log : List (EventRow V)) (seqStart : Nat) (seqEnd : Option Nat) : List (EventRow V) :=
  log.filter fun r => seqStart ≤ r.seq && seqEnd.all (r.seq ≤ ·)

/-- `by_seq.get(seq)`; sequences are unique in the table. -/
def bySeq (rows : List (EventRow V)) (seq : Nat) : Option (EventRow V) := rows.find? (·.seq == seq)

/-! ## Reconciliation -/

section
variable [PyDetail V]

/-- The loop over a legacy checkpoint's events from `index` on. -/
def legacyScan (rows : List (EventRow V)) : Nat → List (NodeEventOf V) → Except String Unit
  | _, [] => .ok ()
  | index, e :: es =>
    match bySeq rows index with
    | none => .error ("legacy checkpoint is missing relational sequence " ++ toString index)
    | some row =>
      if row.fingerprint ≠ fingerprint e then
        .error ("legacy checkpoint conflicts at relational sequence " ++ toString index)
      else legacyScan rows (index + 1) es

/-- The branch of a checkpoint without an attempt base.
mirrors graph/executor.py:344-373 -/
def reconcileLegacy (events : List (NodeEventOf V)) (log : List (EventRow V)) : Except String (Nat × Nat) :=
  if events.isEmpty then
    if (maxEventSeq log).isSome then
      .error "legacy checkpoint has no events but relational history is non-empty"
    else .ok (0, 0)
  else
    match legacyScan (eventRows log 0 (some (events.length - 1))) 0 events with
    | .error e => .error e
    | .ok () =>
      if (maxEventSeq log).any (events.length ≤ ·) then
        .error ("legacy relational event history has trailing sequence " ++
          toString events.length)
      else .ok (events.length, 0)

/-- The count of events matched from `seq` on; a missing row ends the count. -/
def scan (rows : List (EventRow V)) (requireComplete : Bool) :
    Nat → List (NodeEventOf V) → Except String Nat
  | _, [] => .ok 0
  | seq, e :: es =>
    match bySeq rows seq with
    | none =>
      if requireComplete then
        .error ("relational event history is missing expected sequence " ++ toString seq)
      else .ok 0
    | some row =>
      if row.fingerprint ≠ fingerprint e then
        .error ("checkpoint event conflicts at relational sequence " ++ toString seq)
      else
        match scan rows requireComplete (seq + 1) es with
        | .error e => .error e
        | .ok n => .ok (n + 1)

/-- mirrors graph/executor.py:329-414; a sequence is a natural number, so an
offset is never negative. -/
def reconcileEventCursor (events : List (NodeEventOf V)) (log : List (EventRow V)) (offset : Option Nat)
    (requireComplete : Bool) : Except String (Nat × Nat) :=
  match offset with
  | none => reconcileLegacy events log
  | some offset =>
    let rows := eventRows log offset none
    let last := maxEventSeq rows
    match last.bind fun m =>
        (List.range' offset (m + 1 - offset)).find? fun seq => (bySeq rows seq).isNone with
    | some missing =>
      .error ("relational event history skips expected sequence " ++ toString missing)
    | none =>
      match scan rows requireComplete offset events with
      | .error e => .error e
      | .ok matched =>
        if last.any (offset + events.length ≤ ·) then
          .error ("relational event history has trailing sequence " ++
            toString (offset + events.length))
        else .ok (matched, offset)

end

/-- The rows `_append_events` adds for the events from number `index` on.
mirrors graph/executor.py:646-660 -/
def eventRowsOf (seqOffset : Nat) : Nat → List (NodeEventOf V) → List (EventRow V)
  | _, [] => []
  | index, e :: es =>
    ⟨seqOffset + index, e.node, e.event, e.status, e.message, e.details⟩ ::
      eventRowsOf seqOffset (index + 1) es

/-- The insert of `events[start:]`; the unique constraint on the sequence
rejects a repeated one. -/
def appendEvents (log : List (EventRow V)) (events : List (NodeEventOf V)) (start seqOffset : Nat) :
    Option (List (EventRow V)) :=
  let rows := eventRowsOf seqOffset start (events.drop start)
  if rows.any fun r => log.any (·.seq == r.seq) then none else some (log ++ rows)

/-! ## One execution -/

structure Store where
  log : Log := []
  ckpt : Option Config := none
  deriving DecidableEq

/-- The `input` and `force_fresh` of a call. -/
inductive Mode where
  | start (userRequest : String)
  | resume
  | forceFresh (userRequest : String)
  deriving DecidableEq, Repr

/-- `puts` are the checkpoints not yet written, oldest first; `yielded` says
that the consumer has not yet taken the current state. -/
structure Stream where
  cfg : Config
  persisted : Nat
  seqOffset : Nat
  yielded : Bool
  halted : Bool := false
  puts : List Config
  deriving DecidableEq

inductive Exec where
  | opened (existing : Option Config)
  | resetting (existing : Option Config) (freshOffset : Nat)
  | ready (existing : Option Config) (freshOffset : Option Nat)
  | streaming (st : Stream)
  | returned (values : RunState)
  deriving DecidableEq

inductive XEv where
  | nextSeq
  | write
  | reconcile
  | superstep (p : Ports)
  | emit
  | finish

/-- `existing = await graph.aget_state(config)` -/
def load (s : Store) : Mode → Exec
  | .forceFresh _ => .opened s.ckpt
  | .start _ | .resume => .ready s.ckpt none

/-- The config a new input starts from: the values the thread holds, and the
input pending. -/
def inputConfig (runId userRequest : String) (ckpt : Option Config) (offset : Option Nat) :
    Config where
  values := (ckpt.map (·.values)).getD {}
  next := some .start
  input := some ⟨userRequest, runId, offset⟩

/-- What the cursor is aligned with: the checkpoint's events, the attempt's
base and whether the graph has finished.
mirrors graph/executor.py:514-522 -/
def cursorArgs (existing : Option Config) (freshOffset : Option Nat) :
    List NodeEvent × Option Nat × Bool :=
  match freshOffset, existing with
  | some offset, _ => ([], some offset, false)
  | none, none => ([], some 0, false)
  | none, some c => (c.values.nodeEvents, c.values.eventSeqOffset, c.next.isNone)

/-- mirrors graph/executor.py:526-540 -/
def openStream (runId : String) (mode : Mode) (s : Store) (existing : Option Config)
    (freshOffset : Option Nat) : Option Exec :=
  let (events, offset, finished) := cursorArgs existing freshOffset
  match reconcileEventCursor events s.log offset finished with
  | .error _ => none
  | .ok (persisted, seqOffset) =>
    match finished, existing, mode with
    | true, some c, _ => some (.returned c.values)
    | _, _, .start userRequest | _, _, .forceFresh userRequest =>
      let cfg := inputConfig runId userRequest s.ckpt offset
      some (.streaming { cfg, persisted, seqOffset, yielded := false, puts := [cfg] })
    -- the graph reads its checkpoint again, and first yields the values it resumes from
    | _, _, .resume =>
      s.ckpt.map fun c =>
        .streaming { cfg := c, persisted, seqOffset, yielded := true, puts := [] }

variable (lib : Lib) (runId : String) (mode : Mode)

def Stream.superstep (st : Stream) (p : Ports) : Option Stream :=
  if st.yielded || st.halted then none
  else
    match st.cfg.next with
    | none => none
    | some n =>
      match (nodeFn lib p st.cfg.values n).result with
      | .error _ => none
      | .ok u =>
        let cfg := advance n st.cfg u
        some { st with cfg, yielded := true, halted := n == .pause, puts := st.puts ++ [cfg] }

/-- mirrors graph/executor.py:546-572 -/
def Stream.emit (st : Stream) (log : Log) : Option (Log × Stream) :=
  let events := st.cfg.values.nodeEvents
  if st.yielded then
    if st.persisted < events.length then
      (appendEvents log events st.persisted st.seqOffset).map fun log' =>
        (log', { st with persisted := events.length, yielded := false })
    else some (log, { st with yielded := false })
  else none

/-- The stream has nothing more to run or to write. -/
def Stream.over (st : Stream) : Bool :=
  !st.yielded && st.puts.isEmpty && (st.halted || st.cfg.next.isNone)

def Exec.step (s : Store) : Exec → XEv → Option (Store × Exec)
  | .opened existing, .nextSeq => some (s, .resetting existing (nextEventSeq s.log))
  | .resetting existing offset, .write =>
    some ({ s with ckpt := none }, .ready existing (some offset))
  | .ready existing freshOffset, .reconcile =>
    (openStream runId mode s existing freshOffset).map fun x => (s, x)
  | .streaming st, .write =>
    match st.puts with
    | [] => none
    | c :: rest => some ({ s with ckpt := some c }, .streaming { st with puts := rest })
  | .streaming st, .superstep p => (st.superstep lib p).map fun st' => (s, .streaming st')
  | .streaming st, .emit =>
    (st.emit s.log).map fun (log, st') => ({ s with log }, .streaming st')
  | .streaming st, .finish =>
    if st.over then some (s, .returned ((s.ckpt.map (·.values)).getD {})) else none
  | _, _ => none

/-! ## What one step can do -/

/-- The stream after the superstep of `n` returned `u`. -/
def Stream.advanced (st : Stream) (n : Node) (u : Update) : Stream :=
  { st with cfg := advance n st.cfg u, yielded := true, halted := n == .pause,
            puts := st.puts ++ [advance n st.cfg u] }

inductive XStep (s : Store) : Exec → XEv → Store → Exec → Prop where
  | nextSeq (existing : Option Config) :
      XStep s (.opened existing) .nextSeq s (.resetting existing (nextEventSeq s.log))
  | delete (existing : Option Config) (o : Nat) :
      XStep s (.resetting existing o) .write { s with ckpt := none } (.ready existing (some o))
  | reconcile {existing : Option Config} {fresh : Option Nat} {e : Exec}
      (h : openStream runId mode s existing fresh = some e) :
      XStep s (.ready existing fresh) .reconcile s e
  | write {st : Stream} {c : Config} {rest : List Config} (h : st.puts = c :: rest) :
      XStep s (.streaming st) .write { s with ckpt := some c } (.streaming { st with puts := rest })
  | superstep {st : Stream} {p : Ports} {n : Node} {u : Update} (hy : st.yielded = false)
      (hh : st.halted = false) (hn : st.cfg.next = some n)
      (hu : (nodeFn lib p st.cfg.values n).result = .ok u) :
      XStep s (.streaming st) (.superstep p) s (.streaming (st.advanced n u))
  | emit {st : Stream} (hy : st.yielded = true)
      (hle : st.cfg.values.nodeEvents.length ≤ st.persisted) :
      XStep s (.streaming st) .emit s (.streaming { st with yielded := false })
  | append {st : Stream} {log : Log} (hy : st.yielded = true)
      (hlt : st.persisted < st.cfg.values.nodeEvents.length)
      (h : appendEvents s.log st.cfg.values.nodeEvents st.persisted st.seqOffset = some log) :
      XStep s (.streaming st) .emit { s with log }
        (.streaming { st with persisted := st.cfg.values.nodeEvents.length, yielded := false })
  | finish {st : Stream} (h : st.over = true) :
      XStep s (.streaming st) .finish s (.returned ((s.ckpt.map (·.values)).getD {}))

variable {lib runId mode} {s s' : Store} {e e' : Exec} {x : XEv} {st st' : Stream}

/-- What an opened stream starts from, once the cursor is aligned. -/
theorem openStream_cases {existing : Option Config} {fresh : Option Nat}
    (h : openStream runId mode s existing fresh = some e) :
    ∃ events offset finished persisted seqOffset,
      cursorArgs existing fresh = (events, offset, finished) ∧
      reconcileEventCursor events s.log offset finished = .ok (persisted, seqOffset) ∧
      ((∃ c, finished = true ∧ existing = some c ∧ e = .returned c.values) ∨
        (∃ r, (mode = .start r ∨ mode = .forceFresh r) ∧ e = .streaming {
          cfg := inputConfig runId r s.ckpt offset
          persisted, seqOffset, yielded := false
          puts := [inputConfig runId r s.ckpt offset] }) ∨
        (∃ c, mode = .resume ∧ s.ckpt = some c ∧ e = .streaming {
          cfg := c, persisted, seqOffset, yielded := true, puts := [] })) := by
  rcases ha : cursorArgs existing fresh with ⟨events, offset, finished⟩
  simp only [openStream, ha] at h
  split at h
  · cases h
  · rename_i persisted seqOffset hr
    refine ⟨events, offset, finished, persisted, seqOffset, rfl, hr, ?_⟩
    split at h
    · cases h
      exact Or.inl ⟨_, rfl, rfl, rfl⟩
    · cases h
      exact Or.inr (Or.inl ⟨_, Or.inl rfl, rfl⟩)
    · cases h
      exact Or.inr (Or.inl ⟨_, Or.inr rfl, rfl⟩)
    · obtain ⟨c, hc, rfl⟩ := Option.map_eq_some_iff.mp h
      exact Or.inr (Or.inr ⟨c, rfl, hc, rfl⟩)

theorem superstep_cases {p : Ports} (h : st.superstep lib p = some st') :
    ∃ n u, st.yielded = false ∧ st.halted = false ∧ st.cfg.next = some n ∧
      (nodeFn lib p st.cfg.values n).result = .ok u ∧ st' = st.advanced n u := by
  unfold Stream.superstep at h
  split at h
  · cases h
  · rename_i hfree
    simp only [Bool.or_eq_true, not_or, Bool.not_eq_true] at hfree
    split at h
    · cases h
    · rename_i n hn
      split at h
      · cases h
      · rename_i u hu
        cases h
        exact ⟨n, u, hfree.1, hfree.2, hn, hu, rfl⟩

theorem emit_cases {log : Log} (h : st.emit s.log = some (log, st')) :
    XStep lib runId mode s (.streaming st) .emit { s with log } (.streaming st') := by
  unfold Stream.emit at h
  simp only at h
  split at h
  · rename_i hy
    split at h
    · rename_i hlt
      obtain ⟨log', hlog, he⟩ := Option.map_eq_some_iff.mp h
      cases he
      exact .append hy hlt hlog
    · rename_i hge
      cases h
      exact .emit hy (Nat.le_of_not_lt hge)
  · cases h

/-- Every step is one of those listed. -/
theorem step_cases (h : e.step lib runId mode s x = some (s', e')) :
    XStep lib runId mode s e x s' e' := by
  unfold Exec.step at h
  split at h
  · cases h
    exact .nextSeq _
  · cases h
    exact .delete _ _
  · obtain ⟨e₁, ho, he⟩ := Option.map_eq_some_iff.mp h
    cases he
    exact .reconcile ho
  · split at h
    · cases h
    · rename_i hp
      cases h
      exact .write hp
  · obtain ⟨st₁, ho, he⟩ := Option.map_eq_some_iff.mp h
    cases he
    obtain ⟨n, u, hy, hh, hn, hu, rfl⟩ := superstep_cases ho
    exact .superstep hy hh hn hu
  · obtain ⟨⟨log, st₁⟩, ho, he⟩ := Option.map_eq_some_iff.mp h
    cases he
    exact emit_cases ho
  · split at h
    · rename_i ho
      cases h
      exact .finish ho
    · cases h
  · cases h

end BidScope.L3
