import BidScope.Core.LTS
import BidScope.L1Domain.Types

/-!
# One acquisition run

`IngestionService.run_once` over the source's row of `source_sync_cursors`, with
any number of calls under way at once. A call is a session and one transaction
of its own, READ COMMITTED: it reads what is committed, a row that another
transaction has written is waited for, and what a call wrote is stored when it
commits. A bundle is imported in a transaction of the importer, stored at once.

The session loads the row when the run begins and keeps those values: the
`SELECT … FOR UPDATE` of the finalisation locks the row as it now is and leaves
the copy as it was. The UPDATE of a success counts on from the stored version,
the finalisation of a failure from the copy.

What a call meets (pages, exceptions, the clock, its end at any point) comes with
the steps. Nothing is assumed of the materializer, the importer and the object
store: each returns or raises. What `synchronize` leaves in the session's copy is
a parameter, for SQLAlchemy evaluates the UPDATE there or does not. The laws of
`CursorSafety` and `Worker` name their conditions (`Current`, `Locked`, `Kept`).

Left out: the columns of an acquisition run that no cursor depends on (counters,
keys and hashes of the responses, the HTTP status, the failure code), and times
between the requests.
-/
namespace BidScope.L13

open BidScope.L1

/-! ## The repository -/

/-- The row of `source_sync_cursors`.
mirrors persistence/models.py:238-265 -/
structure SyncCursor where
  cursorValue : String
  watermarkAt : Datetime
  lastSuccessAt : Option Datetime
  updatedAt : Datetime
  consecutiveFailures : Nat
  version : Nat
  deriving DecidableEq

inductive RunStatus | success | failed | quarantined | rateLimited
deriving DecidableEq

/-- What `finalize_acquisition_run` records. -/
structure AcquisitionRun where
  status : RunStatus
  cursorBefore : String
  cursorAfter : Option String
  requestCount : Nat
  deriving DecidableEq

/-- The first row of a source; `serverNow` is the database's clock.
mirrors persistence/repositories.py:276-280 -/
def SyncCursor.first (watermarkAt serverNow : Datetime) : SyncCursor := ⟨"", watermarkAt, none, serverNow, 0, 0⟩

/-- mirrors persistence/repositories.py:319-325 -/
def SyncCursor.owned (row : SyncCursor) (expectedVersion : Nat) (cursorBefore : String) : Bool :=
  row.version == expectedVersion && row.cursorValue == cursorBefore

/-- mirrors persistence/repositories.py:326-334 -/
def SyncCursor.advanced (row : SyncCursor) (cursorAfter : String) (watermarkAt succeededAt : Datetime) : SyncCursor :=
  { row with
    cursorValue := cursorAfter, watermarkAt := watermarkAt, lastSuccessAt := some succeededAt,
    updatedAt := succeededAt, consecutiveFailures := 0, version := row.version + 1 }

/-- The flush of a failing finalisation: what `copy` changed goes over the row.
mirrors persistence/repositories.py:413-418 -/
def SyncCursor.counted (copy row : SyncCursor) (finishedAt : Datetime) : SyncCursor :=
  { row with
    consecutiveFailures := copy.consecutiveFailures + 1
    updatedAt := if copy.updatedAt.utc = finishedAt.utc then row.updatedAt else finishedAt
    version := copy.version + 1 }

/-! ## Failures -/

/-- The exceptions by the handler of `run_once` that takes them. -/
inductive Failure where
  | rateLimited
  | quarantine
  | importError
  | payload
  | client (retryable : Bool)
  | other
  deriving DecidableEq

/-- mirrors ingestion/service.py:173-250 -/
def Failure.status : Failure → RunStatus
  | .rateLimited => .rateLimited
  | .quarantine | .importError | .payload => .quarantined
  | .client _ | .other => .failed

def MAX_TRANSIENT_RETRIES : Nat := 2

/-- `_fetch_page_with_retry` asks once more.
mirrors ingestion/service.py:276-285 -/
def Failure.retried (f : Failure) (attempts : Nat) : Bool :=
  match f with
  | .client retryable => retryable && decide (attempts < MAX_TRANSIENT_RETRIES)
  | _ => false

/-! ## The service -/

/-- The service, with the pages `P` of its client.
mirrors ingestion/service.py:57-98 -/
structure IngestionService (P : Type) where
  maxPagesPerRun : Nat
  bounds : 0 < maxPagesPerRun ∧ maxPagesPerRun ≤ 100
  nextCursor : P → Option String
  retrievedAt : P → Datetime
  /-- the session's copy behind an UPDATE: by whether a row matched, the copy and the row with the new values -/
  synchronize : Bool → SyncCursor → SyncCursor → SyncCursor

/-- The locals of `run_once` that the cursor depends on. -/
structure Locals where
  /-- the session's copy of the row -/
  cursor : SyncCursor
  cursorBefore : String
  pageIndex : Nat
  requestCursor : Option String
  lastCursor : String
  lastRetrievedAt : Datetime
  requestCount : Nat
  /-- how often the stored row had changed when the copy was loaded -/
  readAt : Nat

inductive Pc (P : Type) where
  | idle
  /-- there was no row -/
  | absent (startedAt : Datetime)
  | fetching (l : Locals) (attempts : Nat)
  | fetched (l : Locals) (page : P)
  | advancing (l : Locals)
  | finishing (l : Locals) (run : AcquisitionRun)
  | committing (l : Locals) (run : AcquisitionRun)
  | done (run : AcquisitionRun)
  /-- ended without a commit -/
  | stopped

variable {P : Type} (svc : IngestionService P)

/-- `cursor or None` -/
def requestOf (cursor : String) : Option String := if cursor = "" then none else some cursor

/-- mirrors ingestion/service.py:105-118 -/
def Locals.start (row : SyncCursor) (startedAt : Datetime) (readAt : Nat) : Locals :=
  ⟨row, row.cursorValue, 0, requestOf row.cursorValue, row.cursorValue, startedAt, 0, readAt⟩

def Locals.fail (l : Locals) (status : RunStatus) : Pc P :=
  .finishing l ⟨status, l.cursorBefore, none, l.requestCount⟩

/-- mirrors ingestion/service.py:252-268 -/
def Locals.succeed (l : Locals) : Pc P :=
  .finishing l
    ⟨.success, l.cursorBefore, if l.lastCursor ≠ l.cursorBefore then some l.lastCursor else none, l.requestCount⟩

/-- mirrors ingestion/service.py:127-130 -/
def Locals.took (l : Locals) (page : P) : Locals :=
  { l with requestCount := l.requestCount + 1, lastRetrievedAt := svc.retrievedAt page }

/-- mirrors ingestion/service.py:152-159 -/
def afterPage (l : Locals) (page : P) : Pc P :=
  match svc.nextCursor page with
  | none => .advancing l
  | some next =>
    if some next = l.requestCursor then l.fail Failure.payload.status
    else
      let l := { l with lastCursor := next, requestCursor := some next }
      if svc.maxPagesPerRun ≤ l.pageIndex + 1 then l.fail Failure.payload.status
      else .fetching { l with pageIndex := l.pageIndex + 1 } 0

/-! ## The system -/

structure State (P : Type) where
  /-- what is committed -/
  stored : Option SyncCursor
  /-- the row as an open transaction wrote it, with the call that holds it -/
  uncommitted : Option (Nat × SyncCursor)
  calls : Nat → Pc P
  /-- what was imported: by which call, requested with which cursor -/
  imports : List (Nat × Option String × P)
  /-- how often the stored row has changed -/
  changes : Nat

namespace State

variable (s : State P) (w : Nat)

def goto (pc : Pc P) : State P := { s with calls := Function.update s.calls w pc }

/-- No other transaction holds the row. -/
def free : Bool := s.uncommitted.all (·.1 == w)

/-- The row as a statement of the call finds it. -/
def row : Option SyncCursor := (s.uncommitted.filter (·.1 == w)).elim s.stored fun held => some held.2

def importsOf : List (Option String × P) := (s.imports.filter (·.1 == w)).map (·.2)

def value : String := s.stored.elim "" (·.cursorValue)

def failures : Nat := s.stored.elim 0 (·.consecutiveFailures)

def version : Nat := s.stored.elim 0 (·.version)

end State

inductive Event (P : Type) where
  | read (w : Nat) (startedAt : Datetime)
  | insert (w : Nat) (serverNow : Datetime)
  | page (w : Nat) (page : P)
  /-- the request raises, or a pause before it -/
  | fetchRaises (w : Nat) (f : Failure)
  /-- the page is imported, and the lines behind it raise nothing -/
  | imported (w : Nat)
  /-- the store, the materializer or the import raises, or what follows an import -/
  | raises (w : Nat) (imported : Bool) (f : Failure)
  | advance (w : Nat) (succeededAt : Datetime)
  | advanceRaises (w : Nat) (f : Failure)
  | finish (w : Nat) (finishedAt : Datetime)
  | commit (w : Nat)
  /-- the transaction is rolled back: an exception from `_finish`, a cancellation, the end of the process -/
  | stop (w : Nat)

/-- The key is taken when the row is there, and the one there is read.
mirrors persistence/repositories.py:265-292 -/
def insert (s : State P) (w : Nat) (startedAt serverNow : Datetime) : Option (State P) :=
  match s.uncommitted, s.stored with
  | some _, _ => none
  | none, some row => some (s.goto w (.fetching (.start row startedAt s.changes) 0))
  | none, none =>
    let row := SyncCursor.first startedAt serverNow
    some { s.goto w (.fetching (.start row startedAt s.changes) 0) with uncommitted := some (w, row) }

def importBundle (s : State P) (w : Nat) (l : Locals) (page : P) : State P :=
  { s with imports := s.imports ++ [(w, l.requestCursor, page)] }

/-- A cursor that is not owned any more is a `RuntimeError`; one that another
transaction has written is waited for where what is stored is owned.
mirrors persistence/repositories.py:308-336, ingestion/service.py:163-172 -/
def advance (s : State P) (w : Nat) (l : Locals) (succeededAt : Datetime) : Option (State P) :=
  let updated := l.cursor.advanced l.lastCursor l.lastRetrievedAt succeededAt
  match (s.row w).filter (·.owned l.cursor.version l.cursorBefore) with
  | some row =>
    if s.free w then
      some { s.goto w ({ l with cursor := svc.synchronize true l.cursor updated }).succeed with
        uncommitted := some (w, row.advanced l.lastCursor l.lastRetrievedAt succeededAt) }
    else none
  | none => some (s.goto w (({ l with cursor := svc.synchronize false l.cursor updated }).fail Failure.other.status))

/-- `finalize_acquisition_run`; the run is in the same transaction, so it is found running.
mirrors persistence/repositories.py:356-418, ingestion/service.py:287-345 -/
def finish (s : State P) (w : Nat) (l : Locals) (run : AcquisitionRun) (finishedAt : Datetime) : Option (State P) :=
  if run.status = .success then some (s.goto w (.committing l run))
  else if s.free w then
    match s.row w with
    | some row => some { s.goto w (.committing l run) with uncommitted := some (w, l.cursor.counted row finishedAt) }
    | none => some (s.goto w (.committing l run))
  else none

def commit (s : State P) (w : Nat) (run : AcquisitionRun) : State P :=
  match s.uncommitted.filter (·.1 == w) with
  | some (_, row) =>
    { s.goto w (.done run) with stored := some row, uncommitted := none, changes := s.changes + 1 }
  | none => s.goto w (.done run)

def stop (s : State P) (w : Nat) : State P :=
  { s.goto w .stopped with uncommitted := s.uncommitted.filter (·.1 != w) }

def step (s : State P) : Event P → Option (State P)
  | .read w startedAt =>
    match s.calls w, s.stored with
    | .idle, some row => some (s.goto w (.fetching (.start row startedAt s.changes) 0))
    | .idle, none => some (s.goto w (.absent startedAt))
    | _, _ => none
  | .insert w serverNow =>
    match s.calls w with
    | .absent startedAt => insert s w startedAt serverNow
    | _ => none
  | .page w page =>
    match s.calls w with
    | .fetching l _ => some (s.goto w (.fetched (l.took svc page) page))
    | _ => none
  | .fetchRaises w f =>
    match s.calls w with
    | .fetching l attempts =>
      some (s.goto w (if f.retried attempts then .fetching l (attempts + 1) else l.fail f.status))
    | _ => none
  | .imported w =>
    match s.calls w with
    | .fetched l page => some ((importBundle s w l page).goto w (afterPage svc l page))
    | _ => none
  | .raises w imported f =>
    match s.calls w with
    | .fetched l page => some ((if imported then importBundle s w l page else s).goto w (l.fail f.status))
    | _ => none
  | .advance w succeededAt =>
    match s.calls w with
    | .advancing l => advance svc s w l succeededAt
    | _ => none
  | .advanceRaises w f =>
    match s.calls w with
    | .advancing l => some (s.goto w (l.fail f.status))
    | _ => none
  | .finish w finishedAt =>
    match s.calls w with
    | .finishing l run => finish s w l run finishedAt
    | _ => none
  | .commit w =>
    match s.calls w with
    | .committing _ run => some (commit s w run)
    | _ => none
  | .stop w =>
    match s.calls w with
    | .idle | .done _ | .stopped => none
    | _ => some (stop s w)

/-- No call has begun; the source may have a row. -/
structure Initial (s : State P) : Prop where
  uncommitted : s.uncommitted = none
  calls : ∀ w, s.calls w = .idle
  imports : s.imports = []

def ingestion : LTS (State P) (Event P) := LTS.ofFn Initial (step svc)

end BidScope.L13
