import BidScope.L3Runs.Appends

/-!
# The event stream of a run

`GET /api/runs/{id}/events` of `api/routes/events.py`, beside the service. The
route polls: it reads the events after its cursor, yields them one by one,
reads the run, and ends with a terminal frame or polls again. The two reads
are transactions of their own, so any step of the service may fall between.

`feed` is the service with one client. The client connects at any sequence
`n`, receives frames behind the route, loses the connection at any time and
connects again with the id of the last frame it received. A comment frame has
no id and leaves the last id as it is. The bound on open connections and the
404 for an unknown run refuse a connection before there is a stream.

**Ghosts.** `settled`: how long the log was when the row last changed, that
is the events committed before the row's present status. `Conn.seen`: how long
it was when the route last read the events. `Conn.earlier`: what the client
had received when it connected.
-/
namespace BidScope.L3

open BidScope.L1 BidScope.L2

/-! ## `int` of a header -/

/-- Where the runs of ten decimal digits start (Unicode category Nd). -/
def decimalZeros : List Nat :=
  0x30 :: [0x660, 0x6F0, 0x7C0, 0x966, 0x9E6, 0xA66, 0xAE6, 0xB66, 0xBE6, 0xC66, 0xCE6, 0xD66, 0xDE6,
    0xE50, 0xED0, 0xF20, 0x1040, 0x1090, 0x17E0, 0x1810, 0x1946, 0x19D0, 0x1A80, 0x1A90, 0x1B50,
    0x1BB0, 0x1C40, 0x1C50, 0xA620, 0xA8D0, 0xA900, 0xA9D0, 0xA9F0, 0xAA50, 0xABF0, 0xFF10, 0x104A0,
    0x10D30, 0x11066, 0x110F0, 0x11136, 0x111D0, 0x112F0, 0x11450, 0x114D0, 0x11650, 0x116C0,
    0x11730, 0x118E0, 0x11950, 0x11C50, 0x11D50, 0x11DA0, 0x11F50, 0x16A60, 0x16AC0, 0x16B50,
    0x1D7CE, 0x1D7D8, 0x1D7E2, 0x1D7EC, 0x1D7F6, 0x1E140, 0x1E2F0, 0x1E4F0, 0x1E950, 0x1FBF0]

/-- The value of a decimal digit of any script. -/
def decimal (c : Char) : Option Nat :=
  (decimalZeros.find? fun z => z ≤ c.toNat && c.toNat < z + 10).map (c.toNat - ·)

/-- The digits behind those read into `n`; one underscore may stand between
two digits. -/
def digitsOf : Nat → List Char → Option Nat
  | n, [] => some n
  | n, '_' :: c :: cs => (decimal c).bind fun d => digitsOf (10 * n + d) cs
  | n, c :: cs => (decimal c).bind fun d => digitsOf (10 * n + d) cs

def unsignedOf : List Char → Option Nat
  | [] => none
  | c :: cs => (decimal c).bind fun d => digitsOf d cs

def signedOf : List Char → Option Int
  | '-' :: cs => (unsignedOf cs).map fun n => -(n : Int)
  | '+' :: cs => (unsignedOf cs).map Int.ofNat
  | cs => (unsignedOf cs).map Int.ofNat

/-- `int` of a string, `none` where it raises `ValueError`. -/
def intOf (text : String) : Option Int := signedOf (strip text).toList

/-- The headers are those the route asks for, with an underscore first.
mirrors api/routes/events.py:128-148 -/
def parseLastEventId (underscored header query : Option String) : Int :=
  match (underscored.filter (· ≠ "")).or header with
  | some header => (intOf header).getD (-1)
  | none =>
    match query with
    | some query => (intOf query).getD (-1)
    | none => -1

/-! ## The route -/

/-- mirrors api/routes/events.py:42-48 -/
def TERMINAL_STATUSES : List RunStatus :=
  [.completed, .failed, .evidenceInsufficient, .retryable, .awaitingConfirmation]

def terminalStatus : Row → Option RunStatus
  | ⟨.of status, _⟩ => if status ∈ TERMINAL_STATUSES then some status else none
  | ⟨.running, _⟩ => none

/-- What the generator yields. -/
inductive Frame where
  | event (r : RunEvent)
  | terminal (status : RunStatus)
  | comment (text : String)
  deriving DecidableEq, Repr

/-- mirrors api/routes/events.py:94-109 -/
def Frame.id : Frame → Option String
  | .event r => some (toString r.seq)
  | .terminal _ => some "terminal"
  | .comment _ => none

def Frame.row : Frame → Option RunEvent
  | .event r => some r
  | .terminal _ | .comment _ => none

/-- mirrors api/dependencies.py:1098-1106 -/
def listEvents (log : Log) (afterSeq : Int) : List RunEvent :=
  (log.filter fun r => afterSeq < r.seq).mergeSort fun a b => a.seq ≤ b.seq

/-- Where the generator stands in its loop; a closed one has reported `status`,
committed when the log had `settled` events. -/
inductive Poll where
  | listing
  | sending (batch : List RunEvent)
  | closed (status : RunStatus) (settled : Nat)
  deriving DecidableEq

structure Conn where
  start : Int
  afterSeq : Int := start
  phase : Poll := .listing
  seen : Nat := 0
  sent : List Frame := []
  got : Nat := 0
  earlier : List Nat

structure FState where
  run : SState := {}
  settled : Nat := 0
  conn : Option Conn := none
  received : List Nat := []
  lastId : Option String := none

/-- The events the connection has sent. -/
def Conn.rows (c : Conn) : List RunEvent := c.sent.filterMap Frame.row

/-- The events it has read and not sent. -/
def Conn.batch (c : Conn) : List RunEvent :=
  match c.phase with
  | .sending batch => batch
  | .listing | .closed _ _ => []

inductive FEv where
  | run (ev : SEv)
  | connect (n : Int)
  | reconnect
  | list
  | yield
  | check (heartbeat : Bool)
  | deliver

/-- One step of the generator.
mirrors api/routes/events.py:89-114 -/
def Conn.step (s : FState) (c : Conn) : FEv → Option Conn
  | .list =>
    match c.phase with
    | .listing =>
      some { c with phase := .sending (listEvents s.run.store.log c.afterSeq)
                    seen := s.run.store.log.length }
    | _ => none
  | .yield =>
    match c.phase with
    | .sending (r :: rest) =>
      some { c with phase := .sending rest, afterSeq := r.seq, sent := c.sent ++ [.event r] }
    | _ => none
  | .check heartbeat =>
    match c.phase with
    | .sending [] =>
      match terminalStatus s.run.row with
      | some status =>
        some { c with phase := .closed status s.settled, sent := c.sent ++ [.terminal status] }
      | none =>
        some { c with phase := .listing
                      sent := c.sent ++ if heartbeat then [.comment "heartbeat"] else [] }
    | _ => none
  | .deliver => if c.got < c.sent.length then some { c with got := c.got + 1 } else none
  | .run _ | .connect _ | .reconnect => none

variable (lib : Lib) (runId userRequest : String)

def fstep (s : FState) : FEv → Option FState
  | .run ev =>
    (sstep lib runId userRequest s.run ev).map fun run =>
      { s with run, settled := if run.row = s.run.row then s.settled else run.store.log.length }
  | .connect n =>
    if s.lastId = none then some { s with conn := some { start := n, earlier := s.received } }
    else none
  | .reconnect =>
    s.lastId.map fun id =>
      { s with conn := some { start := parseLastEventId none (some id) none
                              earlier := s.received } }
  | .deliver =>
    s.conn.bind fun c => (c.step s .deliver).bind fun c' => (c.sent[c.got]?).map fun f =>
      { s with conn := some c'
               received := s.received ++ (f.row.map (·.seq)).toList
               lastId := f.id.or s.lastId }
  | ev => s.conn.bind fun c => (c.step s ev).map fun c' => { s with conn := some c' }

/-- A run, its service and a client of its event stream. -/
def feed : LTS FState FEv := LTS.ofFn (· = {}) (fstep lib runId userRequest)

/-! ## What one step can do -/

inductive CStep (s : FState) (c : Conn) : FEv → Conn → Prop where
  | list (hp : c.phase = .listing) :
      CStep s c .list { c with phase := .sending (listEvents s.run.store.log c.afterSeq)
                               seen := s.run.store.log.length }
  | yield {r : RunEvent} {rest : List RunEvent} (hp : c.phase = .sending (r :: rest)) :
      CStep s c .yield
        { c with phase := .sending rest, afterSeq := r.seq, sent := c.sent ++ [.event r] }
  | close {status : RunStatus} (heartbeat : Bool) (hp : c.phase = .sending [])
      (hs : terminalStatus s.run.row = some status) :
      CStep s c (.check heartbeat)
        { c with phase := .closed status s.settled, sent := c.sent ++ [.terminal status] }
  | again {comments : List Frame} (heartbeat : Bool) (hp : c.phase = .sending [])
      (hc : comments.filterMap Frame.row = []) :
      CStep s c (.check heartbeat) { c with phase := .listing, sent := c.sent ++ comments }

inductive FStep (s : FState) : FEv → FState → Prop where
  | run {ev : SEv} {run : SState} (h : SStep lib runId userRequest s.run ev run) :
      FStep s (.run ev)
        { s with run, settled := if run.row = s.run.row then s.settled else run.store.log.length }
  | connect (n : Int) (hl : s.lastId = none) :
      FStep s (.connect n) { s with conn := some { start := n, earlier := s.received } }
  | reconnect {id : String} (hl : s.lastId = some id) :
      FStep s .reconnect
        { s with conn := some { start := parseLastEventId none (some id) none
                                earlier := s.received } }
  | deliver {c : Conn} {f : Frame} (hc : s.conn = some c) (hf : c.sent[c.got]? = some f) :
      FStep s .deliver
        { s with conn := some { c with got := c.got + 1 }
                 received := s.received ++ (f.row.map (·.seq)).toList
                 lastId := f.id.or s.lastId }
  | route {ev : FEv} {c c' : Conn} (hc : s.conn = some c) (h : CStep s c ev c') :
      FStep s ev { s with conn := some c' }

variable {lib runId userRequest} {s s' : FState} {c c' : Conn} {ev : FEv}

theorem cstep_cases (hne : ev ≠ .deliver) (h : c.step s ev = some c') : CStep s c ev c' := by
  cases ev with
  | list =>
    simp only [Conn.step] at h
    split at h
    · rename_i hp
      cases h
      exact .list hp
    · cases h
  | yield =>
    simp only [Conn.step] at h
    split at h
    · rename_i hp
      cases h
      exact .yield hp
    · cases h
  | check heartbeat =>
    simp only [Conn.step] at h
    split at h
    · rename_i hp
      split at h
      · rename_i hs
        cases h
        exact .close heartbeat hp hs
      · cases h
        exact .again heartbeat hp (by cases heartbeat <;> rfl)
    · cases h
  | deliver => exact absurd rfl hne
  | run | connect | reconnect => cases h

theorem fstep_cases (h : fstep lib runId userRequest s ev = some s') :
    FStep lib runId userRequest s ev s' := by
  have hroute : ev ≠ .deliver → (s.conn.bind fun c =>
      (c.step s ev).map fun c' => { s with conn := some c' }) = some s' →
        FStep lib runId userRequest s ev s' := by
    intro hne h
    obtain ⟨c, hc, hs⟩ := Option.bind_eq_some_iff.mp h
    obtain ⟨c', hc', rfl⟩ := Option.map_eq_some_iff.mp hs
    exact .route hc (cstep_cases hne hc')
  cases ev with
  | run ev =>
    obtain ⟨run, hrun, rfl⟩ := Option.map_eq_some_iff.mp h
    exact .run (sstep_cases hrun)
  | connect n =>
    simp only [fstep] at h
    split at h
    · rename_i hl
      cases h
      exact .connect n hl
    · cases h
  | reconnect =>
    obtain ⟨id, hl, rfl⟩ := Option.map_eq_some_iff.mp h
    exact .reconnect hl
  | deliver =>
    obtain ⟨c, hc, hs⟩ := Option.bind_eq_some_iff.mp h
    obtain ⟨c', hc', hs'⟩ := Option.bind_eq_some_iff.mp hs
    obtain ⟨f, hf, rfl⟩ := Option.map_eq_some_iff.mp hs'
    simp only [Conn.step] at hc'
    split at hc'
    · cases hc'
      exact .deliver hc hf
    · cases hc'
  | list => exact hroute (by simp) h
  | yield => exact hroute (by simp) h
  | check heartbeat => exact hroute (by simp) h

/-! ## Ids the route can read -/

theorem decimal_of_isDigit {c : Char} (h : c.isDigit = true) : decimal c = some (c.toNat - 48) := by
  simp only [Char.isDigit, ge_iff_le, Bool.and_eq_true, decide_eq_true_eq,
    UInt32.le_iff_toNat_le] at h
  have hz : decide (0x30 ≤ c.toNat) && decide (c.toNat < 0x30 + 10) := by
    simp only [Bool.and_eq_true, decide_eq_true_eq]
    exact ⟨h.1, Nat.lt_succ_of_le h.2⟩
  rw [decimal, decimalZeros,
    List.find?_cons_of_pos (p := fun z => decide (z ≤ c.toNat) && decide (c.toNat < z + 10)) hz,
    Option.map_some]

theorem digitsOf_digits : ∀ (cs : List Char) (n : Nat), (∀ c ∈ cs, c.isDigit = true) →
    digitsOf n cs = some (Nat.ofDigitChars 10 cs n)
  | [], n, _ => by simp [digitsOf]
  | c :: cs, n, h => by
    have hc : c.isDigit = true := h c (List.mem_cons_self ..)
    have hne : c ≠ '_' := by
      rintro rfl
      exact absurd hc (by decide)
    have ih := digitsOf_digits cs (10 * n + (c.toNat - 48)) fun d hd => h d (List.mem_cons_of_mem _ hd)
    rw [digitsOf.eq_3 _ _ _ (fun _ _ he _ => hne he), decimal_of_isDigit hc, Option.bind_some, ih,
      Nat.ofDigitChars_cons]
    rfl

theorem isSpace_of_isDigit {c : Char} (h : c.isDigit = true) : isSpace c = false := by
  simp only [Char.isDigit, ge_iff_le, Bool.and_eq_true, decide_eq_true_eq,
    UInt32.le_iff_toNat_le] at h
  have hlo : 48 ≤ c.toNat := h.1
  have hhi : c.toNat ≤ 57 := h.2
  simp only [isSpace, Bool.or_eq_false_iff, Bool.and_eq_false_iff, decide_eq_false_iff_not,
    beq_eq_false_iff_ne]
  omega

theorem dropWhile_isSpace_digits {cs : List Char} (h : ∀ c ∈ cs, c.isDigit = true) :
    cs.dropWhile isSpace = cs := by
  cases cs with
  | nil => rfl
  | cons c cs =>
    rw [List.dropWhile_cons_of_neg]
    rw [isSpace_of_isDigit (h c (List.mem_cons_self ..))]
    exact Bool.false_ne_true

theorem strip_digits {text : String} (h : ∀ c ∈ text.toList, c.isDigit = true) :
    strip text = text := by
  rw [strip, dropWhile_isSpace_digits h,
    dropWhile_isSpace_digits (fun c hc => h c (List.mem_reverse.mp hc)), List.reverse_reverse,
    String.ofList_toList]

theorem signedOf_digits {cs : List Char} (h : ∀ c ∈ cs, c.isDigit = true) (hne : cs ≠ []) :
    signedOf cs = some (Nat.ofDigitChars 10 cs 0 : Int) := by
  cases cs with
  | nil => exact absurd rfl hne
  | cons c cs =>
    have hc : c.isDigit = true := h c (List.mem_cons_self ..)
    have hminus : c ≠ '-' := by
      rintro rfl
      exact absurd hc (by decide)
    have hplus : c ≠ '+' := by
      rintro rfl
      exact absurd hc (by decide)
    have hds := digitsOf_digits cs (c.toNat - 48) fun d hd => h d (List.mem_cons_of_mem _ hd)
    rw [signedOf.eq_3 _ (fun _ he => hminus (List.cons.inj he).1)
      (fun _ he => hplus (List.cons.inj he).1), unsignedOf, decimal_of_isDigit hc, Option.bind_some,
      hds, Nat.ofDigitChars_cons, Nat.mul_zero, Nat.zero_add]
    rfl

/-- The id of an event frame is read back as its sequence. -/
theorem intOf_toString (n : Nat) : intOf (toString n) = some (n : Int) := by
  have hl : (toString n).toList = Nat.toDigits 10 n := Nat.toList_repr
  have hd : ∀ c ∈ (toString n).toList, c.isDigit = true := fun c hc =>
    Nat.isDigit_of_mem_toDigits (by decide) (by decide) (hl ▸ hc)
  rw [intOf, strip_digits hd, signedOf_digits hd (by rw [hl]; exact Nat.toDigits_ne_nil), hl,
    Nat.ofDigitChars_ten_toDigits]

theorem parseLastEventId_seq (n : Nat) : parseLastEventId none (some (toString n)) none = n := by
  have hn : intOf (toString n) = some (n : Int) := intOf_toString n
  simp only [parseLastEventId, Option.filter_none, Option.none_or, hn, Option.getD_some]

/-- The id of a terminal frame is no number, and stands for the start. -/
example : parseLastEventId none (some "terminal") none = -1 := by decide

end BidScope.L3
