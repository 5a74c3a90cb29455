import BidScope.L2Graph.Run
import BidScope.L3Runs.Cursor

/-!
# Attempts at a run, one after the other

The checkpoint and the log of one run across any number of `execute` calls:
the first one, resumes of the checkpoint and force-fresh retries. `stop` ends
the current call wherever it stands: it returned, an exception left it, or the
process died; checkpoints not yet written are lost with it.

**Event-log integrity (`log_integrity`).** The log's sequences are `0 .. n-1`
in every reachable state, and when a call returns, the log from the returned
`event_seq_offset` on is exactly the returned `node_events`.

The invariant is `ExecOK`: during a stream the log is the attempt's base plus
the first `persisted` events of the state in memory, and every checkpoint,
written or not, holds a prefix of the same events. Between calls (`StoreOK`)
the log's slice and the checkpoint's events are prefixes of one another.
-/
namespace BidScope.L3

open BidScope.L1 BidScope.L2

structure AState where
  store : Store := {}
  cur : Option (Mode × Exec) := none

inductive AEv where
  | begin (mode : Mode)
  | exec (x : XEv)
  | stop

variable (lib : Lib) (runId : String)

/-- A first execution finds no checkpoint: the run was `pending`. -/
def admissible (s : Store) : Mode → Bool
  | .start _ => s.ckpt.isNone
  | .resume | .forceFresh _ => true

def astep (s : AState) : AEv → Option AState
  | .begin mode =>
    if s.cur.isNone && admissible s.store mode then
      some { s with cur := some (mode, load s.store mode) }
    else none
  | .exec x =>
    match s.cur with
    | none => none
    | some (mode, e) =>
      (e.step lib runId mode s.store x).map fun (store, e') => { store, cur := some (mode, e') }
  | .stop => if s.cur.isSome then some { s with cur := none } else none

def attempts : LTS AState AEv := LTS.ofFn (· = {}) (astep lib runId)

/-! ## The invariant -/

/-- The base of the attempt `c` belongs to, also while its input is pending. -/
def base (c : Config) : Option Nat :=
  match c.input with
  | some i => i.eventSeqOffset
  | none => c.values.eventSeqOffset

/-- `c` is a config of the attempt with base `o`. Only an input that is still
pending may be without an offset in its values. -/
structure Sound (c : Config) (o : Nat) : Prop where
  base : base c = some o
  pending : c.input.isSome ↔ c.next = some .start
  fresh : c.input.isSome → c.values.eventSeqOffset = none ∧ c.values.nodeEvents = []

structure StoreOK (s : Store) : Prop where
  log : Contiguous s.log
  ckpt : ∀ c, s.ckpt = some c → ∃ o, Sound c o ∧ o ≤ s.log.length ∧
    (rowFps (s.log.drop o) <+: fps c.values.nodeEvents ∨
      fps c.values.nodeEvents <+: rowFps (s.log.drop o))

structure StreamOK (s : Store) (st : Stream) : Prop where
  log : Contiguous s.log
  sound : Sound st.cfg st.seqOffset
  len : s.log.length = st.seqOffset + st.persisted
  le : st.persisted ≤ st.cfg.values.nodeEvents.length
  slice : rowFps (s.log.drop st.seqOffset) = fps (st.cfg.values.nodeEvents.take st.persisted)
  synced : st.yielded = false → st.persisted = st.cfg.values.nodeEvents.length
  halted : st.halted = true → st.cfg.next ≠ some .start
  puts : ∀ c ∈ st.puts, Sound c st.seqOffset ∧
    c.values.nodeEvents <+: st.cfg.values.nodeEvents
  ckpt : ∀ c, s.ckpt = some c → Sound c st.seqOffset ∧
    c.values.nodeEvents <+: st.cfg.values.nodeEvents
  last : st.puts.getLast?.or s.ckpt = some st.cfg

/-- The returned values and the log agree on the attempt's events. -/
def Agreed (log : Log) (v : RunState) : Prop :=
  ∃ o, v.eventSeqOffset = some o ∧ rowFps (eventRows log o none) = fps v.nodeEvents

def ExecOK (s : Store) (mode : Mode) : Exec → Prop
  | .opened _ => StoreOK s ∧ ∃ r, mode = .forceFresh r
  | .resetting _ o => StoreOK s ∧ o = s.log.length ∧ ∃ r, mode = .forceFresh r
  | .ready existing none => StoreOK s ∧ existing = s.ckpt ∧
      ((∃ r, mode = .start r ∧ s.ckpt = none) ∨ mode = .resume)
  | .ready _ (some o) => StoreOK s ∧ o = s.log.length ∧ s.ckpt = none ∧ ∃ r, mode = .forceFresh r
  | .streaming st => StreamOK s st
  | .returned v => StoreOK s ∧ Agreed s.log v

def AInv (s : AState) : Prop :=
  match s.cur with
  | none => StoreOK s.store
  | some (mode, e) => ExecOK s.store mode e

variable {lib runId} {s s' : Store} {st st' : Stream} {mode : Mode}

theorem StreamOK.storeOK (h : StreamOK s st) : StoreOK s where
  log := h.log
  ckpt c hc := by
    obtain ⟨hs, hpre⟩ := h.ckpt c hc
    refine ⟨st.seqOffset, hs, by rw [h.len]; exact Nat.le_add_right _ _, ?_⟩
    -- both are prefixes of the events in memory
    have h1 : rowFps (s.log.drop st.seqOffset) <+: fps st.cfg.values.nodeEvents := by
      rw [h.slice]
      exact (List.take_prefix _ _).map fingerprint
    exact List.prefix_or_prefix_of_prefix h1 (hpre.map fingerprint)

theorem ExecOK.storeOK {e : Exec} (h : ExecOK s mode e) : StoreOK s := by
  cases e with
  | opened _ => exact h.1
  | resetting _ _ => exact h.1
  | ready _ fresh =>
    cases fresh with
    | none => exact h.1
    | some o => exact h.1
  | streaming st => exact StreamOK.storeOK h
  | returned v => exact h.1

/-! ## What a superstep does to a config -/

theorem advance_events (n : Node) (c : Config) (u : Update) :
    ∃ es, (advance n c u).values.nodeEvents = c.values.nodeEvents ++ es := by
  by_cases h : n = .start
  · subst h
    exact ⟨[], by cases hi : c.input <;> simp [advance, advanceValues, hi]⟩
  · exact ⟨u.nodeEvents, by simp [advance, advanceValues_of_ne h]⟩

theorem successor_ne_start (v : RunState) (n : Node) : successor v n ≠ some .start := by
  cases n with
  | validateIntent => simp only [successor, routeAfterValidate]; split <;> simp
  | confirmIntent => simp only [successor, routeAfterConfirm]; split <;> simp
  | validateReport =>
    simp only [successor, routeAfterValidateReport]
    split
    · simp
    · split <;> simp
  | _ => simp [successor]

theorem Sound.advance {c : Config} {o : Nat} {n : Node} (h : Sound c o) (hn : c.next = some n)
    (u : Update) : Sound (advance n c u) o := by
  refine ⟨?_, ?_, by simp [L2.advance]⟩
  · have hb := h.base
    by_cases hst : n = .start
    · subst hst
      obtain ⟨i, hi⟩ := Option.isSome_iff_exists.mp (h.pending.mpr hn)
      simp only [L3.base, hi] at hb
      simp [L3.base, L2.advance, advanceValues, hi, hb]
    · have hi : c.input = none := by
        cases hi : c.input with
        | none => rfl
        | some i =>
          have := h.pending.mp (by rw [hi]; rfl)
          rw [hn] at this
          cases this
          exact absurd rfl hst
      simp only [L3.base, hi] at hb
      simp [L3.base, L2.advance, advanceValues_of_ne hst, hb]
  · have := successor_ne_start (advanceValues n c u) n
    simp [L2.advance, this]

/-! ## Opening a stream -/

theorem sound_input (runId r : String) (o : Nat) : Sound (inputConfig runId r none (some o)) o :=
  ⟨rfl, by simp [inputConfig], fun _ => ⟨rfl, rfl⟩⟩

/-- The stream of a new attempt: nothing matched, its input to be stored. -/
def inputStream (runId r : String) (o : Nat) : Stream where
  cfg := inputConfig runId r none (some o)
  persisted := 0
  seqOffset := o
  yielded := false
  puts := [inputConfig runId r none (some o)]

theorem streamOK_input (hlog : Contiguous s.log) (hck : s.ckpt = none) (r : String) :
    StreamOK s (inputStream runId r s.log.length) where
  log := hlog
  sound := sound_input runId r _
  len := rfl
  le := Nat.zero_le _
  slice := by simp [inputStream]
  synced _ := rfl
  halted h := by cases h
  puts c hc := by
    rw [List.mem_singleton.mp hc]
    exact ⟨sound_input runId r _, List.prefix_refl _⟩
  ckpt c hc := by rw [hck] at hc; cases hc
  last := rfl

/-- Reconciling no events succeeds only at the end of the log. -/
theorem reconcile_nil (hlog : Contiguous s.log) {o n o' : Nat} (ho : o ≤ s.log.length)
    (h : reconcileEventCursor [] s.log (some o) false = .ok (n, o')) :
    n = 0 ∧ o' = o ∧ o = s.log.length := by
  obtain ⟨rfl, hn, hlen, -⟩ := reconcile_ok hlog ho h
  have h0 : n = 0 := by simpa using hn
  subst h0
  exact ⟨rfl, rfl, by omega⟩

theorem execOK_open_fresh {existing : Option Config} {o : Nat} {e : Exec}
    (h : ExecOK s mode (.ready existing (some o)))
    (he : openStream runId mode s existing (some o) = some e) : ExecOK s mode e := by
  obtain ⟨hs, rfl, hck, r, rfl⟩ := h
  simp only [openStream, cursorArgs] at he
  split at he
  · cases he
  · rename_i n o' hr
    obtain ⟨rfl, rfl, -⟩ := reconcile_nil hs.log (Nat.le_refl _) hr
    cases he
    rw [hck]
    exact streamOK_input hs.log hck r

/-- Resuming with the input still pending: the log must be empty. -/
theorem execOK_open_pending {c : Config} {e : Exec} (hs : StoreOK s) (hck : s.ckpt = some c)
    (hoff : c.values.eventSeqOffset = none)
    (he : openStream runId .resume s (some c) none = some e) : ExecOK s .resume e := by
  obtain ⟨o, hsound, ho, -⟩ := hs.ckpt c hck
  have hbase := hsound.base
  simp only [openStream, cursorArgs, hck, Option.map_some] at he
  have hi : c.input.isSome := by
    cases hi : c.input with
    | some i => rfl
    | none =>
      simp only [base, hi] at hbase
      rw [hoff] at hbase
      cases hbase
  have hn : c.next = some .start := hsound.pending.mp hi
  have hev := (hsound.fresh hi).2
  rw [hoff, hev, hn] at he
  simp only [Option.isNone_some] at he
  split at he
  · cases he
  · rename_i n o' hr
    have hempty : s.log = [] := by
      by_contra hne
      cases hl : s.log with
      | nil => exact hne hl
      | cons row rest => simp [reconcileEventCursor, reconcileLegacy, maxEventSeq, hl] at hr
    rw [hempty] at hr ho
    rw [(reconcileLegacy_nil []).mpr rfl] at hr
    cases hr
    cases he
    have h0 : o = 0 := by simpa using ho
    subst h0
    refine ⟨hs.log, hsound, by simp [hempty], Nat.zero_le _, by simp [hempty], ?_, ?_, ?_, ?_, ?_⟩
    · intro h; cases h
    · intro h; cases h
    · intro x hx; cases hx
    · intro x hx
      rw [hck] at hx
      cases hx
      exact ⟨hsound, List.prefix_refl _⟩
    · exact hck

/-- Resuming a run that has consumed its input, or finding the graph finished. -/
theorem execOK_open_consumed {c : Config} {e : Exec} {o : Nat} (hs : StoreOK s)
    (hck : s.ckpt = some c) (hoff : c.values.eventSeqOffset = some o)
    (he : openStream runId .resume s (some c) none = some e) : ExecOK s .resume e := by
  obtain ⟨o₀, hsound, ho, -⟩ := hs.ckpt c hck
  have hbase := hsound.base
  simp only [openStream, cursorArgs, hck, Option.map_some] at he
  have hni : c.input = none := by
    cases hi : c.input with
    | none => rfl
    | some i =>
      have hfresh := (hsound.fresh (by rw [hi]; rfl)).1
      rw [hoff] at hfresh
      cases hfresh
  simp only [base, hni, hoff] at hbase
  cases hbase
  rw [hoff] at he
  split at he
  · cases he
  · rename_i n o' hr
    obtain ⟨rfl, hle, hlen, hslice, hcomp⟩ := reconcile_ok hs.log ho hr
    cases hn : c.next with
    | none =>
      rw [hn] at he hcomp
      cases he
      have hall := hcomp rfl
      refine ⟨hs, _, hoff, ?_⟩
      rw [eventRows_eq_drop hs.log, hslice, hall, List.take_length]
    | some m =>
      rw [hn] at he
      cases he
      refine ⟨hs.log, hsound, hlen, hle, hslice, ?_, ?_, ?_, ?_, ?_⟩
      · intro h; cases h
      · intro h; cases h
      · intro x hx; cases hx
      · intro x hx
        rw [hck] at hx
        cases hx
        exact ⟨hsound, List.prefix_refl _⟩
      · exact hck

theorem execOK_open_existing {c : Config} {e : Exec} (hs : StoreOK s) (hck : s.ckpt = some c)
    (he : openStream runId .resume s (some c) none = some e) : ExecOK s .resume e := by
  cases hoff : c.values.eventSeqOffset with
  | none => exact execOK_open_pending hs hck hoff he
  | some o => exact execOK_open_consumed hs hck hoff he

theorem execOK_open {existing : Option Config} {fresh : Option Nat} {e : Exec}
    (h : ExecOK s mode (.ready existing fresh))
    (he : openStream runId mode s existing fresh = some e) : ExecOK s mode e := by
  cases fresh with
  | some o => exact execOK_open_fresh h he
  | none =>
    obtain ⟨hs, rfl, ⟨r, rfl, hck⟩ | rfl⟩ := h
    · rw [hck] at he
      simp only [openStream, cursorArgs] at he
      split at he
      · cases he
      · rename_i n o' hr
        obtain ⟨rfl, rfl, hz⟩ := reconcile_nil hs.log (Nat.zero_le _) hr
        cases he
        have h0 : StreamOK s (inputStream runId r s.log.length) := streamOK_input hs.log hck r
        rw [← hz] at h0
        rw [hck]
        exact h0
    · cases hck : s.ckpt with
      | some c =>
        rw [hck] at he
        exact execOK_open_existing hs hck he
      | none =>
        simp only [openStream, cursorArgs, hck, Option.map_none] at he
        split at he
        · cases he
        · cases he

/-! ## The stream's own steps -/

theorem streamOK_superstep {n : Node} {u : Update} (h : StreamOK s st)
    (hn : st.cfg.next = some n) : StreamOK s (st.advanced n u) := by
  obtain ⟨es, hes⟩ := advance_events n st.cfg u
  have hsound := h.sound.advance hn u
  have hpre : st.cfg.values.nodeEvents <+: (advance n st.cfg u).values.nodeEvents := by
    rw [hes]
    exact List.prefix_append _ _
  refine ⟨h.log, hsound, h.len, Nat.le_trans h.le hpre.length_le, ?_, ?_, ?_, ?_, ?_, ?_⟩
  · simp only [Stream.advanced, h.slice, hes, List.take_append_of_le_length h.le]
  · intro hy; cases hy
  · intro _
    exact successor_ne_start _ _
  · intro c hc
    rcases List.mem_append.mp hc with hc | hc
    · obtain ⟨h1, h2⟩ := h.puts c hc
      exact ⟨h1, h2.trans hpre⟩
    · rw [List.mem_singleton.mp hc]
      exact ⟨hsound, List.prefix_refl _⟩
  · intro c hc
    obtain ⟨h1, h2⟩ := h.ckpt c hc
    exact ⟨h1, h2.trans hpre⟩
  · simp [Stream.advanced]

/-- Nothing to append: everything was. -/
theorem streamOK_emit (h : StreamOK s st)
    (hle : st.cfg.values.nodeEvents.length ≤ st.persisted) :
    StreamOK s { st with yielded := false } :=
  ⟨h.log, h.sound, h.len, h.le, h.slice, fun _ => Nat.le_antisymm h.le hle, h.halted, h.puts,
    h.ckpt, h.last⟩

theorem streamOK_append {log : Log} (h : StreamOK s st)
    (ha : appendEvents s.log st.cfg.values.nodeEvents st.persisted st.seqOffset = some log) :
    StreamOK { s with log }
      { st with persisted := st.cfg.values.nodeEvents.length, yielded := false } := by
  obtain ⟨rows, happ, hcont, hrows, hfps⟩ :=
    appendEvents_contiguous h.log st.cfg.values.nodeEvents h.len
  rw [happ] at ha
  cases ha
  have hle : st.seqOffset ≤ s.log.length := by rw [h.len]; exact Nat.le_add_right _ _
  refine ⟨hcont, h.sound, ?_, Nat.le_refl _, ?_, fun _ => rfl, h.halted, h.puts, h.ckpt, h.last⟩
  · simp only [List.length_append, hrows, h.len]
    have := h.le
    omega
  · rw [List.drop_append_of_le_length hle, List.take_length]
    simp only [rowFps, fps, List.map_append] at hfps ⊢
    rw [hfps]
    have hsl := h.slice
    simp only [rowFps, fps] at hsl
    rw [hsl, ← List.map_append, List.take_append_drop]

theorem streamOK_write {c : Config} {rest : List Config} (h : StreamOK s st)
    (hp : st.puts = c :: rest) :
    StreamOK { s with ckpt := some c } { st with puts := rest } where
  log := h.log
  sound := h.sound
  len := h.len
  le := h.le
  slice := h.slice
  synced := h.synced
  halted := h.halted
  puts x hx := h.puts x (by rw [hp]; exact List.mem_cons_of_mem _ hx)
  ckpt x hx := by
    cases hx
    exact h.puts c (by rw [hp]; exact List.mem_cons_self ..)
  last := by
    have hl := h.last
    rw [hp] at hl
    cases rest with
    | nil => simpa using hl
    | cons d ds =>
      rw [List.getLast?_cons_cons] at hl
      rw [List.getLast?_eq_some_getLast (List.cons_ne_nil d ds)] at hl ⊢
      exact hl

/-- At the end of the stream the checkpoint is the config in memory, and the
log has all its events. -/
theorem agreed_of_over (h : StreamOK s st) (ho : st.over = true) :
    Agreed s.log ((s.ckpt.map (·.values)).getD {}) := by
  simp only [Stream.over, Bool.and_eq_true, Bool.not_eq_true', List.isEmpty_iff, Bool.or_eq_true,
    Option.isNone_iff_eq_none] at ho
  obtain ⟨⟨hy, hp⟩, hend⟩ := ho
  have hck : s.ckpt = some st.cfg := by
    have hl := h.last
    rw [hp] at hl
    simpa using hl
  have hne : st.cfg.next ≠ some .start := by
    rcases hend with hh | hn
    · exact h.halted hh
    · rw [hn]; simp
  have hin : st.cfg.input = none := by
    cases hi : st.cfg.input with
    | none => rfl
    | some i => exact absurd (h.sound.pending.mp (by rw [hi]; rfl)) hne
  refine ⟨st.seqOffset, ?_, ?_⟩
  · have hb := h.sound.base
    simp only [base, hin] at hb
    simp [hck, hb]
  · rw [eventRows_eq_drop h.log, h.slice, h.synced hy, List.take_length, hck]
    rfl

theorem execOK_step {e e' : Exec} {x : XEv} (h : ExecOK s mode e)
    (hs : e.step lib runId mode s x = some (s', e')) : ExecOK s' mode e' := by
  cases step_cases hs with
  | nextSeq existing => exact ⟨h.1, nextEventSeq_eq h.1.log, h.2⟩
  | delete existing o =>
    have hempty : StoreOK { s with ckpt := none } := ⟨h.1.log, fun c hc => by cases hc⟩
    exact ⟨hempty, h.2.1, rfl, h.2.2⟩
  | reconcile ho => exact execOK_open h ho
  | write hp => exact streamOK_write h hp
  | superstep hy hh hn hu => exact streamOK_superstep h hn
  | emit hy hle => exact streamOK_emit h hle
  | append hy hlt ha => exact streamOK_append h ha
  | finish ho => exact ⟨StreamOK.storeOK h, agreed_of_over h ho⟩

/-! ## Every history -/

theorem execOK_load (h : StoreOK s) (hadm : admissible s mode = true) :
    ExecOK s mode (load s mode) := by
  cases mode with
  | start r => exact ⟨h, rfl, Or.inl ⟨r, rfl, by simpa [admissible] using hadm⟩⟩
  | resume => exact ⟨h, rfl, Or.inr rfl⟩
  | forceFresh r => exact ⟨h, r, rfl⟩

/-- The three kinds of step of a history. -/
theorem astep_cases {a a' : AState} {ev : AEv} (hs : astep lib runId a ev = some a') :
    (∃ m, ev = .begin m ∧ a.cur = none ∧ admissible a.store m = true ∧
      a' = { a with cur := some (m, load a.store m) }) ∨
    (∃ x m e store e', ev = .exec x ∧ a.cur = some (m, e) ∧
      e.step lib runId m a.store x = some (store, e') ∧ a' = ⟨store, some (m, e')⟩) ∨
    (∃ m e, ev = .stop ∧ a.cur = some (m, e) ∧ a' = { a with cur := none }) := by
  cases ev with
  | begin m =>
    simp only [astep] at hs
    split at hs
    · rename_i hc
      simp only [Bool.and_eq_true, Option.isNone_iff_eq_none] at hc
      cases hs
      exact Or.inl ⟨m, rfl, hc.1, hc.2, rfl⟩
    · cases hs
  | exec x =>
    simp only [astep] at hs
    split at hs
    · cases hs
    · rename_i m e hc
      obtain ⟨⟨store, e'⟩, ho, he⟩ := Option.map_eq_some_iff.mp hs
      exact Or.inr (Or.inl ⟨x, m, e, store, e', rfl, hc, ho, he.symm⟩)
  | stop =>
    simp only [astep] at hs
    split at hs
    · rename_i hc
      obtain ⟨⟨m, e⟩, hme⟩ := Option.isSome_iff_exists.mp hc
      cases hs
      exact Or.inr (Or.inr ⟨m, e, rfl, hme, rfl⟩)
    · cases hs

theorem ainv_step {a a' : AState} {ev : AEv} (h : AInv a) (hs : astep lib runId a ev = some a') :
    AInv a' := by
  rcases astep_cases hs with ⟨m, -, hc, hadm, rfl⟩ | ⟨x, m, e, store, e', -, hc, ho, rfl⟩ |
      ⟨m, e, -, hc, rfl⟩
  · rw [AInv, hc] at h
    exact execOK_load h hadm
  · rw [AInv, hc] at h
    exact execOK_step h ho
  · rw [AInv, hc] at h
    exact ExecOK.storeOK h

theorem attempts_inductive : (attempts lib runId).Inductive AInv where
  init := by
    intro s heq
    subst heq
    exact ⟨contiguous_nil, fun c hc => by cases hc⟩
  step _ _ _ h hs := ainv_step h hs

/-- **Event-log integrity across attempts.** In every history of executions,
crashes, resumes and force-fresh retries the sequences are `0 .. n-1`, and a
call that returns has its attempt's events in the log, each once and in
order. -/
theorem log_integrity (lib : Lib) (runId : String) (a : AState)
    (hr : (attempts lib runId).Reachable a) :
    Contiguous a.store.log ∧
      ∀ mode v, a.cur = some (mode, .returned v) → Agreed a.store.log v := by
  have h := attempts_inductive.reachable a hr
  obtain ⟨store, cur⟩ := a
  cases cur with
  | none => exact ⟨h.log, fun _ _ hc => by cases hc⟩
  | some me =>
    refine ⟨(ExecOK.storeOK h).log, ?_⟩
    intro mode v hc
    cases hc
    exact h.2

/-- The process dies with the checkpoint of `parse_intent` stored and its event
not; the resumed call appends it. -/
def crashAndResume : List AEv :=
  [.begin (.start "road works"), .exec .reconcile, .exec .write, .exec (.superstep demoPorts),
    .exec .write, .exec .emit, .exec (.superstep demoPorts), .exec .write, .stop,
    .begin .resume, .exec .reconcile, .exec .emit]

def resumed : AState :=
  (LTS.exec (astep asciiLib "run-1") {} crashAndResume).get (by decide +kernel)

theorem log_integrity_resumed : resumed.store.log.length = 1 ∧ Contiguous resumed.store.log ∧
    ∀ mode v, resumed.cur = some (mode, .returned v) → Agreed resumed.store.log v :=
  ⟨by decide +kernel,
    log_integrity asciiLib "run-1" resumed (LTS.reachable_of_exec crashAndResume (by rfl) _)⟩

end BidScope.L3
