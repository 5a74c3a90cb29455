import BidScope.L3Runs.Fencing
import BidScope.L3Runs.Attempts

/-!
# The log of a run with many workers

`Attempts` proves the log contiguous when one call follows another. Here the
calls overlap, a checkpoint write of a worker that left may land in the middle
of another's stream, and the log is contiguous all the same
(`log_contiguous`): an append reads the token in its own transaction, and what
the checkpoint holds decides which events are appended, not where.

The invariant `LogInv` has two parts: no attempt base, wherever it is stored,
lies beyond the end of the log; and the cursor of the worker that owns the row
is at the end of the log.
-/
namespace BidScope.L3

open BidScope.L1 BidScope.L2

/-! ## Where reconciliation leaves the cursor -/

theorem bySeq_lt {log : Log} (hc : Contiguous log) {o q : Nat} {e : Option Nat} {r : RunEvent}
    (h : bySeq (eventRows log o e) q = some r) : q < log.length := by
  have hm := List.mem_of_find?_eq_some h
  have hq : r.seq = q := by simpa using List.find?_some h
  exact hc.mem_seq.mp ⟨r, (List.mem_filter.mp hm).1, hq⟩

theorem legacyScan_length {log : Log} (hc : Contiguous log) {e : Option Nat} :
    ∀ (events : List NodeEvent) (i : Nat), i ≤ log.length →
      legacyScan (eventRows log 0 e) i events = .ok () → i + events.length ≤ log.length
  | [], _, hi, _ => hi
  | _ :: es, i, _, h => by
    unfold legacyScan at h
    split at h
    · cases h
    · rename_i row hrow
      split at h
      · cases h
      · have := legacyScan_length hc es (i + 1) (bySeq_lt hc hrow) h
        rw [List.length_cons]
        omega

/-- A legacy checkpoint is accepted at the end of the log only. -/
theorem reconcileLegacy_end {log : Log} (hc : Contiguous log) {events : List NodeEvent}
    {n o : Nat} (h : reconcileLegacy events log = .ok (n, o)) : log.length = o + n := by
  unfold reconcileLegacy at h
  have hmax := trailing_iff hc 0
  rw [eventRows_zero] at hmax
  split at h
  · split at h
    · cases h
    · rename_i hnone
      cases h
      cases hl : log with
      | nil => rfl
      | cons r rest => simp [maxEventSeq, hl] at hnone
  · split at h
    · cases h
    · rename_i hscan
      split at h
      · cases h
      · rename_i htrail
        cases h
        have hle := legacyScan_length hc events 0 (Nat.zero_le _) hscan
        have hge := hmax events.length
        simp only [Nat.zero_add] at hge
        rw [hge] at htrail
        omega

/-- An accepted cursor is at the end of the log. -/
theorem reconcile_end {log : Log} (hc : Contiguous log) {events : List NodeEvent}
    {offset : Option Nat} {complete : Bool} {n o : Nat} (hb : ∀ b, offset = some b → b ≤ log.length)
    (h : reconcileEventCursor events log offset complete = .ok (n, o)) : log.length = o + n := by
  cases offset with
  | none => exact reconcileLegacy_end hc h
  | some b =>
    obtain ⟨rfl, -, hlen, -⟩ := reconcile_ok hc (hb b rfl) h
    exact hlen

/-! ## The bases an execution holds -/

/-- No base of `c` lies beyond `n`. -/
structure Bounded (n : Nat) (c : Config) : Prop where
  values : ∀ o, c.values.eventSeqOffset = some o → o ≤ n
  input : ∀ i o, c.input = some i → i.eventSeqOffset = some o → o ≤ n

/-- No base in a call's memory lies beyond `n`. -/
def ExecBounded (n : Nat) : Exec → Prop
  | .opened existing => ∀ c, existing = some c → Bounded n c
  | .resetting existing o => (∀ c, existing = some c → Bounded n c) ∧ o ≤ n
  | .ready existing fresh =>
    (∀ c, existing = some c → Bounded n c) ∧ ∀ o, fresh = some o → o ≤ n
  | .streaming st => Bounded n st.cfg ∧ ∀ c ∈ st.puts, Bounded n c
  | .returned _ => True

/-- A stream would append at `n`. -/
def AtEnd (n : Nat) (e : Exec) : Prop := ∀ st, e = .streaming st → n = st.seqOffset + st.persisted

variable {lib : Lib} {runId userRequest : String} {mode : Mode} {m n : Nat} {c : Config}
  {e e' : Exec}

theorem Bounded.mono (h : Bounded n c) (hle : n ≤ m) : Bounded m c :=
  ⟨fun o ho => Nat.le_trans (h.values o ho) hle, fun i o hi ho => Nat.le_trans (h.input i o hi ho) hle⟩

theorem ExecBounded.mono (h : ExecBounded n e) (hle : n ≤ m) : ExecBounded m e := by
  cases e with
  | opened _ => exact fun c hc => (h c hc).mono hle
  | resetting _ _ => exact ⟨fun c hc => (h.1 c hc).mono hle, Nat.le_trans h.2 hle⟩
  | ready _ _ =>
    exact ⟨fun c hc => (h.1 c hc).mono hle, fun o ho => Nat.le_trans (h.2 o ho) hle⟩
  | streaming _ => exact ⟨h.1.mono hle, fun c hc => (h.2 c hc).mono hle⟩
  | returned _ => trivial

theorem atEnd_idle (h : ∀ st, e ≠ .streaming st) : AtEnd n e := fun st he => absurd he (h st)

theorem Bounded.advance (h : Bounded n c) (nd : Node) (u : Update) :
    Bounded n (advance nd c u) := by
  refine ⟨fun o ho => ?_, fun i o hi => by simp [L2.advance] at hi⟩
  by_cases hst : nd = .start
  · subst hst
    cases hi : c.input with
    | none =>
      simp only [L2.advance, advanceValues, hi] at ho
      exact h.values o ho
    | some i =>
      simp only [L2.advance, advanceValues, hi, applyInput_eventSeqOffset] at ho
      exact h.input i o hi ho
  · simp only [L2.advance, advanceValues_of_ne hst, apply_eventSeqOffset] at ho
    exact h.values o ho

theorem bounded_input {ckpt : Option Config} {offset : Option Nat} {r : String}
    (hck : ∀ c, ckpt = some c → Bounded n c) (hoff : ∀ o, offset = some o → o ≤ n) :
    Bounded n (inputConfig runId r ckpt offset) := by
  refine ⟨fun o ho => ?_, fun i o hi ho => ?_⟩
  · cases hc : ckpt with
    | none => simp [inputConfig, hc] at ho
    | some c =>
      simp only [inputConfig, hc, Option.map_some, Option.getD_some] at ho
      exact (hck c hc).values o ho
  · cases hi
    exact hoff o ho

/-- The base the cursor is aligned with is one the call holds. -/
theorem cursorArgs_bounded {existing : Option Config} {fresh offset : Option Nat}
    {events : List NodeEvent} {finished : Bool} (h : ExecBounded n (.ready existing fresh))
    (ha : cursorArgs existing fresh = (events, offset, finished)) :
    ∀ o, offset = some o → o ≤ n := by
  intro o ho
  cases fresh with
  | some f =>
    cases ha
    exact h.2 o ho
  | none =>
    cases existing with
    | none =>
      cases ha
      cases ho
      exact Nat.zero_le _
    | some c =>
      cases ha
      exact (h.1 c rfl).values o ho

/-! ## One step of a call -/

/-- What the store and a call keep of each other. -/
structure StoreBounded (s : Store) : Prop where
  log : Contiguous s.log
  ckpt : ∀ c, s.ckpt = some c → Bounded s.log.length c

variable {s s' : Store}

theorem execBounded_load (h : StoreBounded s) (mode : Mode) :
    ExecBounded s.log.length (load s mode) := by
  cases mode with
  | forceFresh _ => exact h.ckpt
  | start _ | resume => exact ⟨h.ckpt, fun o ho => by cases ho⟩

theorem load_idle (s : Store) (mode : Mode) : ∀ st, load s mode ≠ .streaming st := by
  intro st
  cases mode <;> simp [load]

/-- An opened stream is at the end of the log. -/
theorem opened_atEnd {existing : Option Config} {fresh : Option Nat} (h : StoreBounded s)
    (he : ExecBounded s.log.length (.ready existing fresh))
    (ho : openStream runId mode s existing fresh = some e) :
    ExecBounded s.log.length e ∧ AtEnd s.log.length e := by
  obtain ⟨events, offset, finished, persisted, seqOffset, ha, hr, hcase⟩ := openStream_cases ho
  have hoff := cursorArgs_bounded he ha
  have hend := reconcile_end h.log hoff hr
  rcases hcase with ⟨c, -, -, rfl⟩ | ⟨r, -, rfl⟩ | ⟨c, -, hck, rfl⟩
  · exact ⟨trivial, atEnd_idle fun st hst => by cases hst⟩
  · have hin : Bounded s.log.length (inputConfig runId r s.ckpt offset) := bounded_input h.ckpt hoff
    refine ⟨⟨hin, fun c hc => ?_⟩, fun st hst => ?_⟩
    · rw [List.mem_singleton.mp hc]
      exact hin
    · cases hst
      exact hend
  · refine ⟨⟨h.ckpt c hck, fun c' hc' => by cases hc'⟩, fun st hst => ?_⟩
    cases hst
    exact hend

/-- A call's step keeps the log contiguous, and its own cursor at the end of it
if the worker owns the row. Only the owner's steps lengthen the log. -/
theorem logged_exec {x : XEv} {owner : Prop} (h : StoreBounded s)
    (he : ExecBounded s.log.length e) (hcur : owner → AtEnd s.log.length e)
    (hchk : e.checked x = true → owner) (hs : e.step lib runId mode s x = some (s', e')) :
    StoreBounded s' ∧ ExecBounded s'.log.length e' ∧ (owner → AtEnd s'.log.length e') ∧
      (s'.log = s.log ∨ owner ∧ s.log.length ≤ s'.log.length) := by
  cases step_cases hs with
  | nextSeq existing =>
    have hend := nextEventSeq_eq h.log
    exact ⟨h, ⟨he, Nat.le_of_eq hend⟩, fun _ => atEnd_idle (fun st hst => by cases hst), Or.inl rfl⟩
  | delete existing o =>
    refine ⟨⟨h.log, fun c hc => by cases hc⟩, ⟨he.1, fun o' ho' => ?_⟩,
      fun _ => atEnd_idle (fun st hst => by cases hst), Or.inl rfl⟩
    cases ho'
    exact he.2
  | reconcile ho =>
    obtain ⟨hb, hend⟩ := opened_atEnd h he ho
    exact ⟨h, hb, fun _ => hend, Or.inl rfl⟩
  | @write st c rest hp =>
    refine ⟨⟨h.log, fun c' hc' => ?_⟩,
      ⟨he.1, fun c' hc' => he.2 c' (by rw [hp]; exact List.mem_cons_of_mem _ hc')⟩,
      fun ho st' hst' => ?_, Or.inl rfl⟩
    · cases hc'
      exact he.2 c (by rw [hp]; exact List.mem_cons_self ..)
    · cases hst'
      exact hcur ho st rfl
  | @superstep st p nd u hy hh hn hu =>
    refine ⟨h, ⟨he.1.advance nd u, fun c hc => ?_⟩, fun ho st' hst' => ?_, Or.inl rfl⟩
    · rcases List.mem_append.mp hc with hc | hc
      · exact he.2 c hc
      · rw [List.mem_singleton.mp hc]
        exact he.1.advance nd u
    · cases hst'
      exact hcur ho st rfl
  | @emit st hy hle =>
    refine ⟨h, he, fun ho st' hst' => ?_, Or.inl rfl⟩
    cases hst'
    exact hcur ho st rfl
  | @append st log hy hlt ha =>
    have ho : owner := hchk (by simpa [Exec.checked] using hlt)
    have hend := hcur ho st rfl
    obtain ⟨rows, happ, hcont, hrows, -⟩ :=
      appendEvents_contiguous h.log st.cfg.values.nodeEvents hend
    rw [happ] at ha
    cases ha
    have hgrow : s.log.length ≤ (s.log ++ rows).length := by
      rw [List.length_append]
      exact Nat.le_add_right _ _
    refine ⟨⟨hcont, fun c hc => (h.ckpt c hc).mono hgrow⟩,
      ⟨he.1.mono hgrow, fun c hc => (he.2 c hc).mono hgrow⟩, fun _ st' hst' => ?_,
      Or.inr ⟨ho, hgrow⟩⟩
    cases hst'
    rw [List.length_append, hrows, hend]
    simp only
    omega
  | finish ho =>
    exact ⟨h, trivial, fun _ => atEnd_idle (fun st hst => by cases hst), Or.inl rfl⟩

/-! ## Every interleaving -/

structure LogInv (s : SState) : Prop where
  tokens : Tokens s
  store : StoreBounded s.store
  held : ∀ w x e, s.workers w = some x → x.exec = some e → ExecBounded s.store.log.length e
  owner : ∀ w x e, s.workers w = some x → x.exec = some e → s.owns x = true →
    AtEnd s.store.log.length e

variable {a a' : SState} {w : Nat} {x : Worker}

/-- Two workers that own the row are one. -/
theorem Tokens.one_owner (h : Tokens a) {w' : Nat} {x' : Worker} (hx : a.workers w = some x)
    (hx' : a.workers w' = some x') (ho : a.owns x = true) (ho' : a.owns x' = true) : w = w' := by
  simp only [SState.owns, Bool.and_eq_true, decide_eq_true_eq] at ho ho'
  refine h.distinct w w' x x' hx hx' ?_
  have := ho.2.symm.trans ho'.2
  simpa using this

/-- A step that touches no execution and gives the row to none. -/
theorem logInv_frame (h : LogInv a) (ht : Tokens a') (hst : a'.store = a.store)
    (hw : ∀ w' x' e, a'.workers w' = some x' → x'.exec = some e →
      ∃ x₀, a.workers w' = some x₀ ∧ x₀.exec = some e ∧ (a'.owns x' = true → a.owns x₀ = true)) :
    LogInv a' := by
  refine ⟨ht, by rw [hst]; exact h.store, fun w' x' e hx' he => ?_, fun w' x' e hx' he ho => ?_⟩
  · obtain ⟨x₀, hx₀, he₀, -⟩ := hw w' x' e hx' he
    rw [hst]
    exact h.held w' x₀ e hx₀ he₀
  · obtain ⟨x₀, hx₀, he₀, hown⟩ := hw w' x' e hx' he
    rw [hst]
    exact h.owner w' x₀ e hx₀ he₀ (hown ho)

/-- A step that changes worker `w` but not what it executes. -/
theorem logInv_put {x' : Worker} (h : LogInv a) (ht : Tokens a') (hx : a.workers w = some x)
    (hst : a'.store = a.store) (hw : a'.workers = Function.update a.workers w (some x'))
    (hrow : ∀ y : Worker, a'.owns y = true → a.owns y = true) (htok : x'.token = x.token)
    (hexec : x'.exec = x.exec) : LogInv a' := by
  refine logInv_frame h ht hst fun w' y e hy he => ?_
  rw [hw] at hy
  rcases LTS.of_update hy with ⟨rfl, hy'⟩ | ⟨-, h₀⟩
  · cases hy'
    refine ⟨x, hx, by rw [← hexec]; exact he, fun ho => ?_⟩
    have := hrow x' ho
    simpa only [SState.owns, htok] using this
  · exact ⟨y, h₀, he, hrow y⟩

theorem not_owns_unowned {status : RunStatus} (y : Worker)
    (hrow : a.row = unowned status) : a.owns y = false := by
  simp [SState.owns, hrow, unowned]

theorem logInv_exec {mode : Mode} {ev : XEv} {store : Store} {armed : Bool} (h : LogInv a)
    (ht : Tokens ({ a with store }.put w { x with exec := some e', armed }))
    (hx : a.workers w = some x) (he : x.exec = some e)
    (hchk : e.checked ev = true → a.ensureActive x = true)
    (hs : e.step lib runId mode a.store ev = some (store, e')) :
    LogInv ({ a with store }.put w { x with exec := some e', armed }) := by
  have hown : e.checked ev = true → a.owns x = true := fun hc => by
    have := hchk hc
    simp only [SState.ensureActive, Bool.and_eq_true] at this
    exact this.1
  obtain ⟨hstore, hb, hend, hgrow⟩ :=
    logged_exec h.store (h.held w x e hx he) (h.owner w x e hx he) hown hs
  have hle : a.store.log.length ≤ store.log.length := by
    rcases hgrow with heq | ⟨-, hle⟩
    · rw [heq]
    · exact hle
  refine ⟨ht, hstore, fun w' y f hy hf => ?_, fun w' y f hy hf ho => ?_⟩
  · rcases LTS.of_update hy with ⟨-, hy'⟩ | ⟨-, h₀⟩
    · cases hy'
      cases hf
      exact hb
    · exact (h.held w' y f h₀ hf).mono hle
  · rcases LTS.of_update hy with ⟨-, hy'⟩ | ⟨hne, h₀⟩
    · cases hy'
      cases hf
      exact hend ho
    · -- another owner: the log cannot have grown
      rcases hgrow with heq | ⟨hox, -⟩
      · show AtEnd store.log.length f
        rw [heq]
        exact h.owner w' y f h₀ hf ho
      · exact absurd (h.tokens.one_owner h₀ hx ho hox) hne

theorem logInv_work {ev : WEv} (h : LogInv a) (hx : a.workers w = some x)
    (hs : WStep lib runId userRequest a w x ev a') : LogInv a' := by
  have ht := tokens_work h.tokens hx hs
  cases hs with
  | lookup | locked | refused | activate | guard | heartbeat | raise =>
    exact logInv_put h ht hx rfl rfl (fun _ ho => ho) rfl rfl
  | @load mode hm hp ho =>
    refine ⟨ht, h.store, fun w' y f hy hf => ?_, fun w' y f hy hf hoy => ?_⟩
    · rcases LTS.of_update hy with ⟨-, hy'⟩ | ⟨-, h₀⟩
      · cases hy'
        cases hf
        exact execBounded_load h.store mode
      · exact h.held w' y f h₀ hf
    · rcases LTS.of_update hy with ⟨-, hy'⟩ | ⟨-, h₀⟩
      · cases hy'
        cases hf
        exact atEnd_idle (load_idle _ _)
      · exact h.owner w' y f h₀ hf hoy
  | exec hm he hmay hchk hstep => exact logInv_exec h ht hx he hchk hstep
  | settle he ho =>
    refine logInv_put h ht hx rfl rfl (fun y hy => ?_) rfl rfl
    rw [not_owns_unowned y rfl] at hy
    cases hy
  | repair ho =>
    refine logInv_frame h ht rfl fun w' y e hy he => ⟨y, hy, he, fun hoy => ?_⟩
    rw [not_owns_unowned y rfl] at hoy
    cases hoy
  | release => exact logInv_frame h ht rfl fun w' y e hy he => ⟨y, hy, he, id⟩
  | crash =>
    refine logInv_frame h ht rfl fun w' y e hy he => ?_
    rcases LTS.of_update hy with ⟨-, hy'⟩ | ⟨-, h₀⟩
    · cases hy'
    · exact ⟨y, h₀, he, id⟩

theorem logInv_step {ev : SEv} (h : LogInv a) (hs : SStep lib runId userRequest a ev a') :
    LogInv a' := by
  have ht := tokens_step h.tokens hs
  cases hs with
  | @claim _ w eligible mode _ hw =>
    refine logInv_frame h ht rfl fun w' y e hy he => ?_
    rcases LTS.of_update hy with ⟨-, hy'⟩ | ⟨-, h₀⟩
    · -- the new worker executes nothing yet
      cases hy'
      cases he
    · refine ⟨y, h₀, he, fun hoy => ?_⟩
      -- a token in use is not the fresh one
      simp only [SState.owns, SState.put, Bool.and_eq_true, decide_eq_true_eq,
        Option.some.injEq] at hoy
      exact absurd hoy.2 (Nat.ne_of_gt (h.tokens.fresh w' y h₀))
  | work hx hw => exact logInv_work h hx hw
  | disown =>
    refine logInv_frame h ht rfl fun w' y e hy he => ⟨y, hy, he, fun hoy => ?_⟩
    rw [not_owns_unowned y rfl] at hoy
    cases hoy
  | staleLock => exact logInv_frame h ht rfl fun w' y e hy he => ⟨y, hy, he, id⟩
  | staleRelease => exact logInv_frame h ht rfl fun w' y e hy he => ⟨y, hy, he, id⟩

theorem logInv_inductive : (service lib runId userRequest).Inductive LogInv where
  init s heq := by
    refine ⟨tokens_inductive.init s heq, ?_, ?_, ?_⟩
    · subst heq
      exact ⟨contiguous_nil, fun c hc => by cases hc⟩
    · subst heq
      intro w x e hx
      cases hx
    · subst heq
      intro w x e hx
      cases hx
  step _ _ _ h hs := logInv_step h (sstep_cases hs)

/-- **The log under contention.** Whatever the workers, the recovery and the
crashes do, the sequences are `0 .. n-1`. -/
theorem log_contiguous {s : SState} (hr : (service lib runId userRequest).Reachable s) :
    Contiguous s.store.log :=
  (logInv_inductive.reachable s hr).store.log

/-- A step appends to the log, if it touches it at all, and does then not
touch the row. -/
theorem log_appends {ev : SEv} (hs : SStep lib runId userRequest a ev a') :
    a.store.log <+: a'.store.log ∧ (a'.store.log = a.store.log ∨ a'.row = a.row) := by
  have hsame : a'.store.log = a.store.log →
      a.store.log <+: a'.store.log ∧ (a'.store.log = a.store.log ∨ a'.row = a.row) :=
    fun heq => ⟨by rw [heq], Or.inl heq⟩
  cases hs with
  | work hx hw =>
    cases hw with
    | exec hm he hmay hchk hstep =>
      cases step_cases hstep with
      | @append st log hy hlt ha =>
        unfold appendEvents at ha
        simp only at ha
        split at ha
        · cases ha
        · cases ha
          exact ⟨List.prefix_append _ _, Or.inr rfl⟩
      | _ => exact hsame rfl
    | _ => exact hsame rfl
  | _ => exact hsame rfl

end BidScope.L3
