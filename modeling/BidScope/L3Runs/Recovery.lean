import BidScope.L2Graph.Healthy
import BidScope.L3Runs.Attempts

/-!
# What a retry can recover

`RunService.retry` of a run whose previous execution ended early: `retryMode`
resumes a checkpoint with a pending node and restarts from scratch otherwise.
`Going` is a step of that execution when nothing disturbs it: no crash, and
`Healthy` ports. Checkpoints still land before or after the consumer goes on.

**Recovery (`recovers_iff`).** Retries bring the run to the end of the graph
or to a pause exactly when the last execution did not leave it `Stuck`:
* the log is ahead of the checkpoint's events. The reconcile procedure rejects
  the resume, and a resume is all that `retry` offers;
* the checkpoint is the stored input of an attempt (`start` pending) and the
  log is not empty. The input's offset is not in the channel values yet, so
  the checkpoint is taken for a legacy one and rejected;
* `parse_intent` failed and `validate_intent` is pending without an intent,
  which it reads through on every resume.

A run that is not stuck needs one retry: `Live` holds along the call and at
its end leaves nothing but a settled run (`live_progress`, `live_step`). A
retry of a stuck run raises and leaves it stuck (`doomed_step`).
-/
namespace BidScope.L3

open BidScope.L1 BidScope.L2

/-! ## Configs in play -/

/-- `P` holds of the checkpoint, and of every config the current call still
works from. -/
def ConfigsIn (P : Config → Prop) (s : Store) (e : Exec) : Prop :=
  (∀ c, s.ckpt = some c → P c) ∧ ∀ st, e = .streaming st → P st.cfg ∧ ∀ c ∈ st.puts, P c

variable {lib : Lib} {p : Ports} {runId : String} {P : Config → Prop} {s s' : Store} {e e' : Exec} {mode : Mode}
  {st : Stream}

theorem configsIn_stream (h : ConfigsIn P s (.streaming st)) : P st.cfg ∧ ∀ c ∈ st.puts, P c :=
  h.2 st rfl

theorem configsIn_idle (hck : ∀ c, s.ckpt = some c → P c) (he : ∀ st, e ≠ .streaming st) :
    ConfigsIn P s e :=
  ⟨hck, fun st hst => absurd hst (he st)⟩

theorem configsIn_of_stream (hck : ∀ c, s.ckpt = some c → P c) (hcfg : P st.cfg)
    (hputs : ∀ c ∈ st.puts, P c) : ConfigsIn P s (.streaming st) :=
  ⟨hck, fun st' hst => by cases hst; exact ⟨hcfg, hputs⟩⟩

/-- The thread is empty when a stream of new input opens. -/
theorem ready_input {existing : Option Config} {fresh : Option Nat} {r : String}
    (h : ExecOK s mode (.ready existing fresh)) (hm : mode = .start r ∨ mode = .forceFresh r) :
    s.ckpt = none := by
  cases fresh with
  | some o => exact h.2.2.1
  | none =>
    obtain ⟨-, -, ⟨r', -, hck⟩ | rfl⟩ := h
    · exact hck
    · rcases hm with hm | hm <;> cases hm

theorem configsIn_step (hin : ∀ r o, P (inputConfig runId r none o))
    (hadv : ∀ p n c u, c.next = some n → (nodeFn lib p c.values n).result = .ok u → P c →
      P (advance n c u)) (hI : ExecOK s mode e) (h : ConfigsIn P s e) {x : XEv}
    (hs : e.step lib runId mode s x = some (s', e')) : ConfigsIn P s' e' := by
  cases step_cases hs with
  | nextSeq existing => exact configsIn_idle h.1 (fun st hst => by cases hst)
  | delete existing o => exact configsIn_idle (fun c hc => by cases hc) (fun st hst => by cases hst)
  | reconcile ho =>
    obtain ⟨_, _, _, _, _, -, -, ⟨c, -, -, rfl⟩ | ⟨r, hm, rfl⟩ | ⟨c, -, hck, rfl⟩⟩ :=
      openStream_cases ho
    · exact configsIn_idle h.1 (fun st hst => by cases hst)
    · rw [ready_input hI hm]
      refine configsIn_of_stream h.1 (hin r _) fun c hc => ?_
      rw [List.mem_singleton.mp hc]
      exact hin r _
    · exact configsIn_of_stream h.1 (h.1 c hck) (fun c hc => by cases hc)
  | write hp =>
    obtain ⟨hcfg, hputs⟩ := configsIn_stream h
    rw [hp] at hputs
    refine configsIn_of_stream (fun c hc => ?_) hcfg fun c hc => ?_
    · cases hc
      exact hputs _ (List.mem_cons_self ..)
    · exact hputs c (List.mem_cons_of_mem _ hc)
  | superstep hy hh hn hu =>
    obtain ⟨hcfg, hputs⟩ := configsIn_stream h
    have hP := hadv _ _ _ _ hn hu hcfg
    refine configsIn_of_stream h.1 hP fun c hc => ?_
    rcases List.mem_append.mp hc with hc | hc
    · exact hputs c hc
    · rw [List.mem_singleton.mp hc]
      exact hP
  | emit hy hle =>
    obtain ⟨hcfg, hputs⟩ := configsIn_stream h
    exact configsIn_of_stream h.1 hcfg hputs
  | append hy hlt ha =>
    obtain ⟨hcfg, hputs⟩ := configsIn_stream h
    exact configsIn_of_stream h.1 hcfg hputs
  | finish ho => exact configsIn_idle h.1 (fun st hst => by cases hst)

/-- The store and the current call of a history. -/
def Holds (P : Config → Prop) (a : AState) : Prop :=
  (∀ c, a.store.ckpt = some c → P c) ∧ ∀ m e, a.cur = some (m, e) → ConfigsIn P a.store e

/-- A property of new inputs that supersteps preserve holds of every config in
play. -/
theorem holds_inductive (hin : ∀ r o, P (inputConfig runId r none o))
    (hadv : ∀ p n c u, c.next = some n → (nodeFn lib p c.values n).result = .ok u → P c →
      P (advance n c u)) :
    (attempts lib runId).Inductive fun a => AInv a ∧ Holds P a := by
  refine attempts_inductive.and ?_ ?_
  · intro a heq
    subst heq
    refine ⟨fun c hc => ?_, fun m e hc => ?_⟩
    · cases hc
    · cases hc
  · intro a ev a' hI h hs
    rcases astep_cases hs with ⟨m, -, hc, -, rfl⟩ | ⟨x, m, e, store, e', -, hc, ho, rfl⟩ |
        ⟨m, e, -, hc, rfl⟩
    · refine ⟨h.1, fun m' e hc' => ?_⟩
      cases hc'
      exact configsIn_idle h.1 (fun st hst => by cases m <;> cases hst)
    · rw [AInv, hc] at hI
      have hstep := configsIn_step hin hadv hI (h.2 m e hc) ho
      refine ⟨hstep.1, fun m' e₁ hc' => ?_⟩
      cases hc'
      exact hstep
    · exact ⟨h.1, fun m' e₁ hc' => by cases hc'⟩

/-- The pending node finds its fields, except that a failed `parse_intent`
leaves `validate_intent` without an intent; and `pause` is only pending under
its status. -/
structure Fit (c : Config) : Prop where
  ready : ∀ n, c.next = some n → n ≠ .validateIntent → Ready c.values n
  pause : c.next = some .pause → c.values.status = .awaitingConfirmation

theorem successor_pause {v : RunState} {n : Node} (h : successor v n = some .pause) :
    v.status = .awaitingConfirmation := by
  cases n with
  | validateIntent => simp only [successor, routeAfterValidate] at h; split at h <;> cases h
  | confirmIntent =>
    simp only [successor, routeAfterConfirm] at h
    split at h
    · assumption
    · cases h
  | validateReport =>
    simp only [successor, routeAfterValidateReport] at h
    split at h
    · cases h
    · split at h <;> cases h
  | _ => cases h

theorem fit_advance {n : Node} {c : Config} {u : Update} (hn : c.next = some n)
    (hu : (nodeFn lib p c.values n).result = .ok u) (h : Fit c) : Fit (advance n c u) := by
  refine ⟨fun m hm hne => ?_, successor_pause⟩
  have hp : n ≠ .parseIntent := by
    intro heq
    subst heq
    cases hm
    exact hne rfl
  have hr : Ready c.values n := by
    by_cases hv : n = .validateIntent
    · subst hv
      obtain ⟨i, hi, -⟩ := validateIntent_cases hu
      simp [Ready, hi]
    · exact h.ready n hn hv
  exact ready_advance hr hu (fun he => absurd he hp) hm

theorem fit_inductive (lib : Lib) (runId : String) :
    (attempts lib runId).Inductive fun a => AInv a ∧ Holds Fit a :=
  holds_inductive
    (fun r o => ⟨fun n hn _ => (by cases hn; trivial), fun hn => (by cases hn)⟩)
    fun _ _ _ _ hn hu h => fit_advance hn hu h

/-! ## A retry, undisturbed -/

/-- The input of a retry.
mirrors api/dependencies.py:885-922 -/
def retryMode (userRequest : String) (s : Store) : Mode :=
  if (s.ckpt.bind (·.next)).isSome then .resume else .forceFresh userRequest

def XEv.Healthy : XEv → Prop
  | .superstep p => L2.Healthy p
  | _ => True

def Going (lib : Lib) (runId : String) (a b : AState) : Prop :=
  ∃ x : XEv, x.Healthy ∧ astep lib runId a (.exec x) = some b

/-- The retry has begun. -/
def retried (userRequest : String) (a : AState) : AState :=
  { a with cur := some (retryMode userRequest a.store, load a.store (retryMode userRequest a.store)) }

def Paused (c : Config) : Prop :=
  c.next = some .buildRetrievalPlan ∧ c.values.status = .awaitingConfirmation

/-- The call returned with the run at the end of the graph or at a pause. -/
def Settled (a : AState) : Prop :=
  ∃ m c, a.cur = some (m, .returned c.values) ∧ a.store.ckpt = some c ∧ (c.next = none ∨ Paused c)

/-- Finitely many undisturbed retries settle the run, whatever the order of
their steps. -/
inductive Recovers (lib : Lib) (runId userRequest : String) : AState → Prop where
  | retry {a : AState} (hfin : LTS.Terminates (Going lib runId) (retried userRequest a))
      (hend : ∀ b, Relation.ReflTransGen (Going lib runId) (retried userRequest a) b →
        LTS.Ended (Going lib runId) b → ¬ Settled b →
          Recovers lib runId userRequest { b with cur := none }) :
      Recovers lib runId userRequest a

/-- The last execution left nothing a retry can work with. -/
def Stuck (s : Store) : Prop :=
  ∃ c ∈ s.ckpt, (c.next = some .start ∧ s.log ≠ []) ∨
    (c.next ≠ none ∧ ∃ o ∈ c.values.eventSeqOffset,
      o + c.values.nodeEvents.length < s.log.length) ∨
    (c.next = some .validateIntent ∧ c.values.searchIntent = none)

instance (s : Store) : Decidable (Stuck s) := by
  unfold Stuck
  infer_instance

variable {userRequest : String} {a b : AState}

theorem retried_begin (userRequest : String) (h : a.cur = none) :
    astep lib runId a (.begin (retryMode userRequest a.store)) = some (retried userRequest a) := by
  have hadm : admissible a.store (retryMode userRequest a.store) = true := by
    unfold retryMode
    split <;> rfl
  simp [astep, h, hadm, retried]

/-! ## Every call ends -/

/-- A bound on the steps a call has left. -/
def Exec.todo : Exec → Nat
  | .opened _ => 51
  | .resetting _ _ => 50
  | .ready _ _ => 49
  | .streaming st =>
    3 * (bif st.halted then 0 else rank st.cfg) + st.puts.length + st.yielded.toNat + 1
  | .returned _ => 0

theorem todo_step {x : XEv} (h : e.step lib runId mode s x = some (s', e')) : e'.todo < e.todo := by
  cases step_cases h with
  | nextSeq existing => simp [Exec.todo]
  | delete existing o => simp [Exec.todo]
  | reconcile ho =>
    obtain ⟨_, offset, _, _, _, -, -, ⟨c, -, -, rfl⟩ | ⟨r, -, rfl⟩ | ⟨c, -, -, rfl⟩⟩ :=
      openStream_cases ho
    · simp [Exec.todo]
    · have := rank_le (inputConfig runId r s.ckpt offset)
      simp only [Exec.todo, List.length_cons, List.length_nil, cond_false, Bool.toNat_false]
      omega
    · have := rank_le c
      simp only [Exec.todo, List.length_nil, cond_false, Bool.toNat_true]
      omega
  | write hp => simp [Exec.todo, hp]
  | @superstep st p n u hy hh hn hu =>
    have hlt := rank_advance hn hu
    simp only [Exec.todo, Stream.advanced, hy, hh, List.length_append, List.length_cons,
      List.length_nil, cond_false, Bool.toNat_true, Bool.toNat_false]
    cases n == Node.pause with
    | true => simp only [cond_true]; omega
    | false => simp only [cond_false]; omega
  | emit hy hle => simp [Exec.todo, hy]
  | append hy hlt ha => simp [Exec.todo, hy]
  | finish ho => simp [Exec.todo]

theorem going_terminates (lib : Lib) (runId : String) (a : AState) :
    LTS.Terminates (Going lib runId) a := by
  refine LTS.terminates_of_measure (μ := fun a => a.cur.elim 0 (·.2.todo)) ?_ a
  intro a b hstep
  obtain ⟨x, -, hx⟩ := hstep
  rcases astep_cases hx with ⟨m, hm, -⟩ | ⟨_, m, e, store, e', -, hc, ho, rfl⟩ | ⟨m, e, hm, -⟩
  · cases hm
  · simpa [hc] using todo_step ho
  · cases hm

/-! ## A retry that is not stuck -/

/-- What an undisturbed call of a run that is not stuck keeps true. -/
def Runs (st : Stream) : Prop :=
  (∀ n, st.cfg.next = some n → Ready st.cfg.values n) ∧ (st.halted = true → Paused st.cfg)

def Live (runId : String) (s : Store) (mode : Mode) : Exec → Prop
  | .opened _ | .resetting _ _ => True
  | .ready existing fresh =>
    ∃ st, openStream runId mode s existing fresh = some (.streaming st) ∧ Runs st
  | .streaming st => Runs st
  | .returned v => ∃ c, s.ckpt = some c ∧ v = c.values ∧ (c.next = none ∨ Paused c)

/-- A checkpoint in front of the log is accepted. -/
theorem reconcile_resumes {c : Config} {n : Node} (hs : StoreOK s) (hck : s.ckpt = some c)
    (hn : c.next = some n) (hstuck : ¬ Stuck s) :
    ∃ r, reconcileEventCursor c.values.nodeEvents s.log c.values.eventSeqOffset false = .ok r := by
  obtain ⟨o, hsound, ho, hpre⟩ := hs.ckpt c hck
  have hbase := hsound.base
  cases hi : c.input with
  | some i =>
    obtain ⟨hoff, hev⟩ := hsound.fresh (by rw [hi]; rfl)
    have hst := hsound.pending.mp (by rw [hi]; rfl)
    have hlog : s.log = [] := by
      by_contra hne
      exact hstuck ⟨c, hck, Or.inl ⟨hst, hne⟩⟩
    rw [hoff, hev]
    exact ⟨_, (reconcileLegacy_nil s.log).mpr hlog⟩
  | none =>
    simp only [base, hi] at hbase
    have hlen : s.log.length ≤ o + c.values.nodeEvents.length := by
      by_contra hgt
      exact hstuck ⟨c, hck, Or.inr (Or.inl ⟨by simp [hn], o, hbase, by omega⟩)⟩
    have hdrop : (s.log.drop o).length = s.log.length - o := List.length_drop ..
    have hpre' : rowFps (s.log.drop o) <+: fps c.values.nodeEvents := by
      rcases hpre with h | h
      · exact h
      · rw [h.eq_of_length_le (by simp only [List.length_map]; omega)]
    have hslice := List.prefix_iff_eq_take.mp hpre'
    rw [List.length_map, hdrop] at hslice
    rw [hbase]
    refine ⟨_, reconcile_accepts (n := s.log.length - o) hs.log (by omega) (by omega) ?_⟩
    rw [hslice]
    exact (List.map_take ..).symm

theorem live_load (hs : StoreOK s) (hfit : ∀ c, s.ckpt = some c → Fit c) (hstuck : ¬ Stuck s) :
    Live runId s (retryMode userRequest s) (load s (retryMode userRequest s)) := by
  unfold retryMode
  split
  · rename_i hnext
    obtain ⟨n, hn⟩ := Option.isSome_iff_exists.mp hnext
    obtain ⟨c, hck, hn⟩ := Option.bind_eq_some_iff.mp hn
    obtain ⟨⟨persisted, o⟩, hr⟩ := reconcile_resumes hs hck hn hstuck
    refine ⟨{ cfg := c, persisted, seqOffset := o, yielded := true, puts := [] }, ?_, ?_, nofun⟩
    · simp [openStream, cursorArgs, hck, hn, hr]
    intro m hm
    by_cases hv : m = .validateIntent
    · subst hv
      show c.values.searchIntent.isSome
      cases hsi : c.values.searchIntent with
      | none => exact absurd ⟨c, hck, Or.inr (Or.inr ⟨hm, hsi⟩)⟩ hstuck
      | some i => rfl
    · exact (hfit c hck).ready m hm hv
  · trivial

/-- A fresh attempt starts where the log ends, so its cursor is accepted. -/
theorem live_reset {existing : Option Config} {o : Nat}
    (h : ExecOK s mode (.ready existing (some o))) : Live runId s mode (.ready existing (some o)) := by
  obtain ⟨hs, rfl, -, r, rfl⟩ := h
  have hr : reconcileEventCursor [] s.log (some s.log.length) false = .ok (0, s.log.length) :=
    reconcile_accepts hs.log (Nat.zero_le _) rfl (by simp)
  refine ⟨{ cfg := inputConfig runId r s.ckpt (some s.log.length), persisted := 0,
            seqOffset := s.log.length, yielded := false,
            puts := [inputConfig runId r s.ckpt (some s.log.length)] }, ?_, ?_, nofun⟩
  · simp [openStream, cursorArgs, hr]
  intro n hn
  cases hn
  trivial

theorem live_step {x : XEv} (hI : ExecOK s mode e) (hI' : ExecOK s' mode e')
    (hfit : ConfigsIn Fit s e) (hx : x.Healthy) (h : Live runId s mode e)
    (hs : e.step lib runId mode s x = some (s', e')) : Live runId s' mode e' := by
  cases step_cases hs with
  | nextSeq existing => trivial
  | delete existing o => exact live_reset hI'
  | reconcile ho =>
    obtain ⟨st, hst, hruns⟩ := h
    rw [ho] at hst
    cases hst
    exact hruns
  | write hp => exact h
  | @superstep st p n u hy hh hn hu =>
    refine ⟨fun m hm => ready_healthy hx (h.1 n hn) hu hm, fun hhalt => ?_⟩
    have hp : n = .pause := by simpa [Stream.advanced] using hhalt
    subst hp
    cases hu
    exact ⟨rfl, (configsIn_stream hfit).1.pause hn⟩
  | emit hy hle => exact h
  | append hy hlt ha => exact h
  | @finish st ho =>
    have hI : StreamOK s st := hI
    simp only [Stream.over, Bool.and_eq_true, Bool.not_eq_true', List.isEmpty_iff,
      Bool.or_eq_true, Option.isNone_iff_eq_none] at ho
    obtain ⟨⟨-, hp⟩, hend⟩ := ho
    have hck : s.ckpt = some st.cfg := by simpa [hp] using hI.last
    refine ⟨st.cfg, hck, by rw [hck]; rfl, ?_⟩
    rcases hend with hh | hn
    · exact Or.inr (h.2 hh)
    · exact Or.inl hn

/-- Such a call goes on until it returns. -/
theorem live_progress (lib : Lib) (hI : ExecOK s mode e) (h : Live runId s mode e) :
    (∃ v, e = .returned v) ∨ ∃ x : XEv, x.Healthy ∧ ∃ r, e.step lib runId mode s x = some r := by
  cases e with
  | opened existing => exact Or.inr ⟨.nextSeq, trivial, _, rfl⟩
  | resetting existing o => exact Or.inr ⟨.write, trivial, _, rfl⟩
  | ready existing fresh =>
    obtain ⟨st, hst, -⟩ := h
    exact Or.inr ⟨.reconcile, trivial, _, by rw [Exec.step, hst]; rfl⟩
  | returned v => exact Or.inl ⟨v, rfl⟩
  | streaming st =>
    refine Or.inr ?_
    have hI : StreamOK s st := hI
    cases hp : st.puts with
    | cons c rest => exact ⟨.write, trivial, _, by simp only [Exec.step, hp]; rfl⟩
    | nil =>
      cases hy : st.yielded with
      | true =>
        refine ⟨.emit, trivial, ?_⟩
        obtain ⟨rows, happ, -⟩ :=
          appendEvents_contiguous hI.log st.cfg.values.nodeEvents hI.len
        by_cases hlt : st.persisted < st.cfg.values.nodeEvents.length
        · simp [Exec.step, Stream.emit, hy, hlt, happ]
        · simp [Exec.step, Stream.emit, hy, hlt]
      | false =>
        cases hh : st.halted with
        | true => exact ⟨.finish, trivial, _, by simp [Exec.step, Stream.over, hp, hy, hh]; rfl⟩
        | false =>
          cases hn : st.cfg.next with
          | none => exact ⟨.finish, trivial, _, by simp [Exec.step, Stream.over, hp, hy, hn]; rfl⟩
          | some n =>
            obtain ⟨u, hu⟩ := node_returns lib demo_healthy (h.1 n hn)
            exact ⟨.superstep demoPorts, demo_healthy, _,
              by simp [Exec.step, Stream.superstep, hy, hh, hn, hu]; rfl⟩

theorem retry_recovers (hr : (attempts lib runId).Reachable a) (hidle : a.cur = none)
    (hstuck : ¬ Stuck a.store) : Recovers lib runId userRequest a := by
  have hr₁ := hr.step (retried_begin userRequest hidle)
  refine .retry (going_terminates lib runId _) fun b hg hend hns => absurd ?_ hns
  -- along the call
  have hlive : (attempts lib runId).Reachable b ∧
      ∃ m e, b.cur = some (m, e) ∧ Live runId b.store m e := by
    refine LTS.reaches_invariant (I := fun b => (attempts lib runId).Reachable b ∧
      ∃ m e, b.cur = some (m, e) ∧ Live runId b.store m e) ?_ hg ⟨hr₁, _, _, rfl, ?_⟩
    · intro c d hinv hstep
      obtain ⟨hrc, m, e, hc, hl⟩ := hinv
      obtain ⟨x, hx, hs⟩ := hstep
      have hrd : (attempts lib runId).Reachable d := hrc.step (l := AEv.exec x) hs
      refine ⟨hrd, ?_⟩
      obtain ⟨hI, hF⟩ := (fit_inductive lib runId).reachable c hrc
      have hI' := attempts_inductive.reachable d hrd
      rcases astep_cases hs with ⟨_, hm, -⟩ | ⟨x', m', e', store, e₁, hxe, hc', ho, rfl⟩ |
          ⟨_, _, hm, -⟩
      · cases hm
      · rw [hc] at hc'
        cases hc'
        cases hxe
        rw [AInv, hc] at hI
        exact ⟨m, e₁, rfl, live_step hI hI' (hF.2 m e hc) hx hl ho⟩
      · cases hm
    · obtain ⟨hI, hF⟩ := (fit_inductive lib runId).reachable a hr
      rw [AInv, hidle] at hI
      exact live_load hI hF.1 hstuck
  -- at its end
  obtain ⟨hrb, m, e, hc, hl⟩ := hlive
  have hI := attempts_inductive.reachable b hrb
  rw [AInv, hc] at hI
  rcases live_progress lib hI hl with ⟨v, rfl⟩ | ⟨x, hx, ⟨store, e'⟩, hs⟩
  · obtain ⟨c, hck, rfl, hdone⟩ := hl
    exact ⟨m, c, hc, hck, hdone⟩
  · exact absurd ⟨x, hx, by simp [astep, hc, hs]⟩ (hend ⟨store, some (m, e')⟩)

/-! ## A retry that is stuck -/

/-- What a call of a stuck run keeps true: its cursor is not accepted, or it
stands before `validate_intent` without an intent. -/
def Doomed (s : Store) : Exec → Prop
  | .ready existing fresh => existing = s.ckpt ∧ fresh = none ∧ Stuck s
  | .streaming st => st.puts = [] ∧ st.halted = false ∧ s.ckpt = some st.cfg ∧
      st.cfg.next = some .validateIntent ∧ st.cfg.values.searchIntent = none
  | _ => False

theorem doomed_stuck (h : Doomed s e) : Stuck s := by
  cases e with
  | ready existing fresh => exact h.2.2
  | streaming st =>
    obtain ⟨-, -, hck, hn, hi⟩ := h
    exact ⟨st.cfg, hck, Or.inr (Or.inr ⟨hn, hi⟩)⟩
  | _ => cases h

theorem doomed_load (userRequest : String) (h : Stuck s) :
    retryMode userRequest s = .resume ∧ Doomed s (load s (retryMode userRequest s)) := by
  have hnext : (s.ckpt.bind (·.next)).isSome := by
    obtain ⟨c, hck, hc⟩ := h
    rw [Option.mem_def] at hck
    rw [hck, Option.bind_some, Option.isSome_iff_ne_none]
    rcases hc with ⟨hn, -⟩ | ⟨hn, -⟩ | ⟨hn, -⟩
    · simp [hn]
    · exact hn
    · simp [hn]
  have hm : retryMode userRequest s = .resume := by rw [retryMode, if_pos hnext]
  rw [hm]
  exact ⟨rfl, rfl, rfl, h⟩

/-- The cursor of a stuck run is accepted only before `validate_intent`. -/
theorem stuck_open (hs : StoreOK s) (hstuck : Stuck s)
    (ho : openStream runId .resume s s.ckpt none = some e) : Doomed s e := by
  obtain ⟨c, hck, hcases⟩ := hstuck
  rw [Option.mem_def] at hck
  obtain ⟨o, hsound, -⟩ := hs.ckpt c hck
  rw [hck] at ho
  have hne : c.next ≠ none := by
    rcases hcases with ⟨hn, -⟩ | ⟨hn, -⟩ | ⟨hn, -⟩
    · simp [hn]
    · exact hn
    · simp [hn]
  have hunfinished : c.next.isNone = false := by
    cases hn : c.next with
    | none => exact absurd hn hne
    | some n => rfl
  obtain ⟨events, offset, finished, persisted, seqOffset, ha, hr, hopen⟩ := openStream_cases ho
  simp only [cursorArgs, Prod.mk.injEq] at ha
  obtain ⟨rfl, rfl, rfl⟩ := ha
  rw [hunfinished] at hr hopen
  rcases hcases with ⟨hn, hlog⟩ | ⟨-, o', hoff, hlt⟩ | ⟨hn, hi⟩
  · -- taken for a legacy checkpoint without events
    obtain ⟨hoff, hev⟩ := hsound.fresh (hsound.pending.mpr hn)
    rw [hoff, hev] at hr
    simp only [reconcileEventCursor, reconcileLegacy, List.isEmpty_nil, if_true] at hr
    split at hr
    · cases hr
    · rename_i hmax
      refine absurd ((reconcileLegacy_nil s.log).mp ?_) hlog
      simp only [reconcileEventCursor, reconcileLegacy, List.isEmpty_nil, if_true, if_neg hmax]
  · -- the log is ahead
    rw [Option.mem_def.mp hoff] at hr
    exact absurd hr (reconcile_trailing hs.log hlt _)
  · rcases hopen with ⟨_, hf, -⟩ | ⟨r, hm, -⟩ | ⟨c', -, hc, rfl⟩
    · cases hf
    · rcases hm with hm | hm <;> cases hm
    · rw [hck] at hc
      cases hc
      exact ⟨rfl, rfl, hck, hn, hi⟩

theorem doomed_step {x : XEv} (hI : ExecOK s .resume e) (h : Doomed s e)
    (hs : e.step lib runId .resume s x = some (s', e')) : Doomed s' e' := by
  cases step_cases hs with
  | nextSeq existing => cases h
  | delete existing o => cases h
  | reconcile ho =>
    obtain ⟨rfl, rfl, hstuck⟩ := h
    exact stuck_open hI.storeOK hstuck ho
  | write hp =>
    rw [h.1] at hp
    cases hp
  | superstep hy hh hn hu =>
    obtain ⟨-, -, -, hn', hi⟩ := h
    rw [hn'] at hn
    cases hn
    obtain ⟨i, hi', -⟩ := validateIntent_cases hu
    rw [hi] at hi'
    cases hi'
  | emit hy hle => exact h
  | append hy hlt ha => exact h
  | @finish st ho =>
    obtain ⟨-, hh, -, hn, -⟩ := h
    simp [Stream.over, hh, hn] at ho

/-- No number of retries gets a stuck run anywhere. -/
theorem stuck_not_recovers (h : Recovers lib runId userRequest a) :
    (attempts lib runId).Reachable a → a.cur = none → ¬ Stuck a.store := by
  induction h with
  | @retry a hfin hend ih =>
    intro hr hidle hstuck
    obtain ⟨b, hg, hover⟩ := hfin.ends
    have hr₁ := hr.step (retried_begin userRequest hidle)
    have hdoomed : (attempts lib runId).Reachable b ∧
        ∃ e, b.cur = some (.resume, e) ∧ Doomed b.store e := by
      refine LTS.reaches_invariant (I := fun b => (attempts lib runId).Reachable b ∧
        ∃ e, b.cur = some (.resume, e) ∧ Doomed b.store e) ?_ hg ⟨hr₁, ?_⟩
      · intro c d hinv hstep
        obtain ⟨hrc, e, hc, hd⟩ := hinv
        obtain ⟨x, -, hs⟩ := hstep
        refine ⟨hrc.step (l := AEv.exec x) hs, ?_⟩
        have hI := attempts_inductive.reachable c hrc
        rcases astep_cases hs with ⟨_, hm, -⟩ | ⟨x', m', e', store, e₁, -, hc', ho, rfl⟩ |
            ⟨_, _, hm, -⟩
        · cases hm
        · rw [hc] at hc'
          cases hc'
          rw [AInv, hc] at hI
          exact ⟨e₁, rfl, doomed_step hI hd ho⟩
        · cases hm
      · obtain ⟨hm, hd⟩ := doomed_load userRequest hstuck
        exact ⟨_, by rw [retried, hm], hm ▸ hd⟩
    obtain ⟨hrb, e, hc, hd⟩ := hdoomed
    have hns : ¬ Settled b := by
      intro hleft
      obtain ⟨m, c, hc', -⟩ := hleft
      rw [hc] at hc'
      cases hc'
      cases hd
    have hstop : astep lib runId b .stop = some { b with cur := none } := by simp [astep, hc]
    exact ih b hg hover hns (hrb.step (l := AEv.stop) hstop) rfl (doomed_stuck hd)

/-- **Recovery.** After any history of executions, crashes and retries, the
run can be brought to its end or to a pause exactly when it is not stuck. -/
theorem recovers_iff (lib : Lib) (runId userRequest : String) (a : AState)
    (hr : (attempts lib runId).Reachable a) (hidle : a.cur = none) :
    Recovers lib runId userRequest a ↔ ¬ Stuck a.store :=
  ⟨fun h => stuck_not_recovers h hr hidle, retry_recovers hr hidle⟩

/-- The process dies with the checkpoint of `parse_intent` stored and its
event not. -/
def crashBehind : List AEv :=
  [.begin (.start "road works"), .exec .reconcile, .exec .write, .exec (.superstep demoPorts),
    .exec .write, .exec .emit, .exec (.superstep demoPorts), .exec .write, .stop]

/-- The process dies with the event of `parse_intent` stored and its
checkpoint not. -/
def crashAhead : List AEv :=
  [.begin (.start "road works"), .exec .reconcile, .exec .write, .exec (.superstep demoPorts),
    .exec .write, .exec .emit, .exec (.superstep demoPorts), .exec .emit, .stop]

def leftBehind : AState :=
  (LTS.exec (astep asciiLib "run-1") {} crashBehind).get (by decide +kernel)

def leftAhead : AState :=
  (LTS.exec (astep asciiLib "run-1") {} crashAhead).get (by decide +kernel)

theorem recovers_left_behind : Recovers asciiLib "run-1" "road works" leftBehind :=
  (recovers_iff asciiLib "run-1" "road works" leftBehind
    (LTS.reachable_of_exec crashBehind (by rfl) _) (by decide +kernel)).mpr (by decide +kernel)

/-- A log one event ahead of the checkpoint is never recovered. -/
theorem ahead_never_recovers : (attempts asciiLib "run-1").Reachable leftAhead ∧
    leftAhead.cur = none ∧ leftAhead.store.log.length = 1 ∧
    (∃ c n, leftAhead.store.ckpt = some c ∧ c.next = some n ∧ c.values.nodeEvents = []) ∧
    ¬ Recovers asciiLib "run-1" "road works" leftAhead := by
  have hr : (attempts asciiLib "run-1").Reachable leftAhead :=
    LTS.reachable_of_exec crashAhead (by rfl) _
  have hidle : leftAhead.cur = none := by decide +kernel
  refine ⟨hr, hidle, by decide +kernel, ?_, fun h => stuck_not_recovers h hr hidle ?_⟩
  · have h : (leftAhead.store.ckpt.map fun c => (c.next, c.values.nodeEvents)) =
        some (some .parseIntent, []) := by decide +kernel
    obtain ⟨c, hc, hv⟩ := Option.map_eq_some_iff.mp h
    simp only [Prod.mk.injEq] at hv
    exact ⟨c, _, hc, hv⟩
  · decide +kernel

end BidScope.L3
