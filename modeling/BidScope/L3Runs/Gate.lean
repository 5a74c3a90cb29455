import BidScope.L3Runs.Fencing

/-!
# The confirmation gate

`confirm_intent` sends a run whose intent needs confirmation to `pause`, where
the graph is interrupted with `build_retrieval_plan` pending. Past that point
the gate is no longer in the graph: a resume continues, whoever sends it.

**The gate (`gate_holds`).** In every run whose confirm requests all approve
and whose resumes are all `Approving`, no worker stands before
`build_retrieval_plan` or a later node of an unapproved run. The two conditions
are what the code does not check:
* the confirm route never reads the request's action (`rejected`);
* a retry resumes whatever node is pending, and a run whose row never left
  `running` for `awaiting_confirmation` is retried like any other (`skipped`).

The invariant is `Guarded`: a config beyond the gate of an unapproved run is
the one the graph was interrupted with.
-/
namespace BidScope.L3

open BidScope.L1 BidScope.L2

/-- `build_retrieval_plan` and the nodes after it. -/
def Gated : Node → Bool
  | .start | .parseIntent | .validateIntent | .confirmIntent | .pause => false
  | .buildRetrievalPlan | .retrieveCandidates | .resolveDuplicates | .verifyEvidence
  | .synthesizeReport | .validateReport | .verifySemantics | .persistAndDeliver => true

/-- The parsed intent is one that `confirm_intent` sends to `pause`. -/
def AwaitsConfirmation (v : RunState) : Prop := ∃ i ∈ v.searchIntent, needsConfirmation i = true

instance (v : RunState) : Decidable (AwaitsConfirmation v) := by
  unfold AwaitsConfirmation
  infer_instance

/-- The pending node lies behind the gate. -/
def Beyond (c : Config) : Prop := (∃ n ∈ c.next, Gated n = true) ∧ AwaitsConfirmation c.values

/-- The graph was interrupted at the gate. -/
def AtGate (c : Config) : Prop :=
  c.next = some .buildRetrievalPlan ∧ AwaitsConfirmation c.values

instance (c : Config) : Decidable (AtGate c) := by
  unfold AtGate
  infer_instance

variable {lib : Lib} {runId userRequest : String} {p : Ports} {c : Config} {n : Node} {u : Update}

/-! ## One superstep -/

/-- Nothing but the superstep of `pause` gets a config past the gate. -/
theorem beyond_advance (hn : c.next = some n) (hu : (nodeFn lib p c.values n).result = .ok u)
    (hne : n ≠ .pause) (h : Beyond (advance n c u)) : Beyond c := by
  obtain ⟨⟨m, hm, hg⟩, hneeds⟩ := h
  rw [Option.mem_def] at hm
  have hkeep : n ≠ .start → n ≠ .parseIntent →
      (advance n c u).values.searchIntent = c.values.searchIntent := by
    intro h1 h2
    simp [advance, advanceValues_of_ne h1, (frame hu).intent h2]
  have hbehind : n ≠ .start → n ≠ .parseIntent → Gated n = true → Beyond c := by
    intro h1 h2 h3
    refine ⟨⟨n, hn, h3⟩, ?_⟩
    rw [AwaitsConfirmation, hkeep h1 h2] at hneeds
    exact hneeds
  cases n with
  | start => cases hm; cases hg
  | parseIntent => cases hm; cases hg
  | validateIntent =>
    simp only [advance, successor, routeAfterValidate] at hm
    split at hm
    · cases hm
    · cases hm; cases hg
  | confirmIntent =>
    have hk := hkeep (by decide) (by decide)
    obtain ⟨i, hi, ⟨hyes, rfl⟩ | ⟨hno, rfl⟩⟩ := confirmIntent_cases hu
    · cases hm; cases hg
    · obtain ⟨j, hj, hyes⟩ := hneeds
      rw [Option.mem_def, hk, hi] at hj
      cases hj
      rw [hno] at hyes
      cases hyes
  | pause => exact absurd rfl hne
  | _ => exact hbehind (by decide) (by decide) rfl

theorem not_beyond_input (r : String) (ckpt : Option Config) (o : Option Nat) :
    ¬ Beyond (inputConfig runId r ckpt o) := by
  intro hgated
  obtain ⟨⟨m, hm, hg⟩, -⟩ := hgated
  cases hm
  cases hg

/-! ## The invariant -/

/-- A config beyond the gate of an unapproved run is the interrupted one. -/
def Guarded (approved : Bool) (c : Config) : Prop :=
  Beyond c → approved = true ∨ c.next = some .buildRetrievalPlan

/-- A stream that still runs is beyond the gate of an approved run only. -/
structure StreamGuarded (approved : Bool) (st : Stream) : Prop where
  puts : ∀ c ∈ st.puts, Guarded approved c
  cfg : Guarded approved st.cfg
  runs : st.halted = false → Beyond st.cfg → approved = true

def ExecGuarded (approved : Bool) (e : Exec) : Prop :=
  ∀ st, e = .streaming st → StreamGuarded approved st

/-- A confirmed worker resumes an approved run. -/
structure WorkerGuarded (approved : Bool) (x : Worker) : Prop where
  exec : ∀ e, x.exec = some e → ExecGuarded approved e
  confirmed : x.retry = false → x.mode = some .resume → approved = true
  looking : x.mode = none → x.retry = true

structure GateInv (s : SState) : Prop where
  ckpt : ∀ c, s.store.ckpt = some c → Guarded s.approved c
  workers : ∀ w x, s.workers w = some x → WorkerGuarded s.approved x

variable {s s' : Store} {e e' : Exec} {mode : Mode} {approved : Bool} {ev : XEv} {st : Stream}

theorem execGuarded_stream (h : StreamGuarded approved st) : ExecGuarded approved (.streaming st) := by
  intro st' he
  cases he
  exact h

theorem execGuarded_idle (h : ∀ st, e ≠ .streaming st) : ExecGuarded approved e :=
  fun st he => absurd he (h st)

/-- An opened stream stands before new input or at the checkpoint it resumes. -/
theorem guarded_open {existing : Option Config} {fresh : Option Nat}
    (hres : mode = .resume → ∀ c, s.ckpt = some c → Beyond c → approved = true)
    (ho : openStream runId mode s existing fresh = some e) : ExecGuarded approved e := by
  obtain ⟨_, o, _, _, _, -, -, ⟨c, -, -, rfl⟩ | ⟨r, -, rfl⟩ | ⟨c, hm, hck, rfl⟩⟩ :=
    openStream_cases ho
  · exact execGuarded_idle (fun st he => by cases he)
  · have hin : Guarded approved (inputConfig runId r s.ckpt o) := fun hb =>
      absurd hb (not_beyond_input r _ o)
    refine execGuarded_stream ⟨fun c hc => ?_, hin, fun _ hb => absurd hb (not_beyond_input r _ o)⟩
    rw [List.mem_singleton.mp hc]
    exact hin
  · have happ := hres hm c hck
    refine execGuarded_stream ⟨fun c hc => ?_, fun hb => Or.inl (happ hb), fun _ hb => happ hb⟩
    cases hc

theorem guarded_superstep (h : StreamGuarded approved st) (hh : st.halted = false)
    (hn : st.cfg.next = some n) (hu : (nodeFn lib p st.cfg.values n).result = .ok u) :
    StreamGuarded approved (st.advanced n u) := by
  have hcfg : Guarded approved (advance n st.cfg u) := by
    intro hb
    by_cases hp : n = .pause
    · subst hp
      exact Or.inr rfl
    · exact Or.inl (h.runs hh (beyond_advance hn hu hp hb))
  refine ⟨fun c hc => ?_, hcfg, fun hrun hb => ?_⟩
  · rcases List.mem_append.mp hc with hc | hc
    · exact h.puts c hc
    · rw [List.mem_singleton.mp hc]
      exact hcfg
  · have hp : n ≠ .pause := by
      intro heq
      subst heq
      cases hrun
    exact h.runs hh (beyond_advance hn hu hp hb)

theorem guarded_step (hck : ∀ c, s.ckpt = some c → Guarded approved c) (h : ExecGuarded approved e)
    (hres : ev.isReconcile = true → mode = .resume → ∀ c, s.ckpt = some c → Beyond c →
      approved = true)
    (hs : e.step lib runId mode s ev = some (s', e')) :
    (∀ c, s'.ckpt = some c → Guarded approved c) ∧ ExecGuarded approved e' := by
  cases step_cases hs with
  | nextSeq existing => exact ⟨hck, execGuarded_idle (fun st he => by cases he)⟩
  | delete existing o =>
    exact ⟨fun c hc => (by cases hc), execGuarded_idle (fun st he => by cases he)⟩
  | reconcile ho => exact ⟨hck, guarded_open (hres rfl) ho⟩
  | @write st c rest hp =>
    obtain ⟨hputs, hcfg, hrun⟩ := h st rfl
    rw [hp] at hputs
    refine ⟨fun d hd => ?_, execGuarded_stream ⟨fun d hd => ?_, hcfg, hrun⟩⟩
    · cases hd
      exact hputs c (List.mem_cons_self ..)
    · exact hputs d (List.mem_cons_of_mem _ hd)
  | @superstep st p n u hy hh hn hu =>
    exact ⟨hck, execGuarded_stream (guarded_superstep (h st rfl) hh hn hu)⟩
  | @emit st hy hle =>
    obtain ⟨hputs, hcfg, hrun⟩ := h st rfl
    exact ⟨hck, execGuarded_stream ⟨hputs, hcfg, hrun⟩⟩
  | @append st log hy hlt ha =>
    obtain ⟨hputs, hcfg, hrun⟩ := h st rfl
    exact ⟨hck, execGuarded_stream ⟨hputs, hcfg, hrun⟩⟩
  | finish ho => exact ⟨hck, execGuarded_idle (fun st he => by cases he)⟩

/-! ## The service -/

/-- The step neither accepts a confirm request that rejects nor lets a retry
resume a graph interrupted at the gate of an unapproved run. -/
def Approving (s : SState) : SEv → Prop
  | .confirm _ action => action = "approve"
  | .work w (.exec .reconcile) => ∀ x ∈ s.workers w, x.retry = true → x.mode = some .resume →
      ∀ c ∈ s.store.ckpt, AtGate c → s.approved = true
  | _ => True

instance (s : SState) (ev : SEv) : Decidable (Approving s ev) := by
  unfold Approving
  split <;> infer_instance

theorem Guarded.mono {a b : Bool} (hab : a = true → b = true) (h : Guarded a c) : Guarded b c :=
  fun hb => (h hb).imp hab id

theorem WorkerGuarded.mono {a b : Bool} {x : Worker} (hab : a = true → b = true)
    (h : WorkerGuarded a x) : WorkerGuarded b x := by
  refine ⟨fun e he st hst => ?_, fun hr hm => hab (h.confirmed hr hm), h.looking⟩
  obtain ⟨hputs, hcfg, hrun⟩ := h.exec e he st hst
  exact ⟨fun c hc => (hputs c hc).mono hab, hcfg.mono hab, fun hh hb => hab (hrun hh hb)⟩

/-- A step that leaves the checkpoint alone and changes no worker but `w`. -/
theorem gateInv_update {s s' : SState} {w : Nat} {y : Option Worker} (h : GateInv s)
    (hck : s'.store = s.store) (hap : s.approved = true → s'.approved = true)
    (hw : s'.workers = Function.update s.workers w y)
    (hy : ∀ x', y = some x' → WorkerGuarded s'.approved x') : GateInv s' where
  ckpt c hc := (h.ckpt c (by rw [← hck]; exact hc)).mono hap
  workers w₁ x₁ hx₁ := by
    rw [hw] at hx₁
    rcases LTS.of_update hx₁ with ⟨-, he⟩ | ⟨-, h₀⟩
    · exact hy x₁ he
    · exact (h.workers w₁ x₁ h₀).mono hap

theorem gateInv_put {s s' : SState} {w : Nat} {x x' : Worker} (h : GateInv s)
    (hx : s.workers w = some x) (hck : s'.store = s.store) (hap : s'.approved = s.approved)
    (hw : s'.workers = Function.update s.workers w (some x')) (he : x'.exec = x.exec)
    (hm : x'.mode = x.mode) (hr : x'.retry = x.retry) : GateInv s' := by
  refine gateInv_update h hck (fun ha => by rw [hap, ha]) hw fun x₁ hx₁ => ?_
  cases hx₁
  obtain ⟨hexec, hconf, hlook⟩ := h.workers w x hx
  rw [hap]
  exact ⟨by rw [he]; exact hexec, by rw [hr, hm]; exact hconf, by rw [hr, hm]; exact hlook⟩

theorem gateInv_frame {s s' : SState} (h : GateInv s) (hck : s'.store = s.store)
    (hap : s'.approved = s.approved) (hw : s'.workers = s.workers) : GateInv s' where
  ckpt := by rw [hck, hap]; exact h.ckpt
  workers := by rw [hap, hw]; exact h.workers

theorem load_not_stream (s : Store) (mode : Mode) (st : Stream) : load s mode ≠ .streaming st := by
  cases mode <;> simp [load]

theorem gateInv_exec {s : SState} {w : Nat} {x : Worker} {mode : Mode} {e e' : Exec}
    {store : Store} {ev : XEv} {b : Bool} (h : GateInv s) (hx : s.workers w = some x)
    (hG : Approving s (.work w (.exec ev))) (hm : x.mode = some mode) (he : x.exec = some e)
    (hs : e.step lib runId mode s.store ev = some (store, e')) :
    GateInv ({ s with store }.put w { x with exec := some e', armed := b }) := by
  obtain ⟨hexec, hconf, hlook⟩ := h.workers w x hx
  have hres : ev.isReconcile = true → mode = .resume → ∀ c, s.store.ckpt = some c → Beyond c →
      s.approved = true := by
    intro hev hmode c hc hb
    cases ev with
    | reconcile =>
      subst hmode
      rcases h.ckpt c hc hb with ha | hnext
      · exact ha
      · -- the graph was interrupted there: by confirmation, or by a retry
        cases hr : x.retry with
        | false => exact hconf hr hm
        | true => exact hG x hx hr hm c hc ⟨hnext, hb.2⟩
    | _ => cases hev
  obtain ⟨hck', he'⟩ := guarded_step h.ckpt (hexec e he) hres hs
  refine ⟨hck', fun w₁ x₁ hx₁ => ?_⟩
  rcases LTS.of_update hx₁ with ⟨rfl, hy⟩ | ⟨-, h₀⟩
  · cases hy
    refine ⟨fun e₁ he₁ => ?_, hconf, hlook⟩
    cases he₁
    exact he'
  · exact h.workers w₁ x₁ h₀

theorem gateInv_work {s s' : SState} {w : Nat} {x : Worker} {ev : WEv} (h : GateInv s)
    (hx : s.workers w = some x) (hG : Approving s (.work w ev))
    (hs : WStep lib runId userRequest s w x ev s') : GateInv s' := by
  obtain ⟨hexec, hconf, hlook⟩ := h.workers w x hx
  cases hs with
  | lookup hp hm =>
    refine gateInv_update h rfl id rfl fun x' hx' => ?_
    cases hx'
    refine ⟨hexec, fun hr => ?_, fun hn => by cases hn⟩
    rw [hlook hm] at hr
    cases hr
  | load hm hp ho =>
    refine gateInv_update h rfl id rfl fun x' hx' => ?_
    cases hx'
    refine ⟨fun e he => ?_, hconf, hlook⟩
    cases he
    exact execGuarded_idle (load_not_stream _ _)
  | exec hm he hmay hchk hstep => exact gateInv_exec h hx hG hm he hstep
  | repair ho => exact gateInv_frame h rfl rfl rfl
  | release hp hl => exact gateInv_frame h rfl rfl rfl
  | crash => exact gateInv_update h rfl id rfl fun x' hx' => by cases hx'
  | _ => exact gateInv_put h hx rfl rfl rfl rfl rfl rfl

theorem gateInv_step {s s' : SState} {ev : SEv} (h : GateInv s) (hG : Approving s ev)
    (hs : SStep lib runId userRequest s ev s') : GateInv s' := by
  cases hs with
  | @claim _ w _ mode approved hw hrow hconfirm hkeep hmode =>
    have hap : s.approved = true → approved = true := by
      intro ha
      rcases hkeep with hk | ⟨action, rfl⟩
      · rw [hk, ha]
      · rw [hconfirm action rfl, ha]
        rfl
    refine gateInv_update h rfl hap rfl fun x' hx' => ?_
    cases hx'
    refine ⟨fun e he => (by cases he), fun _ hm => ?_, fun hm => ?_⟩
    · obtain ⟨action, rfl⟩ := hmode hm
      have hyes : action = "approve" := hG
      show approved = true
      rw [hconfirm action rfl, hyes]
      simp
    · subst hm
      rfl
  | work hx hw => exact gateInv_work h hx hG hw
  | disown => exact gateInv_frame h rfl rfl rfl
  | staleLock => exact gateInv_frame h rfl rfl rfl
  | staleRelease => exact gateInv_frame h rfl rfl rfl

theorem gateInv_inductive :
    ((service lib runId userRequest).restrict Approving).Inductive GateInv where
  init := by
    intro s heq
    subst heq
    refine ⟨fun c hc => ?_, fun w x hx => ?_⟩
    · cases hc
    · cases hx
  step _ _ _ h hs := gateInv_step h hs.1 (sstep_cases hs.2)

/-- No worker is about to execute a gated node of an unapproved run whose
intent needs confirmation. A stream executes its pending node unless it was
interrupted. -/
def GateHolds (s : SState) : Prop :=
  ∀ w x st n, s.workers w = some x → x.exec = some (.streaming st) → st.halted = false →
    st.cfg.next = some n → Gated n = true → AwaitsConfirmation st.cfg.values → s.approved = true

/-- **The confirmation gate.** It holds in every run whose confirm requests
approve and whose retries do not resume an interrupted graph. -/
theorem gate_holds (lib : Lib) (runId userRequest : String) (s : SState)
    (hr : ((service lib runId userRequest).restrict Approving).Reachable s) : GateHolds s := by
  intro w x st n hx he hh hn hg hneeds
  have h := gateInv_inductive.reachable s hr
  exact ((h.workers w x hx).exec _ he st rfl).runs hh ⟨⟨n, hn, hg⟩, hneeds⟩

/-! ## Runs at the gate -/

/-- `demoPorts` with an intent the model is not sure of. -/
def vaguePorts : Ports :=
  { demoPorts with
    parse := fun _ _ => .ok ({
      topics := ["roads"]
      regions := ["north"]
      confidence := 0
      dateRange := SearchIntent.anyDates
      budgetRange := SearchIntent.anyBudget }, none) }

/-- One superstep of worker `w`, its checkpoint and its events. -/
def superstepOf (w : Nat) : List SEv :=
  [.work w (.exec (.superstep vaguePorts)), .work w .guard, .work w (.exec .write),
    .work w (.exec .emit)]

/-- The first execution, up to the interrupt. -/
def toPause : List SEv :=
  [.start 0, .work 0 .lock, .work 0 .activate, .work 0 .load, .work 0 (.exec .reconcile),
    .work 0 .guard, .work 0 (.exec .write)] ++
    superstepOf 0 ++ superstepOf 0 ++ superstepOf 0 ++ superstepOf 0 ++ superstepOf 0

def settled : List SEv := [.work 0 (.exec .finish), .work 0 .settle, .work 0 .release]

/-- Worker 1 resumes the graph and runs its next node. -/
def resumes : List SEv :=
  [.work 1 .lock, .work 1 .activate, .work 1 .load, .work 1 (.exec .reconcile),
    .work 1 (.exec .emit), .work 1 (.exec (.superstep vaguePorts))]

/-- The user confirms. -/
def confirmed : List SEv := toPause ++ settled ++ .confirm 1 "approve" :: resumes

/-- The user rejects. -/
def rejected : List SEv := toPause ++ settled ++ .confirm 1 "reject" :: resumes

/-- The process dies at the interrupt, and the stale run is retried. -/
def skipped : List SEv :=
  toPause ++ [.work 0 .crash, .staleLock 0, .staleUpdate 0, .staleRelease 0, .retry 1,
    .work 1 .lookup] ++ resumes

def approvingStep (s : SState) (ev : SEv) : Option SState :=
  if Approving s ev then sstep asciiLib "run-1" "road works" s ev else none

theorem gate_holds_confirmed :
    GateHolds ((LTS.exec approvingStep {} confirmed).get (by decide +kernel)) :=
  gate_holds asciiLib "run-1" "road works" _ (LTS.reachable_of_execGuarded confirmed (by rfl) _)

def afterReject : SState :=
  (LTS.exec (sstep asciiLib "run-1" "road works") {} rejected).get (by decide +kernel)

def afterSkip : SState :=
  (LTS.exec (sstep asciiLib "run-1" "road works") {} skipped).get (by decide +kernel)

/-- What worker `w` is about to execute lies behind the gate. -/
def runsGated (s : SState) (w : Nat) : Bool :=
  match (s.workers w).bind (·.exec) with
  | some (.streaming st) =>
    !st.halted && st.cfg.next.any Gated && decide (AwaitsConfirmation st.cfg.values)
  | _ => false

theorem not_gateHolds {s : SState} {w : Nat} (h : runsGated s w = true)
    (ha : s.approved = false) : ¬ GateHolds s := by
  intro hG
  unfold runsGated at h
  split at h
  · rename_i st hst
    obtain ⟨x, hx, he⟩ := Option.bind_eq_some_iff.mp hst
    simp only [Bool.and_eq_true, Bool.not_eq_true', decide_eq_true_eq, Option.any_eq_true] at h
    obtain ⟨⟨hh, n, hn, hg⟩, hneeds⟩ := h
    rw [hG w x st n hx he hh hn hg hneeds] at ha
    cases ha
  · cases h

/-- A rejected run is resumed, and so is a run that nobody was asked about. -/
theorem gate_passed :
    ((service asciiLib "run-1" "road works").Reachable afterReject ∧ ¬ GateHolds afterReject) ∧
      (service asciiLib "run-1" "road works").Reachable afterSkip ∧ ¬ GateHolds afterSkip :=
  ⟨⟨LTS.reachable_of_exec rejected (by rfl) _,
      not_gateHolds (w := 1) (by decide +kernel) (by decide +kernel)⟩,
    LTS.reachable_of_exec skipped (by rfl) _,
    not_gateHolds (w := 1) (by decide +kernel) (by decide +kernel)⟩

end BidScope.L3
