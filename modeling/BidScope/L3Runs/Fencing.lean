import BidScope.L3Runs.Service

/-!
# Run ownership fencing

What the execution token, the run lock and the saver's guard keep apart, over
every interleaving of the workers, of stale recovery and of crashes.

* The token is non-null exactly while the row is running, and no two workers
  hold one token (`tokens_inductive`).
* A worker whose token is no longer the row's changes neither the row nor the
  log: every statement of a claimed worker repeats its token (`stale_harmless`).
* The checkpoint is not fenced the same way: the guard reads the row and the
  write follows on another connection. The run lock closes the gap as long as
  a worker's writes have landed when it releases the lock (`Landed`).

**Fencing (`fenced`).** In every run whose steps are all `Landed`, only the
worker that took the run lock last writes the checkpoint. `lateWrite` is a run
with a step that is not: an append fails, the worker settles the row and
releases the lock with a write in flight, and the write lands in the middle of
the retry.
-/
namespace BidScope.L3

open BidScope.L1 BidScope.L2

variable {lib : Lib} {runId userRequest : String} {s s' : SState} {w : Nat} {x : Worker}

/-! ## Tokens -/

structure Tokens (s : SState) : Prop where
  running : s.row.executionToken.isSome ↔ s.row.status = .running
  fresh : ∀ w x, s.workers w = some x → x.token < s.nextToken
  distinct : ∀ w w' x x', s.workers w = some x → s.workers w' = some x' → x.token = x'.token →
    w = w'

/-- A worker's step leaves it its token, or removes it. -/
theorem wstep_token {ev : WEv} (h : WStep lib runId userRequest s w x ev s')
    (hx : s.workers w = some x) :
    s'.nextToken = s.nextToken ∧ ∃ y : Option Worker, s'.workers = Function.update s.workers w y ∧
      ∀ x', y = some x' → x'.token = x.token := by
  have hsame : s.workers = Function.update s.workers w (some x) := by
    rw [← hx, Function.update_eq_self]
  cases h with
  | repair => exact ⟨rfl, some x, hsame, fun x' hx' => by cases hx'; rfl⟩
  | release => exact ⟨rfl, some x, hsame, fun x' hx' => by cases hx'; rfl⟩
  | crash => exact ⟨rfl, none, rfl, fun x' hx' => by cases hx'⟩
  | _ => exact ⟨rfl, some _, rfl, fun x' hx' => by cases hx'; rfl⟩

/-- A worker's step gives the row up or leaves it alone. -/
theorem wstep_row {ev : WEv} (h : WStep lib runId userRequest s w x ev s') :
    s'.row = s.row ∨ s.owns x = true ∧ ∃ status, s'.row = unowned status := by
  cases h with
  | settle he ho =>
    simp only [SState.ensureActive, Bool.and_eq_true] at ho
    exact Or.inr ⟨ho.1, _, rfl⟩
  | repair ho => exact Or.inr ⟨ho, _, rfl⟩
  | _ => exact Or.inl rfl

theorem unowned_running (status : RunStatus) :
    (unowned status).executionToken.isSome ↔ (unowned status).status = .running := by
  simp [unowned]

theorem tokens_work {ev : WEv} (h : Tokens s) (hx : s.workers w = some x)
    (hs : WStep lib runId userRequest s w x ev s') : Tokens s' := by
  obtain ⟨hnext, y, hworkers, htok⟩ := wstep_token hs hx
  -- every worker after the step had its token before
  have hback : ∀ w' x', s'.workers w' = some x' → ∃ x₀, s.workers w' = some x₀ ∧
      x'.token = x₀.token := by
    intro w' x' hx'
    rw [hworkers] at hx'
    rcases LTS.of_update hx' with ⟨rfl, hy⟩ | ⟨-, h₀⟩
    · exact ⟨x, hx, htok x' hy⟩
    · exact ⟨x', h₀, rfl⟩
  refine ⟨?_, ?_, ?_⟩
  · rcases wstep_row hs with hr | ⟨-, status, hr⟩
    · rw [hr]
      exact h.running
    · rw [hr]
      exact unowned_running status
  · intro w' x' hx'
    obtain ⟨x₀, hx₀, ht⟩ := hback w' x' hx'
    rw [hnext, ht]
    exact h.fresh w' x₀ hx₀
  · intro w₁ w₂ x₁ x₂ h₁ h₂ ht
    obtain ⟨y₁, hy₁, ht₁⟩ := hback w₁ x₁ h₁
    obtain ⟨y₂, hy₂, ht₂⟩ := hback w₂ x₂ h₂
    exact h.distinct w₁ w₂ y₁ y₂ hy₁ hy₂ (by rw [← ht₁, ht, ht₂])

theorem tokens_step {ev : SEv} (h : Tokens s) (hs : SStep lib runId userRequest s ev s') :
    Tokens s' := by
  cases hs with
  | @claim _ w _ mode _ hw =>
    refine ⟨by simp [SState.put], ?_, ?_⟩
    · intro w' x' hx'
      show x'.token < s.nextToken + 1
      rcases LTS.of_update hx' with ⟨-, hy⟩ | ⟨-, hx₀⟩
      · cases hy
        exact Nat.lt_succ_self _
      · exact Nat.lt_succ_of_lt (h.fresh w' x' hx₀)
    · intro w₁ w₂ x₁ x₂ h₁ h₂ ht
      rcases LTS.of_update h₁ with ⟨hw₁, hy₁⟩ | ⟨-, hx₁⟩
      · rcases LTS.of_update h₂ with ⟨hw₂, -⟩ | ⟨-, hx₂⟩
        · rw [hw₁, hw₂]
        · -- a fresh token is not in use
          cases hy₁
          exact absurd ht (Nat.ne_of_gt (h.fresh w₂ x₂ hx₂))
      · rcases LTS.of_update h₂ with ⟨-, hy₂⟩ | ⟨-, hx₂⟩
        · cases hy₂
          exact absurd ht (Nat.ne_of_lt (h.fresh w₁ x₁ hx₁))
        · exact h.distinct w₁ w₂ x₁ x₂ hx₁ hx₂ ht
  | work hx hw => exact tokens_work h hx hw
  | disown => exact ⟨unowned_running _, h.fresh, h.distinct⟩
  | staleLock => exact ⟨h.running, h.fresh, h.distinct⟩
  | staleRelease => exact ⟨h.running, h.fresh, h.distinct⟩

theorem tokens_inductive : (service lib runId userRequest).Inductive Tokens where
  init := by
    intro s heq
    subst heq
    refine ⟨by simp, ?_, ?_⟩
    · intro w x hx
      cases hx
    · intro w w' x x' hx
      cases hx
  step _ _ _ h hs := tokens_step h (sstep_cases hs)

/-! ## A worker that lost the row -/

/-- **A stale worker is harmless to the row and the log.** -/
theorem stale_harmless {ev : WEv} (hstale : s.row.executionToken ≠ some x.token)
    (h : WStep lib runId userRequest s w x ev s') :
    s'.row = s.row ∧ s'.store.log = s.store.log := by
  have howns : s.owns x = false := by simp [SState.owns, hstale]
  have hactive : s.ensureActive x = false := by simp [SState.ensureActive, howns]
  refine ⟨?_, ?_⟩
  · rcases wstep_row h with hr | ⟨ho, -⟩
    · exact hr
    · rw [howns] at ho
      cases ho
  · cases h with
    | exec hm he hmay hchk hs =>
      cases step_cases hs with
      | append hy hlt ha =>
        have := hchk (by simpa [Exec.checked] using hlt)
        rw [hactive] at this
        cases this
      | _ => rfl
    | _ => rfl

/-- Only a worker's write changes the checkpoint. -/
theorem ckpt_of_not_write {ev : SEv} (h : SStep lib runId userRequest s ev s')
    (hev : ∀ w, ev ≠ .work w (.exec .write)) : s'.store.ckpt = s.store.ckpt := by
  cases h with
  | @work w wev x s' hx hw =>
    cases hw with
    | exec hm he hmay hchk hs =>
      cases step_cases hs with
      | delete => exact absurd rfl (hev w)
      | write => exact absurd rfl (hev w)
      | _ => rfl
    | _ => rfl
  | _ => rfl

/-! ## The run lock -/

/-- A worker's checkpoint writes pass the guard and land while it holds the
run lock: it releases the lock with none in flight, and none passes the guard
afterwards. -/
def Landed (s : SState) : SEv → Prop
  | .work w .release => ∀ x ∈ s.workers w, x.armed = false
  | .work w .guard => ∀ x ∈ s.workers w, x.pc = .left → s.lock = some (.worker w)
  | _ => True

instance (s : SState) (ev : SEv) : Decidable (Landed s ev) := by
  unfold Landed
  split <;> infer_instance

/-- The worker is between taking the run lock and leaving. -/
def Pc.holds : Pc → Bool
  | .locked | .active | .executing => true
  | .claimed | .left => false

structure LockOK (s : SState) : Prop where
  held : ∀ w x, s.workers w = some x → x.pc.holds = true → s.lock = some (.worker w)
  executing : ∀ w x, s.workers w = some x → x.exec.isSome → x.pc = .executing ∨ x.pc = .left
  armed : ∀ w x, s.workers w = some x → x.armed = true → s.lock = some (.worker w)
  holder : ∀ w, s.lock = some (.worker w) → ∃ x, s.workers w = some x ∧ s.started = some x.token

/-- A step that only changes worker `w`. -/
theorem lockOK_put {x' : Worker} (h : LockOK s) (hx : s.workers w = some x)
    (hl : s'.lock = s.lock) (hst : s'.started = s.started)
    (hw : s'.workers = Function.update s.workers w (some x')) (ht : x'.token = x.token)
    (hpc : x'.pc.holds = true → x.pc.holds = true)
    (hexec : x'.exec.isSome → x'.pc = .executing ∨ x'.pc = .left)
    (harm : x'.armed = true → s.lock = some (.worker w)) : LockOK s' := by
  have hcase : ∀ w₁ x₁, s'.workers w₁ = some x₁ → (w₁ = w ∧ x₁ = x') ∨ s.workers w₁ = some x₁ := by
    intro w₁ x₁ h₁
    rw [hw] at h₁
    rcases LTS.of_update h₁ with ⟨rfl, hy⟩ | ⟨-, h₀⟩
    · cases hy
      exact Or.inl ⟨rfl, rfl⟩
    · exact Or.inr h₀
  refine ⟨?_, ?_, ?_, ?_⟩
  · intro w₁ x₁ h₁ hh
    rw [hl]
    rcases hcase w₁ x₁ h₁ with ⟨rfl, rfl⟩ | h₀
    · exact h.held w₁ x hx (hpc hh)
    · exact h.held w₁ x₁ h₀ hh
  · intro w₁ x₁ h₁ he
    rcases hcase w₁ x₁ h₁ with ⟨rfl, rfl⟩ | h₀
    · exact hexec he
    · exact h.executing w₁ x₁ h₀ he
  · intro w₁ x₁ h₁ ha
    rw [hl]
    rcases hcase w₁ x₁ h₁ with ⟨rfl, rfl⟩ | h₀
    · exact harm ha
    · exact h.armed w₁ x₁ h₀ ha
  · intro w₁ hl₁
    rw [hl] at hl₁
    rw [hst]
    obtain ⟨x₀, hx₀, hs₀⟩ := h.holder w₁ hl₁
    by_cases hww : w₁ = w
    · subst hww
      rw [hx] at hx₀
      cases hx₀
      exact ⟨x', by rw [hw, Function.update_self], by rw [hs₀, ht]⟩
    · exact ⟨x₀, by rw [hw, Function.update_of_ne hww, hx₀], hs₀⟩

/-- A step that leaves the workers and the lock alone. -/
theorem lockOK_frame (h : LockOK s) (hl : s'.lock = s.lock) (hst : s'.started = s.started)
    (hw : s'.workers = s.workers) : LockOK s' := by
  refine ⟨?_, ?_, ?_, ?_⟩
  · rw [hl, hw]; exact h.held
  · rw [hw]; exact h.executing
  · rw [hl, hw]; exact h.armed
  · rw [hl, hw, hst]; exact h.holder

/-- Stale recovery takes the lock from nobody and gives it to no worker. -/
theorem lockOK_recovery {l : Option Holder} (h : LockOK s)
    (hfree : ∀ w, s.lock ≠ some (.worker w)) (hl : ∀ w, l ≠ some (.worker w)) :
    LockOK { s with lock := l } where
  held w x hx hh := absurd (h.held w x hx hh) (hfree w)
  executing := h.executing
  armed w x hx ha := absurd (h.armed w x hx ha) (hfree w)
  holder w hw := absurd hw (hl w)

/-- A worker takes the lock nobody held. -/
theorem lockOK_locked (h : LockOK s) (hx : s.workers w = some x) (hp : x.pc = .claimed)
    (hl : s.lock = none) :
    LockOK ({ s with lock := some (.worker w), started := some x.token }.put w
      { x with pc := .locked }) := by
  have hfree : ∀ w', s.lock ≠ some (.worker w') := by
    intro w' hw'
    rw [hl] at hw'
    cases hw'
  refine ⟨?_, ?_, ?_, ?_⟩
  · intro w₁ x₁ h₁ hh
    rcases LTS.of_update h₁ with ⟨rfl, -⟩ | ⟨-, h₀⟩
    · rfl
    · exact absurd (h.held w₁ x₁ h₀ hh) (hfree w₁)
  · intro w₁ x₁ h₁ he
    rcases LTS.of_update h₁ with ⟨rfl, hy⟩ | ⟨-, h₀⟩
    · cases hy
      rcases h.executing w₁ x hx he with hpc | hpc
      · rw [hp] at hpc; cases hpc
      · rw [hp] at hpc; cases hpc
    · exact h.executing w₁ x₁ h₀ he
  · intro w₁ x₁ h₁ ha
    rcases LTS.of_update h₁ with ⟨rfl, -⟩ | ⟨-, h₀⟩
    · rfl
    · exact absurd (h.armed w₁ x₁ h₀ ha) (hfree w₁)
  · intro w₁ hl₁
    cases hl₁
    exact ⟨_, Function.update_self .., rfl⟩

/-- A worker that left releases the lock, with no write in flight. -/
theorem lockOK_release (h : LockOK s) (hx : s.workers w = some x) (hp : x.pc = .left)
    (hl : s.lock = some (.worker w)) (hlanded : x.armed = false) :
    LockOK { s with lock := none } := by
  -- whoever needs the lock is the worker that has left
  have hself : ∀ w₁ x₁, s.workers w₁ = some x₁ → s.lock = some (.worker w₁) → x₁ = x := by
    intro w₁ x₁ h₁ hl₁
    rw [hl] at hl₁
    cases hl₁
    rw [hx] at h₁
    exact (Option.some.inj h₁).symm
  refine ⟨?_, h.executing, ?_, ?_⟩
  · intro w₁ x₁ h₁ hh
    obtain rfl := hself w₁ x₁ h₁ (h.held w₁ x₁ h₁ hh)
    rw [hp] at hh
    cases hh
  · intro w₁ x₁ h₁ ha
    obtain rfl := hself w₁ x₁ h₁ (h.armed w₁ x₁ h₁ ha)
    rw [hlanded] at ha
    cases ha
  · intro w₁ hl₁
    cases hl₁

/-- A worker is gone, and the lock with it if it was its own. -/
theorem lockOK_crash (h : LockOK s) (w : Nat) :
    LockOK { s with workers := Function.update s.workers w none
                    lock := if s.lock = some (.worker w) then none else s.lock } := by
  -- the others keep the lock if they have it
  have hcase : ∀ w₁ x₁, Function.update s.workers w none w₁ = some x₁ →
      w₁ ≠ w ∧ s.workers w₁ = some x₁ := by
    intro w₁ x₁ h₁
    rcases LTS.of_update h₁ with ⟨-, hy⟩ | h₀
    · cases hy
    · exact h₀
  have hkeep : ∀ w₁, w₁ ≠ w → s.lock = some (.worker w₁) →
      (if s.lock = some (.worker w) then none else s.lock) = some (.worker w₁) := by
    intro w₁ hww hl
    rw [if_neg, hl]
    rw [hl]
    intro he
    cases he
    exact hww rfl
  refine ⟨?_, ?_, ?_, ?_⟩
  · intro w₁ x₁ h₁ hh
    obtain ⟨hww, h₀⟩ := hcase w₁ x₁ h₁
    exact hkeep w₁ hww (h.held w₁ x₁ h₀ hh)
  · intro w₁ x₁ h₁ he
    exact h.executing w₁ x₁ (hcase w₁ x₁ h₁).2 he
  · intro w₁ x₁ h₁ ha
    obtain ⟨hww, h₀⟩ := hcase w₁ x₁ h₁
    exact hkeep w₁ hww (h.armed w₁ x₁ h₀ ha)
  · intro w₁ hl₁
    simp only at hl₁
    split at hl₁
    · cases hl₁
    · rename_i hne
      obtain ⟨x₁, hx₁, hs₁⟩ := h.holder w₁ hl₁
      have hww : w₁ ≠ w := by
        intro heq
        subst heq
        exact hne hl₁
      exact ⟨x₁, by simp only [Function.update_of_ne hww, hx₁], hs₁⟩

theorem lockOK_work {ev : WEv} (h : LockOK s) (hx : s.workers w = some x)
    (hG : Landed s (.work w ev)) (hs : WStep lib runId userRequest s w x ev s') : LockOK s' := by
  have harm := h.armed w x hx
  have hexec := h.executing w x hx
  cases hs with
  | lookup hp hm => exact lockOK_put h hx rfl rfl rfl rfl id hexec harm
  | locked hp hl => exact lockOK_locked h hx hp hl
  | refused hp =>
    exact lockOK_put h hx rfl rfl rfl rfl (fun hh => by cases hh) (fun _ => Or.inr rfl) harm
  | activate hp ho =>
    refine lockOK_put h hx rfl rfl rfl rfl (fun _ => by rw [hp]; rfl) (fun he => ?_) harm
    rcases hexec he with hpc | hpc
    · rw [hp] at hpc; cases hpc
    · rw [hp] at hpc; cases hpc
  | load hm hp ho =>
    exact lockOK_put h hx rfl rfl rfl rfl (fun _ => by rw [hp]; rfl) (fun _ => Or.inl rfl) harm
  | exec hm he hmay hchk hstep =>
    refine lockOK_put h hx rfl rfl rfl rfl id (fun _ => hexec (by rw [he]; rfl)) fun ha => ?_
    simp only [Bool.and_eq_true] at ha
    exact harm ha.1
  | guard he ho =>
    refine lockOK_put h hx rfl rfl rfl rfl id hexec fun _ => ?_
    rcases hexec (by rw [he]; rfl) with hpc | hpc
    · exact h.held w x hx (by rw [hpc]; rfl)
    · exact hG x hx hpc
  | heartbeat ok hp => exact lockOK_put h hx rfl rfl rfl rfl id hexec harm
  | raise =>
    exact lockOK_put h hx rfl rfl rfl rfl (fun hh => by cases hh) (fun _ => Or.inr rfl) harm
  | settle he ho =>
    exact lockOK_put h hx rfl rfl rfl rfl (fun hh => by cases hh) (fun _ => Or.inr rfl) harm
  | repair ho => exact lockOK_frame h rfl rfl rfl
  | release hp hl => exact lockOK_release h hx hp hl (hG x hx)
  | crash => exact lockOK_crash h w

theorem lockOK_step {ev : SEv} (h : LockOK s) (hG : Landed s ev)
    (hs : SStep lib runId userRequest s ev s') : LockOK s' := by
  cases hs with
  | @claim _ w _ mode _ hw =>
    refine ⟨?_, ?_, ?_, ?_⟩
    · intro w₁ x₁ h₁ hh
      rcases LTS.of_update h₁ with ⟨-, hy⟩ | ⟨-, h₀⟩
      · cases hy
        cases hh
      · exact h.held w₁ x₁ h₀ hh
    · intro w₁ x₁ h₁ he
      rcases LTS.of_update h₁ with ⟨-, hy⟩ | ⟨-, h₀⟩
      · cases hy
        cases he
      · exact h.executing w₁ x₁ h₀ he
    · intro w₁ x₁ h₁ ha
      rcases LTS.of_update h₁ with ⟨-, hy⟩ | ⟨-, h₀⟩
      · cases hy
        cases ha
      · exact h.armed w₁ x₁ h₀ ha
    · intro w₁ hl₁
      obtain ⟨x₁, hx₁, hs₁⟩ := h.holder w₁ hl₁
      have hww : w₁ ≠ w := by
        intro heq
        subst heq
        rw [hw] at hx₁
        cases hx₁
      exact ⟨x₁, by simp only [SState.put, Function.update_of_ne hww, hx₁], hs₁⟩
  | work hx hw => exact lockOK_work h hx hG hw
  | disown => exact lockOK_frame h rfl rfl rfl
  | staleLock r hl =>
    exact lockOK_recovery h (fun w' hw' => by rw [hl] at hw'; cases hw') (fun w' hw' => by cases hw')
  | staleRelease r hl =>
    exact lockOK_recovery h (fun w' hw' => by rw [hl] at hw'; cases hw') (fun w' hw' => by cases hw')

theorem lockOK_inductive :
    ((service lib runId userRequest).restrict Landed).Inductive LockOK where
  init := by
    intro s heq
    subst heq
    refine ⟨?_, ?_, ?_, ?_⟩
    · intro w x hx; cases hx
    · intro w x hx; cases hx
    · intro w x hx; cases hx
    · intro w hl; cases hl
  step _ _ _ h hs := lockOK_step h hs.1 (sstep_cases hs.2)

/-! ## Fencing -/

/-- What fencing promises in a state, of every step from it. -/
structure Fenced (lib : Lib) (runId userRequest : String) (s : SState) : Prop where
  running : s.row.executionToken.isSome ↔ s.row.status = .running
  distinct : ∀ w w' x x', s.workers w = some x → s.workers w' = some x' → x.token = x'.token →
    w = w'
  stale : ∀ w x ev s', s.workers w = some x → s.row.executionToken ≠ some x.token →
    sstep lib runId userRequest s (.work w ev) = some s' →
      s'.row = s.row ∧ s'.store.log = s.store.log
  write : ∀ w x s', s.workers w = some x →
    sstep lib runId userRequest s (.work w (.exec .write)) = some s' → s.started = some x.token
  ckpt : ∀ ev s', sstep lib runId userRequest s ev = some s' →
    (∀ w, ev ≠ .work w (.exec .write)) → s'.store.ckpt = s.store.ckpt

theorem armed_of_write
    (h : WStep lib runId userRequest s w x (.exec .write) s') : x.armed = true := by
  cases h with
  | exec hm he hmay hchk hs => exact hmay

/-- **Run ownership fencing.** In every run whose checkpoint writes pass the
guard and land under the run lock. -/
theorem fenced (lib : Lib) (runId userRequest : String) (s : SState)
    (hr : ((service lib runId userRequest).restrict Landed).Reachable s) :
    Fenced lib runId userRequest s := by
  have hT := tokens_inductive.reachable s (LTS.reachable_of_restrict hr)
  have hL := lockOK_inductive.reachable s hr
  refine ⟨hT.running, hT.distinct, ?_, ?_, ?_⟩
  · intro w x ev s' hx hstale hs
    obtain ⟨x', hx', hw⟩ := work_cases hs
    rw [hx] at hx'
    cases hx'
    exact stale_harmless hstale hw
  · intro w x s' hx hs
    obtain ⟨x', hx', hw⟩ := work_cases hs
    rw [hx] at hx'
    cases hx'
    obtain ⟨x₀, hx₀, hst⟩ := hL.holder w (hL.armed w x hx (armed_of_write hw))
    rw [hx] at hx₀
    cases hx₀
    exact hst
  · intro ev s' hs hev
    exact ckpt_of_not_write (sstep_cases hs) hev

/-- A first execution is settled after its crash and retried. -/
def retriedOnce : List SEv :=
  [.start 0, .work 0 .lock, .work 0 .activate, .work 0 .load, .work 0 (.exec .reconcile),
    .work 0 .guard, .work 0 (.exec .write), .work 0 .raise, .work 0 .repair, .work 0 .release,
    .retry 1, .work 1 .lookup, .work 1 .lock, .work 1 .activate, .work 1 .load]

def guardedStep (s : SState) (ev : SEv) : Option SState :=
  if Landed s ev then sstep asciiLib "run-1" "road works" s ev else none

theorem fenced_retriedOnce :
    Fenced asciiLib "run-1" "road works"
      ((LTS.exec guardedStep {} retriedOnce).get (by decide +kernel)) :=
  fenced asciiLib "run-1" "road works" _ (LTS.reachable_of_execGuarded retriedOnce (by rfl) _)

/-- The append of `parse_intent`'s event fails while its checkpoint write has
passed the guard; the run is settled, released and retried. -/
def lateWrite : List SEv :=
  [.start 0, .work 0 .lock, .work 0 .activate, .work 0 .load, .work 0 (.exec .reconcile),
    .work 0 .guard, .work 0 (.exec .write), .work 0 (.exec (.superstep demoPorts)),
    .work 0 .guard, .work 0 (.exec .write), .work 0 (.exec .emit),
    .work 0 (.exec (.superstep demoPorts)), .work 0 .guard, .work 0 .raise, .work 0 .repair,
    .work 0 .release, .retry 1, .work 1 .lookup, .work 1 .lock, .work 1 .activate, .work 1 .load]

def beforeLateWrite : SState :=
  (LTS.exec (sstep asciiLib "run-1" "road works") {} lateWrite).get (by decide +kernel)

/-- The write of worker 0 lands while worker 1 is executing. -/
theorem late_write_not_fenced :
    (service asciiLib "run-1" "road works").Reachable beforeLateWrite ∧
      ¬ Fenced asciiLib "run-1" "road works" beforeLateWrite := by
  refine ⟨LTS.reachable_of_exec lateWrite (by rfl) _, fun h => ?_⟩
  have hen : (sstep asciiLib "run-1" "road works" beforeLateWrite
      (.work 0 (.exec .write))).isSome := by decide +kernel
  obtain ⟨s', hs'⟩ := Option.isSome_iff_exists.mp hen
  obtain ⟨x, hx, -⟩ := work_cases hs'
  have hst := h.write 0 x s' hx hs'
  have htok : (beforeLateWrite.workers 0).map (·.token) = some 0 := by decide +kernel
  have hstarted : beforeLateWrite.started = some 1 := by decide +kernel
  rw [hx] at htok
  rw [hstarted] at hst
  simp only [Option.map_some, Option.some.injEq] at htok hst
  omega

end BidScope.L3
