import BidScope.L4Subscriptions.Cycle

/-!
# Failures and pauses

One subscription whose runs, pauses and resumes follow one another. The counter
sits in `normalized_intent`: creation and a success set it to 0, every failure
exit of `_run_locked` raises it, and the third failure pauses the subscription.
The resume route changes the status alone.

What a run meets outside the row (the lock, the run service, the report, the
views, the commits) is an `Occasion`, any at all; the row is written by
`failureRow` and `successRow`, as in the interleaved cycle.

**Law (`Rightly`).** A run of an active subscription leaves it paused exactly
when it fails as the third in a row since the creation, the last success and the
last resume.

* `runSubscription_cases`: what a run makes of the row.
* `counted_inductive`: the counter is that of the failures since the last
  success; a resume does not set it back.
* `pauses_rightly_iff`: over every sequence the law holds exactly when no run
  fails with two failures or more since the last success of which fewer than
  two are since the last resume.
-/
namespace BidScope.L4
open BidScope.L1

/-! ## One run -/

/-- What a run meets; an answer is `none` where the call raises. -/
structure Occasion where
  scheduledAt : Int
  advance : Bool
  /-- whether the advisory lock is free -/
  acquired : Option Bool := some true
  /-- a run service is injected -/
  runService : Bool := true
  /-- whether `create_run` creates the run -/
  createRun : Option Bool := some true
  /-- the status `execute_run` returns -/
  executeRun : Option String := some "completed"
  /-- the status `confirm` returns -/
  confirm : Option String := some "completed"
  /-- whether `_load_persisted_report` finds the report -/
  loadReport : Option Bool := some true
  /-- the views, the diff and the seen items go through -/
  emits : Bool := true
  /-- the commit goes through -/
  commits : Bool := true

/-- How a run ends, by what it committed. -/
inductive Ended where
  | success | failed | skipped | raised
  deriving DecidableEq, Repr

variable (env : Env)

/-- `_record_failure` and the commit behind it. -/
def Occasion.recordFailure (o : Occasion) (sub : Subscription) : Subscription × Ended :=
  if o.commits then (failureRow sub sub, .failed) else (sub, .raised)

/-- Whether the run is completed; an interrupt is confirmed.
mirrors subscriptions/service.py:673-683 -/
def Occasion.completed (o : Occasion) : Option Bool :=
  match o.executeRun with
  | none => none
  | some first =>
    match if first = "awaiting_confirmation" then o.confirm else some first with
    | none => none
    | some status => some (status = "completed")

/-- mirrors subscriptions/service.py:702-731 -/
def deliver (o : Occasion) (sub : Subscription) : Subscription × Ended :=
  match o.loadReport with
  | none => (sub, .raised)
  | some false => o.recordFailure sub
  | some true =>
    if ¬ o.emits then (sub, .raised)
    else
      match successRow env o.advance o.scheduledAt sub sub with
      | none => (sub, .raised)
      | some row => if o.commits then (row, .success) else (sub, .raised)

/-- mirrors subscriptions/service.py:601-731 -/
def runLocked (o : Occasion) (sub : Subscription) : Subscription × Ended :=
  if env.failEveryRun then o.recordFailure sub
  else if ¬ o.runService then (sub, .raised)
  else if sub.normalizedIntent.userRequest.getD "" = "" then o.recordFailure sub
  else
    match o.createRun with
    | none => (sub, .raised)
    | some false => deliver env o sub
    | some true =>
      match o.completed with
      | none => (sub, .raised)
      | some false => o.recordFailure sub
      | some true => deliver env o sub

/-- mirrors subscriptions/service.py:514-574 -/
def runSubscription (o : Occasion) (sub : Subscription) : Subscription × Ended :=
  match o.acquired with
  | none => (sub, .raised)
  | some false => (sub, .skipped)
  | some true =>
    if o.advance && !matchesScheduledOccurrence sub o.scheduledAt then (sub, .skipped)
    else runLocked env o sub

/-! ## Sequences -/

/-- What happened: a run with the status before and after, a pause, a resume. -/
inductive Deed where
  | ran (before : SubStatus) (ended : Ended) (after : SubStatus)
  | paused
  | resumed
  deriving DecidableEq, Repr

structure Life where
  row : Subscription
  past : List Deed := []
  deriving DecidableEq

inductive LifeEv where
  | run (o : Occasion)
  | pause
  | resume

/-- A pause of a subscription that is not active, or a resume of one that is not
paused, is refused (409).
mirrors api/routes/subscriptions.py:101-154 -/
def happen (h : Life) : LifeEv → Life
  | .run o =>
    let ran := runSubscription env o h.row
    ⟨ran.1, h.past ++ [.ran h.row.status ran.2 ran.1.status]⟩
  | .pause =>
    if h.row.status = .active then ⟨{ h.row with status := .paused }, h.past ++ [.paused]⟩ else h
  | .resume =>
    if h.row.status = .paused then ⟨{ h.row with status := .active }, h.past ++ [.resumed]⟩ else h

/-- `create_from_run` leaves the subscription active and without failures. -/
def Fresh (h : Life) : Prop := h.past = [] ∧ h.row.status = .active ∧ h.row.failures = 0

def lives : LTS Life LifeEv := LTS.ofFn Fresh fun h ev => some (happen env h ev)

/-! ## The law -/

def Deed.fails : Deed → Bool
  | .ran _ .failed _ => true
  | _ => false

def Deed.succeeds : Deed → Bool
  | .ran _ .success _ => true
  | _ => false

def Deed.resumes : Deed → Bool
  | .resumed => true
  | _ => false

/-- The failures behind the last deed that resets the count. -/
def countSince (resets : Deed → Bool) (past : List Deed) : Nat :=
  past.foldl (fun n d => if resets d then 0 else if d.fails then n + 1 else n) 0

/-- Since the creation and the last success. -/
def sinceSuccess (past : List Deed) : Nat := countSince Deed.succeeds past

/-- Since the creation, the last success and the last resume. -/
def sinceReset (past : List Deed) : Nat := countSince (fun d => d.succeeds || d.resumes) past

/-- `P` holds of every deed and what lay behind it. -/
def AtEach (P : List Deed → Deed → Prop) (past : List Deed) : Prop :=
  ∀ pre d post, past = pre ++ d :: post → P pre d

/-- A run of an active subscription pauses it exactly as the third failure. -/
def Rightly (pre : List Deed) (d : Deed) : Prop :=
  ∀ ended after, d = .ran .active ended after →
    (after = .paused ↔ ended = .failed ∧ sinceReset pre = 2)

/-- A failing run of an active subscription has fewer than two failures behind it
since the last success, or two since the last resume as well. -/
def CountsAgree (pre : List Deed) (d : Deed) : Prop :=
  ∀ after, d = .ran .active .failed after → sinceSuccess pre < 2 ∨ 2 ≤ sinceReset pre

/-! ## What a run makes of the row -/

variable {env} {o : Occasion} {sub row : Subscription} {ended : Ended}

theorem recordFailure_cases (h : o.recordFailure sub = (row, ended)) :
    (row = failureRow sub sub ∧ ended = .failed) ∨ (row = sub ∧ ended = .raised) := by
  unfold Occasion.recordFailure at h
  split at h
  · cases h
    exact .inl ⟨rfl, rfl⟩
  · cases h
    exact .inr ⟨rfl, rfl⟩

theorem deliver_cases (h : deliver env o sub = (row, ended)) :
    (row = failureRow sub sub ∧ ended = .failed) ∨
      (successRow env o.advance o.scheduledAt sub sub = some row ∧ ended = .success) ∨
      (row = sub ∧ ended = .raised) := by
  unfold deliver at h
  split at h
  · cases h
    exact .inr (.inr ⟨rfl, rfl⟩)
  · exact (recordFailure_cases h).imp_right .inr
  · split at h
    · cases h
      exact .inr (.inr ⟨rfl, rfl⟩)
    · split at h
      · cases h
        exact .inr (.inr ⟨rfl, rfl⟩)
      · rename_i new hnew
        split at h
        · cases h
          exact .inr (.inl ⟨hnew, rfl⟩)
        · cases h
          exact .inr (.inr ⟨rfl, rfl⟩)

theorem runLocked_cases (h : runLocked env o sub = (row, ended)) :
    (row = failureRow sub sub ∧ ended = .failed) ∨
      (successRow env o.advance o.scheduledAt sub sub = some row ∧ ended = .success) ∨
      (row = sub ∧ ended = .raised) := by
  have hraised : (sub, Ended.raised) = (row, ended) → row = sub ∧ ended = .raised := fun h => by
    cases h
    exact ⟨rfl, rfl⟩
  unfold runLocked at h
  split at h
  · exact (recordFailure_cases h).imp_right .inr
  · split at h
    · exact .inr (.inr (hraised h))
    · split at h
      · exact (recordFailure_cases h).imp_right .inr
      · split at h
        · exact .inr (.inr (hraised h))
        · exact deliver_cases h
        · split at h
          · exact .inr (.inr (hraised h))
          · exact (recordFailure_cases h).imp_right .inr
          · exact deliver_cases h

/-- A run fails, succeeds, or leaves the row as it is. -/
theorem runSubscription_cases (h : runSubscription env o sub = (row, ended)) :
    (row = failureRow sub sub ∧ ended = .failed) ∨
      (successRow env o.advance o.scheduledAt sub sub = some row ∧ ended = .success) ∨
      (row = sub ∧ ended ≠ .failed ∧ ended ≠ .success) := by
  unfold runSubscription at h
  split at h
  · cases h
    exact .inr (.inr ⟨rfl, by decide, by decide⟩)
  · cases h
    exact .inr (.inr ⟨rfl, by decide, by decide⟩)
  · split at h
    · cases h
      exact .inr (.inr ⟨rfl, by decide, by decide⟩)
    · refine (runLocked_cases h).imp_right (Or.imp_right ?_)
      rintro ⟨rfl, rfl⟩
      exact ⟨rfl, by decide, by decide⟩

@[simp] theorem failureRow_failures (sub : Subscription) :
    (failureRow sub sub).failures = sub.failures + 1 := rfl

theorem failureRow_status (sub : Subscription) :
    (failureRow sub sub).status = if 2 ≤ sub.failures then .paused else sub.status := by
  show (if sub.failures + 1 ≥ 3 ∧ sub.status ≠ .paused then SubStatus.paused else sub.status) = _
  by_cases h : 2 ≤ sub.failures
  · cases hs : sub.status <;> simp [h]
  · have hfew : ¬ sub.failures + 1 ≥ 3 := by omega
    rw [if_neg (fun ht => hfew ht.1), if_neg h]

theorem flush_same (read new : Intent) : Intent.flush read new read = new := by
  unfold Intent.flush
  split
  · rename_i h
    exact h.symm
  · rfl

theorem successRow_spec {advance : Bool} {scheduledAt : Int}
    (h : successRow env advance scheduledAt sub sub = some row) :
    row.failures = 0 ∧ row.status = sub.status := by
  unfold successRow at h
  obtain ⟨new, hnew, rfl⟩ := Option.map_eq_some_iff.mp h
  refine ⟨?_, rfl⟩
  show (Intent.flush _ new _).consecutiveFailures = 0
  rw [flush_same]
  cases advance with
  | false =>
    cases hnew
    rfl
  | true =>
    obtain ⟨next, -, rfl⟩ := Option.map_eq_some_iff.mp hnew
    rfl

/-! ## The count -/

variable {resets : Deed → Bool} {past : List Deed} {d : Deed} {h : Life}

@[simp] theorem countSince_snoc : countSince resets (past ++ [d]) =
    if resets d then 0 else if d.fails then countSince resets past + 1 else countSince resets past := by
  rw [countSince, List.foldl_append]
  rfl

theorem atEach_nil {P : List Deed → Deed → Prop} : AtEach P [] := by simp [AtEach]

theorem atEach_snoc {P : List Deed → Deed → Prop} :
    AtEach P (past ++ [d]) ↔ AtEach P past ∧ P past d := by
  constructor
  · intro h
    refine ⟨fun pre e post he => h pre e (post ++ [d]) (by rw [he]; simp), h past d [] rfl⟩
  · rintro ⟨hpast, hd⟩ pre e post he
    rcases List.eq_nil_or_concat post with rfl | ⟨post', e', rfl⟩
    · obtain ⟨rfl, hlast⟩ := List.append_inj' he rfl
      rwa [← (List.cons.inj hlast).1]
    · rw [List.concat_eq_append, ← List.cons_append, ← List.append_assoc] at he
      exact hpast pre e post' (List.append_inj' he rfl).1

theorem since_failed {before after : SubStatus} :
    sinceSuccess (past ++ [.ran before .failed after]) = sinceSuccess past + 1 ∧
      sinceReset (past ++ [.ran before .failed after]) = sinceReset past + 1 := by
  simp [sinceSuccess, sinceReset, Deed.succeeds, Deed.resumes, Deed.fails]

theorem since_success {before after : SubStatus} :
    sinceSuccess (past ++ [.ran before .success after]) = 0 ∧
      sinceReset (past ++ [.ran before .success after]) = 0 := by
  simp [sinceSuccess, sinceReset, Deed.succeeds]

theorem since_resumed (past : List Deed) : sinceSuccess (past ++ [.resumed]) = sinceSuccess past ∧
    sinceReset (past ++ [.resumed]) = 0 := by
  simp [sinceSuccess, sinceReset, Deed.succeeds, Deed.resumes, Deed.fails]

/-- Nothing else counts. -/
theorem since_other (past : List Deed) (hf : d.fails = false) (hs : d.succeeds = false) (hr : d.resumes = false) :
    sinceSuccess (past ++ [d]) = sinceSuccess past ∧ sinceReset (past ++ [d]) = sinceReset past := by
  simp [sinceSuccess, sinceReset, hf, hs, hr]

/-- The counter is that of the failures since the last success. -/
structure Counted (h : Life) : Prop where
  counter : h.row.failures = sinceSuccess h.past
  fewer : sinceReset h.past ≤ sinceSuccess h.past
  active : h.row.status = .active → sinceReset h.past ≤ 2

theorem happen_run {o : Occasion} (hran : runSubscription env o h.row = (row, ended)) :
    happen env h (.run o) = ⟨row, h.past ++ [.ran h.row.status ended row.status]⟩ := by
  simp only [happen, hran]

theorem counted_run (hc : Counted h) (o : Occasion) : Counted (happen env h (.run o)) := by
  obtain ⟨hcounter, hfewer, hactive⟩ := hc
  cases hran : runSubscription env o h.row with
  | mk row ended =>
    rw [happen_run hran]
    rcases runSubscription_cases hran with ⟨rfl, rfl⟩ | ⟨hrow, rfl⟩ | ⟨rfl, hfailed, hsuccess⟩
    · constructor
      · show (failureRow h.row h.row).failures = _
        rw [since_failed.1, failureRow_failures, hcounter]
      · rw [since_failed.1, since_failed.2]
        omega
      · intro hstatus
        dsimp only at hstatus
        -- it stays active with fewer than two failures behind it
        rw [failureRow_status] at hstatus
        split at hstatus
        · cases hstatus
        · rw [since_failed.2]
          omega
    · constructor
      · rw [since_success.1, (successRow_spec hrow).1]
      · rw [since_success.2]
        omega
      · intro _
        rw [since_success.2]
        omega
    · have hf : (Deed.ran h.row.status ended h.row.status).fails = false := by
        cases ended <;> first | rfl | exact absurd rfl hfailed
      have hs : (Deed.ran h.row.status ended h.row.status).succeeds = false := by
        cases ended <;> first | rfl | exact absurd rfl hsuccess
      obtain ⟨hsame, hsame'⟩ := since_other h.past hf hs rfl
      exact ⟨by rw [hsame, hcounter], by rwa [hsame, hsame'], by rwa [hsame']⟩

theorem counted_step (hc : Counted h) : ∀ ev, Counted (happen env h ev)
  | .run o => counted_run hc o
  | .pause => by
    simp only [happen]
    split
    · obtain ⟨hsame, hsame'⟩ := since_other (d := .paused) h.past rfl rfl rfl
      exact ⟨by rw [hsame, ← hc.counter], by rw [hsame, hsame']; exact hc.fewer, fun hp => by cases hp⟩
    · exact hc
  | .resume => by
    simp only [happen]
    split
    · obtain ⟨hsame, hzero⟩ := since_resumed h.past
      exact ⟨by rw [hsame, ← hc.counter], by rw [hzero]; omega, fun _ => by rw [hzero]; omega⟩
    · exact hc

theorem counted_fresh (hf : Fresh h) : Counted h := by
  obtain ⟨hpast, -, hzero⟩ := hf
  constructor
  · rw [hzero, hpast]
    rfl
  · rw [hpast]
    exact Nat.le_refl _
  · rw [hpast]
    exact fun _ => Nat.zero_le _

theorem counted_inductive (env : Env) : (lives env).Inductive Counted where
  init _ := counted_fresh
  step h ev h' hc hs := by
    obtain rfl := Option.some.inj hs
    exact counted_step hc ev

/-! ## The law over a sequence -/

/-- A run pauses rightly exactly where the two counts agree. -/
theorem rightly_run (hc : Counted h) {o : Occasion} (hran : runSubscription env o h.row = (row, ended)) :
    Rightly h.past (.ran h.row.status ended row.status) ↔
      CountsAgree h.past (.ran h.row.status ended row.status) := by
  obtain ⟨hcounter, hfewer, hactive⟩ := hc
  by_cases hstatus : h.row.status = .active
  · have htwo := hactive hstatus
    rw [hstatus]
    simp only [Rightly, CountsAgree, Deed.ran.injEq, true_and]
    rcases runSubscription_cases hran with ⟨rfl, rfl⟩ | ⟨hrow, rfl⟩ | ⟨rfl, hfailed, hsuccess⟩
    · rw [failureRow_status, hcounter, hstatus]
      have hpaused : (if 2 ≤ sinceSuccess h.past then SubStatus.paused else .active) = .paused ↔
          2 ≤ sinceSuccess h.past := by
        split <;> simp_all
      simp only [and_imp, forall_eq', true_and]
      constructor
      · intro hall
        have hthis := hpaused.symm.trans (hall _ _ rfl rfl)
        simp only [true_and] at hthis
        omega
      · rintro hagree _ _ rfl rfl
        rw [hpaused]
        simp only [true_and]
        omega
    · rw [(successRow_spec hrow).2, hstatus]
      simp
    · rw [hstatus]
      simp [hfailed]
  · simp [Rightly, CountsAgree, hstatus]

theorem pauses_step (hc : Counted h) (hlaw : AtEach Rightly h.past ↔ AtEach CountsAgree h.past) :
    ∀ ev, AtEach Rightly (happen env h ev).past ↔ AtEach CountsAgree (happen env h ev).past
  | .run o => by
    cases hran : runSubscription env o h.row with
    | mk row ended =>
      rw [happen_run hran, atEach_snoc, atEach_snoc, hlaw, rightly_run hc hran]
  | .pause => by
    simp only [happen]
    split
    · rw [atEach_snoc, atEach_snoc, hlaw]
      simp [Rightly, CountsAgree]
    · exact hlaw
  | .resume => by
    simp only [happen]
    split
    · rw [atEach_snoc, atEach_snoc, hlaw]
      simp [Rightly, CountsAgree]
    · exact hlaw

/-- **Over every sequence the service pauses rightly** exactly when no run fails
with two failures or more since the last success of which fewer than two are
since the last resume. -/
theorem pauses_rightly_iff (env : Env) {h : Life} (hr : (lives env).Reachable h) :
    AtEach Rightly h.past ↔ AtEach CountsAgree h.past := by
  have hind : (lives env).Inductive fun h =>
      Counted h ∧ (AtEach Rightly h.past ↔ AtEach CountsAgree h.past) := by
    refine (counted_inductive env).and (fun h hf => ?_) fun h ev h' hc hlaw hs => ?_
    · rw [hf.1]
      exact iff_of_true atEach_nil atEach_nil
    · obtain rfl := Option.some.inj hs
      exact pauses_step hc hlaw ev
  exact (hind.reachable h hr).2

/-! ## A resume behind three failures -/

/-- A run whose graph fails. -/
def failing : LifeEv := .run { scheduledAt := 0, advance := false, executeRun := some "failed" }

def dueSub : Subscription := ⟨"* * * * *", "UTC", { userRequest := some "road works", nextRunAt := some 0 }, .active⟩

/-- Where a sequence of events leads. -/
def after (evs : List LifeEv) : Life := evs.foldl (happen everyMinute) ⟨dueSub, []⟩

theorem after_reachable (evs : List LifeEv) : (lives everyMinute).Reachable (after evs) := by
  induction evs using List.reverseRecOn with
  | nil => exact LTS.Reachable.init ⟨rfl, rfl, rfl⟩
  | append_singleton evs ev ih =>
    refine LTS.Reachable.step (l := ev) ih ?_
    show some _ = some _
    rw [after, after, List.foldl_append]
    rfl

/-- Three failures pause the subscription, and no fewer. -/
theorem pauses_rightly_three : (after [failing, failing, failing]).row.status = .paused ∧
    AtEach Rightly (after [failing, failing, failing]).past := by
  refine ⟨rfl, (pauses_rightly_iff everyMinute (after_reachable _)).mpr ?_⟩
  have hpast : (after [failing, failing, failing]).past = [] ++ [.ran .active .failed .active] ++
      [.ran .active .failed .active] ++ [.ran .active .failed .paused] := rfl
  rw [hpast, atEach_snoc, atEach_snoc, atEach_snoc]
  exact ⟨⟨⟨atEach_nil, fun _ _ => .inl (by decide)⟩, fun _ _ => .inl (by decide)⟩,
    fun _ _ => .inr (by decide)⟩

/-- Resumed behind three failures, it is paused by the next one. -/
theorem paused_by_one : (lives everyMinute).Reachable (after [failing, failing, failing, .resume, failing]) ∧
    ¬ AtEach Rightly (after [failing, failing, failing, .resume, failing]).past := by
  refine ⟨after_reachable _, fun h => ?_⟩
  have hlast := h ((after [failing, failing, failing, .resume]).past) (.ran .active .failed .paused) [] rfl
  have htwo := ((hlast .failed .paused rfl).mp rfl).2
  exact absurd htwo (by decide)

end BidScope.L4
