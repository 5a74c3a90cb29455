import BidScope.L3Runs.Creation

/-!
# One run for one idempotency key

**Law.** However the requests `POST /api/runs` with one key interleave, one run
is created, one request is told so and schedules it, the others get its id or,
with another `user_request`, are refused, and none of them changes the row.

**Where it fails.** The route gives an audit context, so the row is inserted by
the flush of the audit event, before the `try` around the commit. A request that
looked the key up before another's commit, and inserts after it, ends with an
uncaught `IntegrityError`.

**Results.**
* `create_run_idempotent`: the law in every run in which no request inserts
  when the row of its key has been committed since its lookup.
-/
namespace BidScope.L3

open BidScope.L1

/-- A request to the route; `drawn` is the key it draws if it gives none. -/
structure RunRequest where
  userRequest : String
  idempotencyKey : Option String
  drawn : String

def routes (requests : Nat → RunRequest) (i : Nat) : Caller :=
  .route (requests i).userRequest (requests i).idempotencyKey (requests i).drawn

variable {requests : Nat → RunRequest} {s s' : CreateState} {i id : Nat}

/-- The call a step is made for; a run executed in the background is its creator's. -/
def CreateEv.actor : CreateEv → Nat
  | .refuse i | .lookup i | .insert i | .commit i | .reselect i | .fetch i | .respond i _
  | .makeRetryable i | .execute i _ _ | .gate i | .background i _ _ => i

/-- No request inserts when the row of its key is there. -/
def InsertFree (callers : Nat → Caller) (s : CreateState) (ev : CreateEv) : Prop :=
  ∀ i, ev = .insert i → byKey s.rows (callers i).runKey = none

instance (callers : Nat → Caller) (s : CreateState) (ev : CreateEv) :
    Decidable (InsertFree callers s ev) :=
  match ev with
  | .insert i => decidable_of_iff (byKey s.rows (callers i).runKey = none) (by simp [InsertFree])
  | .refuse i | .lookup i | .commit i | .reselect i | .fetch i | .respond i _ | .makeRetryable i
  | .execute i _ _ | .gate i | .background i _ _ => isTrue (by simp [InsertFree])

/-! ## Answers -/

/-- What a request may have been answered. -/
inductive Reply (callers : Nat → Caller) (i id : Nat) (created : Bool) : Answer → Prop where
  | run (h : created = false → (callers id).userRequest = (callers i).userRequest) :
    Reply callers i id created (.run id)
  | conflict (hc : created = false) (h : (callers id).userRequest ≠ (callers i).userRequest) :
    Reply callers i id created .conflict
  | capacity (hc : created = true) : Reply callers i id created .capacity

/-- Where a request to the route can stand. -/
def Fine (callers : Nat → Caller) (i : Nat) : CallPc → Prop
  | .told id created (.answered a) => Reply callers i id created a
  | .told _ created .unscheduled => created = true
  | .told _ _ .gate | .told _ _ .diffed | .told _ _ .failed | .raced => False
  | _ => True

/-- The status of a row while its creator stands there. -/
def Fits : CallPc → RowStatus → Prop
  | .told _ _ (.answered .capacity), status => status = .of .retryable
  | .told _ _ (.answered _), _ => True
  | _, status => status = .of .pending

structure Replied (requests : Nat → RunRequest) (s : CreateState) : Prop where
  calls : ∀ i, Fine (routes requests) i (s.pc i)
  status : ∀ r ∈ s.rows, Fits (s.pc r.id) r.status
  scheduled : ∀ id ∈ s.scheduled, s.pc id = .told id true (.answered (.run id))
  once : s.scheduled.Nodup

theorem Replied.not_scheduled (h : Replied requests s) (hpc : s.pc i ≠ .told i true (.answered (.run i))) :
    i ∉ s.scheduled := fun hi => hpc (h.scheduled i hi)

theorem Replied.move {pc : CallPc} (h : Replied requests s) (hfine : Fine (routes requests) i pc)
    (hfits : ∀ r ∈ s.rows, r.id = i → Fits pc r.status) (hnot : i ∉ s.scheduled) :
    Replied requests (s.goto i pc) where
  calls j := by
    by_cases hj : j = i
    · subst hj
      rwa [goto_self]
    · rw [goto_ne s pc hj]
      exact h.calls j
  status r hr := by
    by_cases hj : r.id = i
    · rw [hj, goto_self]
      exact hfits r hr hj
    · rw [goto_ne s pc hj]
      exact h.status r hr
  scheduled id hid := by
    have hne : id ≠ i := fun he => hnot (he ▸ hid)
    rw [goto_ne s pc hne]
    exact h.scheduled id hid
  once := h.once

/-- A request that has not been told an id has no row. -/
theorem Kept.no_row {callers : Nat → Caller} (hk : Kept callers s)
    (hpc : ∀ id created phase, s.pc i ≠ .told id created phase) : ∀ r ∈ s.rows, r.id ≠ i := by
  rintro r hr rfl
  obtain ⟨phase, hphase⟩ := hk.creator r hr
  exact hpc _ _ _ hphase

theorem Replied.untold {pc : CallPc} (hk : Kept (routes requests) s) (h : Replied requests s)
    (hpc : ∀ id created phase, s.pc i ≠ .told id created phase) (hfine : Fine (routes requests) i pc) :
    Replied requests (s.goto i pc) :=
  h.move hfine (fun r hr he => absurd he (hk.no_row hpc r hr)) (h.not_scheduled (hpc _ _ _))

/-- The row of a request that goes on is as it was. -/
theorem Replied.next {phase : Phase} {created : Bool} (h : Replied requests s) (phase' : Phase)
    (hpc : s.pc i = .told id created phase) (hphase : ∀ a, phase ≠ .answered a)
    (hfine : Fine (routes requests) i (.told id created phase'))
    (hfits : ∀ status, status = .of .pending → Fits (.told id created phase') status) :
    Replied requests (s.goto i (.told id created phase')) := by
  refine h.move hfine (fun r hr he => hfits _ ?_) (h.not_scheduled (by
    rw [hpc]
    simp [hphase]))
  have := h.status r hr
  rw [he, hpc] at this
  cases phase <;> first | exact this | exact absurd rfl (hphase _)

theorem Replied.respond {created free : Bool} {run : Option QueryRun} (hk : Kept (routes requests) s)
    (h : Replied requests s) (hpc : s.pc i = .told id created (.fetched run)) :
    Replied requests (s.respond (routes requests) i id created run free) := by
  obtain ⟨r, rfl, hr⟩ := hk.fetched i id created run hpc
  unfold CreateState.respond
  cases created with
  | false =>
    by_cases hreq : (routes requests id).userRequest = (routes requests i).userRequest
    · rw [if_neg (by simp [hr, hreq]), if_neg (by simp)]
      exact h.next _ hpc (by simp) (.run fun _ => hreq) fun _ _ => trivial
    · rw [if_pos ⟨by simp, r, rfl, by rw [hr]; exact hreq⟩]
      exact h.next _ hpc (by simp) (.conflict rfl hreq) fun _ _ => trivial
  | true =>
    rw [if_neg (by simp), if_pos rfl]
    -- the creator's own id: it was not scheduled before
    have hid : id = i := (hk.told i id true _ hpc).2 rfl
    subst hid
    cases free with
    | true =>
      rw [if_pos rfl]
      have hmoved := h.next (.answered (.run id)) hpc (by simp) (.run (by simp)) fun _ _ => trivial
      have hnew : id ∉ s.scheduled := h.not_scheduled (by simp [hpc])
      refine ⟨hmoved.calls, hmoved.status, fun j hj => ?_, ?_⟩
      · rcases List.mem_append.mp hj with hj | hj
        · exact hmoved.scheduled j hj
        · rw [List.mem_singleton.mp hj]
          exact goto_self ..
      · exact List.nodup_append.mpr ⟨h.once, by simp, by
          rintro a ha b hb rfl
          exact hnew (List.mem_singleton.mp hb ▸ ha)⟩
    | false =>
      rw [if_neg (by simp)]
      exact h.next _ hpc (by simp) rfl fun _ hs => hs

theorem routes_audited (i : Nat) : (routes requests i).audited = true := rfl

theorem replied_step {ev : CreateEv} (hk : Kept (routes requests) s) (h : Replied requests s)
    (hs : CreateStep (routes requests) s ev s') : Replied requests s' := by
  cases hs with
  | refuse hpc | miss hpc => exact h.untold hk (by simp [hpc]) trivial
  | find hpc | reselect hpc => exact h.untold hk (by simp [hpc]) trivial
  | @insert i hpc =>
    have huntold : ∀ id created phase, s.pc i ≠ .told id created phase := by simp [hpc]
    have hmoved : Replied requests (s.goto i .inserted) := h.untold hk huntold trivial
    exact ⟨hmoved.calls, hmoved.status, hmoved.scheduled, hmoved.once⟩
  | clash hpc =>
    rw [if_pos (routes_audited _)]
    exact h.untold hk (by simp [hpc]) trivial
  | @commit i hpc =>
    have huntold : ∀ id created phase, s.pc i ≠ .told id created phase := by simp [hpc]
    have hnorow := hk.no_row huntold
    refine ⟨fun j => ?_, fun r hr => ?_, fun id hid => ?_, h.once⟩
    · by_cases hj : j = i
      · subst hj
        rw [show (s.goto j (.told j true .resolved)).pc j = _ from goto_self ..]
        trivial
      · show Fine _ j ((s.goto i _).pc j)
        rw [goto_ne s _ hj]
        exact h.calls j
    · rcases List.mem_append.mp hr with hr | hr
      · show Fits ((s.goto i _).pc r.id) r.status
        rw [goto_ne s _ (hnorow r hr)]
        exact h.status r hr
      · rw [List.mem_singleton.mp hr]
        show Fits ((s.goto i _).pc i) _
        rw [goto_self]
        rfl
    · have hne : id ≠ i := fun he => h.not_scheduled (by simp [hpc]) (he ▸ hid)
      exact (goto_ne s _ hne).trans (h.scheduled id hid)
  | lost hpc => exact h.untold hk (by simp [hpc]) trivial
  | fetch hpc => exact h.next _ hpc (by simp) trivial fun _ hs => hs
  | respond hpc => exact h.respond hk hpc
  | @makeRetryable i id created hpc =>
    have hcreated : created = true := by
      have := h.calls i
      rw [hpc] at this
      exact this
    subst hcreated
    have hid : id = i := (hk.told i id true _ hpc).2 rfl
    subst hid
    refine ⟨fun j => ?_, fun r hr => ?_, fun j hj => ?_, h.once⟩
    · by_cases hj : j = id
      · subst hj
        rw [show (s.goto j (.told j true (.answered .capacity))).pc j = _ from goto_self ..]
        exact .capacity rfl
      · show Fine _ j ((s.goto id _).pc j)
        rw [goto_ne s _ hj]
        exact h.calls j
    · obtain ⟨r₀, hr₀, rfl⟩ := List.mem_map.mp hr
      have hstatus := h.status r₀ hr₀
      by_cases he : r₀.id = id
      · -- its creator was about to mark it: it was still pending
        rw [he, hpc] at hstatus
        rw [if_pos ⟨he, by simpa using hstatus.symm⟩]
        show Fits ((s.goto id _).pc r₀.id) _
        rw [he, goto_self]
        rfl
      · rw [if_neg fun hc => he hc.1]
        show Fits ((s.goto id _).pc r₀.id) _
        rw [goto_ne s _ he]
        exact hstatus
    · have hne : j ≠ id := fun he => h.not_scheduled (by simp [hpc]) (he ▸ hj)
      exact (goto_ne s _ hne).trans (h.scheduled j hj)
  | execute _ ha => exact absurd ha (by simp [routes_audited])
  | @gate i id created phase hpc hphase =>
    have hfine := h.calls i
    rcases hphase with ⟨-, -, ha⟩ | ⟨-, rfl⟩
    · exact absurd ha (by simp [routes_audited])
    · rw [hpc] at hfine
      exact hfine.elim
  | @background id status delivered he =>
    have hid : id ∈ s.scheduled := by simpa [CreateState.executable, routes_audited] using he
    refine ⟨h.calls, fun r hr => ?_, h.scheduled, h.once⟩
    obtain ⟨r₀, hr₀, rfl⟩ := List.mem_map.mp hr
    by_cases heq : r₀.id = id
    · rw [if_pos ⟨heq, rfl⟩]
      show Fits (s.pc r₀.id) _
      rw [heq, h.scheduled id hid]
      trivial
    · rw [if_neg fun hc => heq hc.1]
      exact h.status r₀ hr₀

theorem replied_inductive :
    (creation (routes requests)).Inductive fun s => Kept (routes requests) s ∧ Replied requests s :=
  kept_inductive.and (fun s hs => by
    subst hs
    exact ⟨fun _ => trivial, by simp, by simp, by simp⟩) fun _ _ _ hk h hs => replied_step hk h (create_cases hs)

/-! ## No request fails -/

/-- Under the guard no request ends with an exception. -/
theorem unraised_inductive : ((creation (routes requests)).restrict (InsertFree (routes requests))).Inductive
    fun s => Kept (routes requests) s ∧ ∀ i, s.pc i ≠ .raised ∧ s.pc i ≠ .raced := by
  refine kept_inductive.restrict.and (fun s hs => by
    subst hs
    simp) fun s ev s' hk h hs => ?_
  obtain ⟨hguard, hs⟩ := hs
  have hgoto : ∀ (i : Nat) (pc : CallPc), pc ≠ .raised ∧ pc ≠ .raced → ∀ j,
      (s.goto i pc).pc j ≠ .raised ∧ (s.goto i pc).pc j ≠ .raced := by
    intro i pc hpc j
    by_cases hj : j = i
    · subst hj
      rwa [goto_self]
    · rw [goto_ne s pc hj]
      exact h j
  cases create_cases hs with
  | clash _ hrow =>
    rw [hguard _ rfl] at hrow
    cases hrow
  | lost hpc => exact absurd hpc (h _).2
  | respond hpc =>
    unfold CreateState.respond
    split
    · exact hgoto _ _ (by simp)
    · split
      · split
        · exact hgoto _ _ (by simp)
        · exact hgoto _ _ (by simp)
      · exact hgoto _ _ (by simp)
  | background => exact h
  | _ => exact hgoto _ _ (by simp)

/-! ## The law -/

/-- A request that was admitted has its answer, or an exception. -/
def CallPc.done : CallPc → Bool
  | .raised | .told _ _ (.answered _) => true
  | _ => false

/-- One run for each key: one row, one request told that it created it and
scheduled at most once, and the answer each request must get. -/
structure OneRun (callers : Nat → Caller) (s : CreateState) : Prop where
  row : ∀ r ∈ s.rows, ∀ r' ∈ s.rows, r.runKey = r'.runKey → r = r'
  creator : ∀ i j id id' phase phase', (callers i).runKey = (callers j).runKey →
    s.pc i = .told id true phase → s.pc j = .told id' true phase' → i = j
  scheduled : s.scheduled.Nodup ∧ ∀ id ∈ s.scheduled, s.pc id = .told id true (.answered (.run id))
  answer : ∀ i, (s.pc i).done = true → ∃ r ∈ s.rows, r.runKey = (callers i).runKey ∧
    (∃ phase, s.pc r.id = .told r.id true phase) ∧
    (r.userRequest = (callers i).userRequest →
      (∃ created, s.pc i = .told r.id created (.answered (.run r.id))) ∨
        (r.id = i ∧ s.pc i = .told i true (.answered .capacity) ∧ r.status = .of .retryable)) ∧
    (r.userRequest ≠ (callers i).userRequest → s.pc i = .told r.id false (.answered .conflict))

theorem one_run (hk : Kept (routes requests) s) (h : Replied requests s)
    (hraised : ∀ i, s.pc i ≠ .raised) : OneRun (routes requests) s where
  row r hr r' hr' hkey := hk.id_unique (List.mem_append_left _ hr) (List.mem_append_left _ hr') hkey
  creator i j id id' phase phase' hkey hi hj := by
    obtain ⟨⟨r, hr, hid, hrkey⟩, hown⟩ := hk.told i id true phase hi
    obtain ⟨⟨r', hr', hid', hrkey'⟩, hown'⟩ := hk.told j id' true phase' hj
    have hsame := hk.id_unique (List.mem_append_left _ hr) (List.mem_append_left _ hr')
      (by rw [hrkey, hrkey', hkey])
    rw [← hown rfl, ← hown' rfl, ← hid, ← hid', hsame]
  scheduled := ⟨h.once, h.scheduled⟩
  answer i hdone := by
    have hfine := h.calls i
    cases hpc : s.pc i with
    | told id created phase =>
      rw [hpc] at hdone hfine
      cases phase with
      | answered a =>
        obtain ⟨⟨r, hr, rfl, hkey⟩, hown⟩ := hk.told i id created _ hpc
        have hrequest := (hk.row r (List.mem_append_left _ hr)).2
        refine ⟨r, hr, hkey, hk.creator r hr, fun hreq => ?_, fun hreq => ?_⟩
        · cases hfine with
          | run => exact .inl ⟨created, rfl⟩
          | conflict _ hne => exact absurd (hrequest.symm.trans hreq) hne
          | capacity hc =>
            subst hc
            have hid := hown rfl
            have hstatus := h.status r hr
            rw [hid, hpc] at hstatus
            exact .inr ⟨hid, by rw [hid], hstatus⟩
        · cases hfine with
          | run hsame =>
            cases created with
            | false => exact absurd (hrequest.trans (hsame rfl)) hreq
            | true => exact absurd (by rw [hrequest, hown rfl]) hreq
          | conflict hc =>
            rw [hc]
          | capacity hc => exact absurd (by rw [hrequest, hown hc]) hreq
      | _ => cases hdone
    | raised => exact absurd hpc (hraised i)
    | _ =>
      rw [hpc] at hdone
      cases hdone

/-- A step changes no row but its own call's. -/
theorem row_unaltered (hk : Kept (routes requests) s) (h : Replied requests s) {ev : CreateEv}
    {r : QueryRun} (hs : CreateStep (routes requests) s ev s') (hr : r ∈ s.rows)
    (hne : ev.actor ≠ r.id) : r ∈ s'.rows := by
  cases hs with
  | commit => exact List.mem_append_left _ hr
  | respond =>
    unfold CreateState.respond
    split
    · exact hr
    · split
      · split <;> exact hr
      · exact hr
  | @makeRetryable i id created hpc =>
    have hcreated : created = true := by
      have hfine := h.calls i
      rw [hpc] at hfine
      exact hfine
    have hid : id = i := (hk.told i id created _ hpc).2 hcreated
    exact setStatus_of_ne hr fun he => hne (by rw [he, hid]; rfl)
  | execute hpc =>
    have hid := (hk.told _ _ _ _ hpc).2 rfl
    exact setStatus_of_ne hr fun he => hne (by rw [he, hid]; rfl)
  | background => exact setStatus_of_ne hr (Ne.symm hne)
  | _ => exact hr

/-- A request that is not done has a step, or waits for the commit of another. -/
theorem request_goes_on (hk : Kept (routes requests) s) (h : Replied requests s) (i : Nat)
    (hdone : (s.pc i).done = false) (hrefused : ∀ detail, s.pc i ≠ .refused detail) :
    ∃ ev, (createStep (routes requests) s ev).isSome ∧
      (ev.actor = i ∨ ∃ r ∈ s.uncommitted, ev = .commit r.id ∧ r.runKey = (routes requests i).runKey) := by
  have hfine := h.calls i
  cases hpc : s.pc i with
  | arrived =>
    cases hr : (routes requests i).refused with
    | some detail => exact ⟨.refuse i, by simp [createStep, hpc, hr], .inl rfl⟩
    | none =>
      cases hrow : byKey s.rows (routes requests i).runKey with
      | some r => exact ⟨.lookup i, by simp [createStep, hpc, hr, hrow], .inl rfl⟩
      | none => exact ⟨.lookup i, by simp [createStep, hpc, hr, hrow], .inl rfl⟩
  | refused detail => exact absurd hpc (hrefused detail)
  | missed =>
    by_cases hopen : ∃ r ∈ s.uncommitted, r.runKey = (routes requests i).runKey
    · obtain ⟨r, hr, hkey⟩ := hopen
      have hr' := (hk.inserted r.id).mpr ⟨r, hr, rfl⟩
      exact ⟨.commit r.id, by simp [createStep, hr'], .inr ⟨r, hr, rfl, hkey⟩⟩
    · cases hrow : byKey s.rows (routes requests i).runKey with
      | some r =>
        exact ⟨.insert i, by simp [createStep, hpc, CreateState.insert, if_neg hopen, hrow], .inl rfl⟩
      | none =>
        exact ⟨.insert i, by simp [createStep, hpc, CreateState.insert, if_neg hopen, hrow], .inl rfl⟩
  | inserted => exact ⟨.commit i, by simp [createStep, hpc], .inl rfl⟩
  | raced =>
    rw [hpc] at hfine
    exact hfine.elim
  | raised =>
    rw [hpc] at hdone
    cases hdone
  | told id created phase =>
    rw [hpc] at hdone hfine
    cases phase with
    | resolved => exact ⟨.fetch i, by simp [createStep, hpc, routes], .inl rfl⟩
    | fetched run => exact ⟨.respond i true, by simp [createStep, hpc], .inl rfl⟩
    | unscheduled => exact ⟨.makeRetryable i, by simp [createStep, hpc], .inl rfl⟩
    | answered a => cases hdone
    | gate | diffed | failed => exact hfine.elim

/-- In every run in which no request inserts when the row of its key is there, one
run is created for a key and answered for as it should be; at every step the rows
of other requests stay as they are, and every request can go on. -/
theorem create_run_idempotent (requests : Nat → RunRequest) (s : CreateState)
    (hr : ((creation (routes requests)).restrict (InsertFree (routes requests))).Reachable s) :
    OneRun (routes requests) s ∧
      (∀ ev s', createStep (routes requests) s ev = some s' → ∀ r ∈ s.rows, ev.actor ≠ r.id →
        r ∈ s'.rows) ∧
      ∀ i, (s.pc i).done = false → (∀ detail, s.pc i ≠ .refused detail) →
        ∃ ev, (createStep (routes requests) s ev).isSome ∧
          (ev.actor = i ∨
            ∃ r ∈ s.uncommitted, ev = .commit r.id ∧ r.runKey = (routes requests i).runKey) := by
  obtain ⟨hk, h⟩ := replied_inductive.restrict.reachable s hr
  have hraised := (unraised_inductive.reachable s hr).2
  exact ⟨one_run hk h fun i => (hraised i).1,
    fun ev s' hs r hmem hne => row_unaltered hk h (create_cases hs) hmem hne,
    fun i hdone hrefused => request_goes_on hk h i hdone hrefused⟩

/-! ## Runs -/

/-- Two requests that are the same. -/
def twoRequests (_ : Nat) : RunRequest := ⟨"road works", some "key", "uuid"⟩

/-- One after the other. -/
def oneAfterAnother : List CreateEv :=
  [.lookup 0, .insert 0, .commit 0, .fetch 0, .respond 0 true, .lookup 1, .fetch 1, .respond 1 true]

/-- Both look the key up before either has committed. -/
def bothLookFirst : List CreateEv := [.lookup 0, .lookup 1, .insert 0, .commit 0, .insert 1]

def guardedCreate (s : CreateState) (ev : CreateEv) : Option CreateState :=
  if InsertFree (routes twoRequests) s ev then createStep (routes twoRequests) s ev else none

def bothAnswered : CreateState :=
  (LTS.exec guardedCreate {} oneAfterAnother).get (by decide +kernel)

def secondRaised : CreateState :=
  (LTS.exec (createStep (routes twoRequests)) {} bothLookFirst).get (by decide +kernel)

theorem create_run_idempotent_two :
    bothAnswered.pc 1 = .told 0 false (.answered (.run 0)) ∧ OneRun (routes twoRequests) bothAnswered :=
  ⟨by decide +kernel,
    (create_run_idempotent twoRequests bothAnswered (LTS.reachable_of_execGuarded oneAfterAnother (by rfl) _)).1⟩

/-- The second request gets an exception instead of the run's id. -/
theorem second_request_raises :
    (creation (routes twoRequests)).Reachable secondRaised ∧ ¬ OneRun (routes twoRequests) secondRaised := by
  refine ⟨LTS.reachable_of_exec bothLookFirst (by rfl) _, fun h => ?_⟩
  have hraised : secondRaised.pc 1 = .raised := by decide +kernel
  obtain ⟨r, -, -, -, hsame, hother⟩ := h.answer 1 (by rw [hraised]; rfl)
  rw [hraised] at hsame hother
  by_cases hreq : r.userRequest = (routes twoRequests 1).userRequest
  · rcases hsame hreq with ⟨_, he⟩ | ⟨-, he, -⟩ <;> cases he
  · cases hother hreq

end BidScope.L3
