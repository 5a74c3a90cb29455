import BidScope.L3Runs.Creation
import BidScope.L4Subscriptions.Cycle

/-!
# The run of an occurrence

**Law.** The run whose report a subscription run diffs, or fails on, was created
for that subscription and minute, with the subscription's stored request.

**Where it fails.** The keys of scheduled runs and the keys clients choose share
one column. `_run_locked` takes the row its key leads to as it is, without the
comparison of `user_request` that the route makes, so a client that creates a run
under a scheduled key decides what the occurrence diffs.

**Results.**
* `scheduledRunKey_inj`: a scheduled key names the subscription and the minute.
* `occurrence_own_run`: the law in every run in which no client inserts a run
  under a scheduled key.
-/
namespace BidScope.L4

open BidScope.L1 BidScope.L3

/-- `str(uuid.uuid4())` of a subscription: no colon in it. -/
structure SubscriptionId where
  value : String
  noColon : ':' ∉ value.toList

/-- Who creates runs: a client of the route, with its body, its `Idempotency-Key`
and the key drawn where there is none; or the occurrence of a subscription. -/
inductive Visitor where
  | client (body : String) (header : Option String) (drawn : String)
  | occurrence (sub : SubscriptionId) (scheduledAt : Int)

variable (env : Env) (stored : SubscriptionId → String)

/-- An occurrence gives its scheduled key and the request stored when the
subscription was created, which nothing changes. -/
def Visitor.caller : Visitor → Caller
  | .client body header drawn => .route body header drawn
  | .occurrence sub scheduledAt => .scheduled (scheduledRunKey env sub.value scheduledAt) (stored sub)

def callers (visitors : Nat → Visitor) (i : Nat) : Caller := (visitors i).caller env stored

variable {env stored} {visitors : Nat → Visitor} {s s' : CreateState} {i id : Nat}

/-! ## Scheduled keys -/

theorem scheduledRunKey_toList (sub : String) (scheduledAt : Int) :
    (scheduledRunKey env sub scheduledAt).toList =
      "subscription:".toList ++ (sub.toList ++ ':' :: (bucket env scheduledAt).toList) := by
  simp only [scheduledRunKey, String.toList_append, List.append_assoc]
  rfl

theorem scheduledRunKey_inj {sub sub' : SubscriptionId} {t t' : Int}
    (h : scheduledRunKey env sub.value t = scheduledRunKey env sub'.value t') :
    sub = sub' ∧ bucket env t = bucket env t' := by
  have hlist := congrArg String.toList h
  rw [scheduledRunKey_toList, scheduledRunKey_toList] at hlist
  have hrest := List.append_cancel_left hlist
  obtain ⟨hsub, hbucket⟩ := Text.append_cons_inj sub.noColon sub'.noColon hrest
  obtain ⟨value, hv⟩ := sub
  obtain ⟨value', hv'⟩ := sub'
  obtain rfl : value = value' := String.toList_inj.mp hsub
  exact ⟨rfl, String.toList_inj.mp hbucket⟩

/-! ## The law -/

/-- No client inserts a run under a scheduled key. -/
def NoScheduledKey (env : Env) (visitors : Nat → Visitor) (_ : CreateState) (ev : CreateEv) : Prop :=
  ∀ i body header drawn, ev = .insert i → visitors i = .client body header drawn →
    ∀ (sub : SubscriptionId) (t : Int),
      (Caller.route body header drawn).runKey ≠ scheduledRunKey env sub.value t

/-- The run is one of this subscription and minute, with its stored request. -/
def OwnRun (env : Env) (stored : SubscriptionId → String) (visitors : Nat → Visitor) (s : CreateState)
    (sub : SubscriptionId) (scheduledAt : Int) (id : Nat) : Prop :=
  (∃ t, visitors id = .occurrence sub t ∧ bucket env t = bucket env scheduledAt) ∧
    ∃ r ∈ s.rows, r.id = id ∧ r.userRequest = stored sub

/-- Every run an occurrence was told the id of is its own: in particular the one
whose report it diffs, or whose report is missing. -/
def OccurrencesOwn (env : Env) (stored : SubscriptionId → String) (visitors : Nat → Visitor)
    (s : CreateState) : Prop :=
  ∀ i sub scheduledAt id created phase, visitors i = .occurrence sub scheduledAt →
    s.pc i = .told id created phase → OwnRun env stored visitors s sub scheduledAt id

/-- A row of a client is not under a scheduled key. -/
def ClientKeys (env : Env) (visitors : Nat → Visitor) (s : CreateState) : Prop :=
  ∀ r ∈ s.rows ++ s.uncommitted, ∀ body header drawn, visitors r.id = .client body header drawn →
    ∀ (sub : SubscriptionId) (t : Int),
      (Caller.route body header drawn).runKey ≠ scheduledRunKey env sub.value t

/-- The calls with a row: those that had one, and the call that inserts. -/
theorem row_ids {callers : Nat → Caller} (hk : Kept callers s) {ev : CreateEv} {r : QueryRun}
    (hs : CreateStep callers s ev s') (hr : r ∈ s'.rows ++ s'.uncommitted) :
    (∃ r₀ ∈ s.rows ++ s.uncommitted, r₀.id = r.id) ∨ ev = .insert r.id := by
  have hset : ∀ {rows : List QueryRun} {id status expected},
      r ∈ setStatus rows id status expected ++ s.uncommitted →
      ∃ r₀ ∈ rows ++ s.uncommitted, r₀.id = r.id := by
    intro rows id status expected h
    rcases List.mem_append.mp h with h | h
    · obtain ⟨r₀, hr₀, hsame⟩ := mem_setStatus h
      exact ⟨r₀, List.mem_append_left _ hr₀, hsame.id.symm⟩
    · exact ⟨r, List.mem_append_right _ h, rfl⟩
  cases hs with
  | insert =>
    rw [goto_rows, ← List.append_assoc] at hr
    rcases List.mem_append.mp hr with hr | hr
    · exact .inl ⟨r, hr, rfl⟩
    · rw [List.mem_singleton.mp hr]
      exact .inr rfl
  | commit hpc =>
    rcases List.mem_append.mp hr with hr | hr
    · rcases List.mem_append.mp hr with hr | hr
      · exact .inl ⟨r, List.mem_append_left _ hr, rfl⟩
      · -- the row that was open
        obtain ⟨r₀, hr₀, hid, -⟩ := hk.open_row hpc
        rw [List.mem_singleton.mp hr]
        exact .inl ⟨r₀, List.mem_append_right _ hr₀, hid⟩
    · exact .inl ⟨r, List.mem_append_right _ (List.mem_filter.mp hr).1, rfl⟩
  | respond =>
    refine .inl ⟨r, ?_, rfl⟩
    unfold CreateState.respond at hr
    split at hr
    · exact hr
    · split at hr
      · split at hr <;> exact hr
      · exact hr
  | makeRetryable | execute | background => exact .inl (hset hr)
  | _ => exact .inl ⟨r, hr, rfl⟩

theorem client_keys_inductive :
    ((creation (callers env stored visitors)).restrict (NoScheduledKey env visitors)).Inductive
      fun s => Kept (callers env stored visitors) s ∧ ClientKeys env visitors s := by
  refine kept_inductive.restrict.and (fun s hs => by
    subst hs
    simp [ClientKeys]) fun s ev s' hk h hs r hr body header drawn hv sub t => ?_
  rcases row_ids hk (create_cases hs.2) hr with ⟨r₀, hr₀, hid⟩ | rfl
  · exact h r₀ hr₀ body header drawn (by rw [hid, hv]) sub t
  · exact hs.1 r.id body header drawn rfl hv sub t

/-- In every run in which no client inserts a run under a scheduled key, an
occurrence is only told runs of its subscription and minute. -/
theorem occurrence_own_run (env : Env) (stored : SubscriptionId → String) (visitors : Nat → Visitor)
    (s : CreateState)
    (hr : ((creation (callers env stored visitors)).restrict (NoScheduledKey env visitors)).Reachable s) :
    OccurrencesOwn env stored visitors s := by
  obtain ⟨hk, hclient⟩ := client_keys_inductive.reachable s hr
  intro i sub scheduledAt id created phase hvisitor hpc
  obtain ⟨⟨r, hmem, rfl, hkey⟩, -⟩ := hk.told i id created phase hpc
  obtain ⟨hown, hrequest⟩ := hk.row r (List.mem_append_left _ hmem)
  have hscheduled : r.runKey = scheduledRunKey env sub.value scheduledAt := by
    rw [hkey, callers, hvisitor]
    rfl
  cases hv : visitors r.id with
  | client body header drawn =>
    rw [callers, hv] at hown
    exact absurd (hown.symm.trans hscheduled)
      (hclient r (List.mem_append_left _ hmem) body header drawn hv sub scheduledAt)
  | occurrence sub' t =>
    rw [callers, hv] at hown hrequest
    obtain ⟨rfl, hbucket⟩ := scheduledRunKey_inj (hown.symm.trans hscheduled)
    exact ⟨⟨t, hv, hbucket⟩, r, hmem, rfl, hrequest⟩

/-! ## Runs -/

def subOne : SubscriptionId := ⟨"sub-1", by decide⟩

def roadWorks (_ : SubscriptionId) : String := "road works"

/-- A client with the given key, and occurrences of one minute. -/
def clientFirst (key : String) (i : Nat) : Visitor :=
  if i = 0 then .client "bridges" (some key) "uuid" else .occurrence subOne 0

/-- The client's run completes, and then an occurrence runs. -/
def clientThenOccurrence : List CreateEv :=
  [.lookup 0, .insert 0, .commit 0, .fetch 0, .respond 0 true, .background 0 (.of .completed) true,
    .lookup 1, .gate 1]

/-- The client's run completes, and an occurrence creates and diffs its own. -/
def bothOwn : List CreateEv :=
  [.lookup 0, .insert 0, .commit 0, .fetch 0, .respond 0 true, .background 0 (.of .completed) true,
    .lookup 1, .insert 1, .commit 1, .execute 1 .completed true, .gate 1]

def foreignKey : String := "subscription:sub-1:1970-01-01T00:00:00+00:00"

def afterForeign : CreateState :=
  (LTS.exec (createStep (callers everyMinute roadWorks (clientFirst foreignKey))) {}
    clientThenOccurrence).get (by decide +kernel)

def afterOwn : CreateState :=
  (LTS.exec (createStep (callers everyMinute roadWorks (clientFirst "key"))) {} bothOwn).get
    (by decide +kernel)

theorem key_not_scheduled (sub : SubscriptionId) (t : Int) :
    "key" ≠ scheduledRunKey everyMinute sub.value t := by
  intro h
  have hlist := congrArg String.toList h
  rw [scheduledRunKey_toList] at hlist
  exact absurd (hlist ▸ List.prefix_append _ _ : "subscription:".toList <+: "key".toList) (by decide)

theorem own_reachable : ((creation (callers everyMinute roadWorks (clientFirst "key"))).restrict
    (NoScheduledKey everyMinute (clientFirst "key"))).Reachable afterOwn := by
  have hrun : (creation (callers everyMinute roadWorks (clientFirst "key"))).Run {} bothOwn afterOwn :=
    LTS.run_of_exec bothOwn (Option.some_get _).symm
  refine ⟨{}, bothOwn, rfl, LTS.run_restrict hrun fun ev _ _ i body header drawn _ hv sub t => ?_⟩
  unfold clientFirst at hv
  split at hv
  · cases hv
    have hkey : (Caller.route "bridges" (some "key") "uuid").runKey = "key" := by decide
    rw [hkey]
    exact key_not_scheduled sub t
  · cases hv

theorem occurrence_own_run_diffed :
    afterOwn.pc 1 = .told 1 true .diffed ∧
      OccurrencesOwn everyMinute roadWorks (clientFirst "key") afterOwn :=
  ⟨by decide +kernel, occurrence_own_run everyMinute roadWorks (clientFirst "key") afterOwn own_reachable⟩

/-- The occurrence diffs the report of the client's run. -/
theorem occurrence_takes_foreign_run :
    (creation (callers everyMinute roadWorks (clientFirst foreignKey))).Reachable afterForeign ∧
      afterForeign.pc 1 = .told 0 false .diffed ∧
      ¬ OccurrencesOwn everyMinute roadWorks (clientFirst foreignKey) afterForeign := by
  have hdiffed : afterForeign.pc 1 = .told 0 false .diffed := by decide +kernel
  refine ⟨LTS.reachable_of_exec clientThenOccurrence (by rfl) _, hdiffed, fun h => ?_⟩
  obtain ⟨⟨t, hv, -⟩, -⟩ := h 1 subOne 0 0 false .diffed rfl hdiffed
  cases hv

end BidScope.L4
