import BidScope.L2Graph.Run

/-!
# FAILED is absorbing, except after `parse_intent`

A run in which an update sets FAILED ends there, FAILED, with that update's
error last; no node reads through a missing field; and the run ends within the
recursion limit. For the undisturbed run of a request all of it holds exactly
when one of the three calls of the intent model returns an intent
(`failed_absorbing_iff`): the edge from `parse_intent` to `validate_intent` is
unconditional, so after three failures `validate_intent` still runs and reads
through the missing intent (`parse_failure_raises`).

* `failed_ends`: every other failing node has no successor.
-/
namespace BidScope.L2

open BidScope.L1

variable {lib : Lib} {p : Ports} {s s' : GState} {n : Node}

/-! ## Failing updates -/

/-- A failing update carries an error, and after it no node is pending, unless
it is `parse_intent`'s. -/
theorem failed_ends {u : Update} {c : Config} (h : (nodeFn lib p c.values n).result = .ok u)
    (hf : u.status = some .failed) :
    u.errors ≠ [] ∧ (n ≠ .parseIntent → (advance n c u).next = none) := by
  cases n with
  | start | pause => cases h; cases hf
  | parseIntent =>
    rcases parseIntent_cases h with ⟨_, _, -, rfl⟩ | ⟨_, _, -, rfl⟩
    · cases hf
    · exact ⟨List.cons_ne_nil _ _, fun hne => absurd rfl hne⟩
  | validateIntent =>
    obtain ⟨_, -, ⟨hne, rfl⟩ | ⟨-, rfl⟩⟩ := validateIntent_cases h
    · exact ⟨hne, fun _ => rfl⟩
    · cases hf
  | confirmIntent =>
    obtain ⟨_, -, ⟨-, rfl⟩ | ⟨-, rfl⟩⟩ := confirmIntent_cases h
    · cases hf
    · cases hf
  | buildRetrievalPlan => obtain ⟨_, _, -, rfl⟩ := buildRetrievalPlan_cases h; cases hf
  | retrieveCandidates => obtain ⟨_, _, _, rfl⟩ := retrieveCandidates_cases h; cases hf
  | resolveDuplicates => obtain ⟨_, rfl⟩ := resolveDuplicates_cases h; cases hf
  | verifyEvidence => obtain ⟨_, _, rfl⟩ := verifyEvidence_cases h; cases hf
  | synthesizeReport => obtain ⟨_, rfl⟩ := synthesizeReport_cases h; cases hf
  | validateReport =>
    obtain ⟨_, -, ⟨-, rfl⟩ | ⟨-, -, rfl⟩ | ⟨-, -, _, -, rfl⟩⟩ := validateReportNode_cases h
    · cases hf
    · cases hf
    · exact ⟨List.cons_ne_nil _ _, fun _ => rfl⟩
  | verifySemantics => obtain ⟨_, _, _, rfl⟩ := verifySemantics_cases h; cases hf
  | persistAndDeliver =>
    obtain ⟨_, _, _, hst, rfl⟩ := persistAndDeliver_cases h
    rcases hst with rfl | ⟨rfl, hne⟩
    · cases hf
    · exact ⟨hne, fun _ => rfl⟩

/-- One of the calls `parse_intent` makes of the intent model returns. -/
def IntentReturned (p : Ports) (request : String) : Prop :=
  ∃ i ≤ MAX_MODEL_RETRIES, ∃ r, p.parse i request = .ok r

theorem parseAttempts_ok_iff (p : Ports) (request : String) :
    ∀ (left attempt : Nat) (e : String),
      (∃ r, parseAttempts p request left attempt e = .ok r) ↔
        ∃ i, attempt ≤ i ∧ i < attempt + left ∧ ∃ r, p.parse i request = .ok r
  | 0, attempt, e => by
    simp only [parseAttempts, reduceCtorEq, exists_false, false_iff, not_exists, not_and]
    intro i h1 h2
    omega
  | left + 1, attempt, e => by
    cases h : p.parse attempt request with
    | ok r =>
      simp only [parseAttempts, h]
      exact ⟨fun _ => ⟨attempt, Nat.le_refl _, by omega, r, h⟩, fun _ => ⟨r, rfl⟩⟩
    | error e' =>
      simp only [parseAttempts, h]
      rw [parseAttempts_ok_iff p request left (attempt + 1) e']
      constructor
      · intro hret
        obtain ⟨i, h1, h2, hr⟩ := hret
        exact ⟨i, by omega, by omega, hr⟩
      · intro hret
        obtain ⟨i, h1, h2, r, hr⟩ := hret
        have hne : i ≠ attempt := by
          intro heq
          subst heq
          rw [h] at hr
          cases hr
        exact ⟨i, by omega, by omega, r, hr⟩

theorem intentReturned_iff (p : Ports) (request : String) :
    IntentReturned p request ↔
      ∃ r, parseAttempts p request (MAX_MODEL_RETRIES + 1) 0 "None" = .ok r := by
  rw [parseAttempts_ok_iff]
  constructor
  · intro hret
    obtain ⟨i, hi, hr⟩ := hret
    exact ⟨i, Nat.zero_le _, by omega, hr⟩
  · intro hret
    obtain ⟨i, -, hi, hr⟩ := hret
    exact ⟨i, by omega, hr⟩

/-! ## Absorption over arbitrary runs -/

/-- `v` is a committed superstep whose update set FAILED. -/
def Visit.failedWith (v : Visit) (u : Update) : Prop :=
  v.committed = true ∧ v.outcome.result = .ok u ∧ u.status = some .failed

/-- The run stands where its last update failed it. -/
structure EndedFailed (s : GState) (u : Update) : Prop where
  next : s.cfg.next = none
  stop : s.stop = none
  status : s.cfg.values.status = .failed
  errors : u.errors ≠ []
  last : s.cfg.values.errors.getLast? = u.errors.getLast?

structure Inv (s : GState) : Prop where
  ready : ∀ n, s.cfg.next = some n → Ready s.cfg.values n
  noMissing : ∀ v ∈ s.visits, ∀ f, v.outcome.result ≠ .error (.missing f)
  failed : ∀ pre v post u, s.visits = pre ++ v :: post → v.failedWith u →
    post = [] ∧ EndedFailed s u

/-- A pending node means no superstep has failed the run. -/
theorem Inv.not_failed (hI : Inv s) (hn : s.cfg.next = some n) {pre post : List Visit} {v : Visit}
    {u : Update} (hv : s.visits = pre ++ v :: post) : ¬ v.failedWith u := by
  intro hf
  have he := (hI.failed pre v post u hv hf).2.next
  rw [hn] at he
  cases he

theorem inv_visit (hI : Inv s) (hn : s.cfg.next = some n)
    (hp : n = .parseIntent → IntentReturned p s.cfg.values.userRequest) :
    Inv (visit lib p n s) := by
  have hmiss : ∀ v ∈ s.visits ++ [⟨n, s.cfg.values, nodeFn lib p s.cfg.values n, true⟩],
      ∀ f, v.outcome.result ≠ .error (.missing f) := by
    intro v hv f
    rcases List.mem_append.mp hv with hv | hv
    · exact hI.noMissing v hv f
    · rw [List.mem_singleton.mp hv]
      exact not_missing (hI.ready n hn) f
  have hparse : ∀ u, (nodeFn lib p s.cfg.values n).result = .ok u → n = .parseIntent →
      u.status ≠ some .failed := by
    intro u hu heq
    subst heq
    obtain ⟨r, hr⟩ := (intentReturned_iff _ _).mp (hp rfl)
    rcases parseIntent_cases hu with ⟨_, _, -, rfl⟩ | ⟨_, _, he, -⟩
    · simp
    · rw [hr] at he
      cases he
  rcases visit_cases lib p n s with ⟨u, hu, hc, hst, hv⟩ | ⟨e, he, hc, hst, hv⟩
  · refine ⟨?_, by rw [hv]; exact hmiss, ?_⟩
    · rw [hc]
      intro m hm
      exact ready_advance (hI.ready n hn) hu (hparse u hu) hm
    · intro pre v post u' hvs hf
      rw [hv] at hvs
      rcases snoc_split hvs with ⟨rfl, rfl, -⟩ | ⟨post', hp'⟩
      · refine ⟨rfl, ?_⟩
        obtain ⟨-, hu', hfail⟩ := hf
        rw [hu] at hu'
        cases hu'
        have hne : n ≠ .parseIntent := fun h => hparse u hu h hfail
        obtain ⟨herr, hend⟩ := failed_ends hu hfail
        have hstart : n ≠ .start := by rintro rfl; cases hu; cases hfail
        have hpause : n ≠ .pause := by rintro rfl; cases hu; cases hfail
        refine ⟨by rw [hc]; exact hend hne, by rw [hst, if_neg hpause], ?_, herr, ?_⟩
        · rw [hc]
          simp [advance, advanceValues_of_ne hstart, hfail]
        · rw [hc]
          simp [advance, advanceValues_of_ne hstart, List.getLast?_append_of_ne_nil _ herr]
      · exact absurd hf (hI.not_failed hn hp')
  · refine ⟨by rw [hc]; exact hI.ready, ?_, ?_⟩
    · rw [hv]
      intro v hv' f
      rcases List.mem_append.mp hv' with hv' | hv'
      · exact hI.noMissing v hv' f
      · rw [List.mem_singleton.mp hv']
        exact not_missing (hI.ready n hn) f
    · intro pre v post u' hvs hf
      rw [hv] at hvs
      rcases snoc_split hvs with ⟨-, rfl, -⟩ | ⟨post', hp'⟩
      · exact absurd hf.1 (by simp)
      · exact absurd hf (hI.not_failed hn hp')

theorem inv_begin (input : Input) : Inv (begin input) where
  ready n hn := by cases hn; trivial
  noMissing v hv := by cases hv
  failed pre v post u hv := by simp [begin] at hv

theorem inv_unstop (hI : Inv s) (hn : s.cfg.next = some n) : Inv { s with stop := none } where
  ready := hI.ready
  noMissing := hI.noMissing
  failed _ _ _ _ hv hf := absurd hf (hI.not_failed hn hv)

/-! ## The undisturbed run -/

/-- FAILED is absorbing in a run that came to its end in `s`. -/
structure FailedAbsorbing (s : GState) : Prop where
  failed : ∀ pre v post u, s.visits = pre ++ v :: post → v.failedWith u →
    post = [] ∧ EndedFailed s u
  noMissing : ∀ v ∈ s.visits, ∀ f, v.outcome.result ≠ .error (.missing f)
  ended : Ended s
  bounded : s.visits.length ≤ recursionLimit

/-- `Inv`, and where in the run `start` and `parse_intent` stand. -/
structure AtStep (input : Input) (k : Nat) (s : GState) : Prop where
  inv : Inv s
  start : s.cfg.next = some .start → k = 0 ∧ s.cfg.input = some input
  parse : s.cfg.next = some .parseIntent → k = 1 ∧ s.cfg.values.userRequest = input.userRequest

theorem parseIntent_returns (lib : Lib) (p : Ports) (s : RunState) :
    ∃ u, (parseIntent lib p s).result = .ok u := by
  unfold parseIntent
  split
  · exact ⟨_, rfl⟩
  · exact ⟨_, rfl⟩

/-- Only `start` leads to `parse_intent`, and nothing leads to `start`. -/
theorem successor_intake (v : RunState) (n : Node) :
    successor v n ≠ some .start ∧ (successor v n = some .parseIntent → n = .start) := by
  cases n with
  | validateIntent => simp only [successor, routeAfterValidate]; split <;> simp
  | confirmIntent => simp only [successor, routeAfterConfirm]; split <;> simp
  | validateReport =>
    simp only [successor, routeAfterValidateReport]
    split
    · simp
    · split <;> simp
  | _ => simp [successor]

theorem atStep_visit {ps : Nat → Ports} {input : Input} {k : Nat}
    (hp : IntentReturned (ps 1) input.userRequest) (h : AtStep input k s)
    (hn : s.cfg.next = some n) : AtStep input (k + 1) (visit lib (ps k) n s) := by
  refine ⟨inv_visit h.inv hn ?_, ?_, ?_⟩
  · intro heq
    subst heq
    obtain ⟨hk, hreq⟩ := h.parse hn
    rw [hk, hreq]
    exact hp
  · intro hst
    rcases visit_cases lib (ps k) n s with ⟨u, -, hc, -, -⟩ | ⟨e, he, hc, -, -⟩
    · rw [hc] at hst
      exact absurd hst (successor_intake _ n).1
    · rw [hc, hn] at hst
      cases hst
      cases he
  · intro hst
    rcases visit_cases lib (ps k) n s with ⟨u, -, hc, -, -⟩ | ⟨e, he, hc, -, -⟩
    · rw [hc] at hst
      obtain rfl := (successor_intake _ n).2 hst
      obtain ⟨hk, hin⟩ := h.start hn
      refine ⟨by omega, ?_⟩
      rw [hc]
      simp [advance, advanceValues, hin, RunState.applyInput]
    · rw [hc, hn] at hst
      cases hst
      obtain ⟨u, hu⟩ := parseIntent_returns lib (ps k) s.cfg.values
      rw [show nodeFn lib (ps k) s.cfg.values .parseIntent = parseIntent lib (ps k) s.cfg.values
        from rfl, hu] at he
      cases he

theorem drive_visit (lib : Lib) (ps : Nat → Ports) (resume : Bool) (fuel k : Nat) {s : GState}
    {n : Node} (hn : s.cfg.next = some n) (hs : s.stop = none) :
    drive lib ps resume (fuel + 1) k s =
      drive lib ps resume fuel (k + 1) (visit lib (ps k) n s) := by
  simp only [drive, hn, hs]

/-- After three failed model calls `validate_intent` reads through the missing
intent. -/
theorem parse_failure_raises (lib : Lib) (ps : Nat → Ports) (resume : Bool) (input : Input)
    (h : ¬ IntentReturned (ps 1) input.userRequest) :
    ∃ v ∈ (runGraph lib ps resume input).visits,
      v.outcome.result = .error (.missing "search_intent") := by
  let s₁ := visit lib (ps 0) .start (begin input)
  let s₂ := visit lib (ps 1) .parseIntent s₁
  let s₃ := visit lib (ps 2) .validateIntent s₂
  -- the second superstep fails the run, and its edge still leads on
  obtain ⟨u, hu⟩ := parseIntent_returns lib (ps 1) s₁.cfg.values
  rcases parseIntent_cases hu with ⟨intent, usage, ha, -⟩ | ⟨e, err, -, hue⟩
  · exact absurd ((intentReturned_iff _ _).mpr ⟨_, ha⟩) h
  have h₂ : s₂.cfg = advance .parseIntent s₁.cfg u ∧ s₂.stop = none := by
    rcases visit_cases lib (ps 1) .parseIntent s₁ with ⟨u', hu', hc, hst, -⟩ | ⟨e, he, -⟩
    · rw [show nodeFn lib (ps 1) s₁.cfg.values .parseIntent = parseIntent lib (ps 1) s₁.cfg.values
        from rfl, hu] at hu'
      cases hu'
      exact ⟨hc, hst⟩
    · rw [show nodeFn lib (ps 1) s₁.cfg.values .parseIntent = parseIntent lib (ps 1) s₁.cfg.values
        from rfl, hu] at he
      cases he
  have hnone : s₂.cfg.values.searchIntent = none := by rw [h₂.1, hue]; rfl
  have hr : (nodeFn lib (ps 2) s₂.cfg.values .validateIntent).result =
      .error (.missing "search_intent") := by
    simp [nodeFn, validateIntent, hnone, reading, NodeResult.raise]
  -- the third raises, which ends the run
  rcases visit_cases lib (ps 2) .validateIntent s₂ with ⟨u', hu', -⟩ | ⟨e', -, -, hst, hv⟩
  · rw [hr] at hu'
    cases hu'
  · have hrun : runGraph lib ps resume input = s₃ := by
      have hn : s₂.cfg.next = some .validateIntent := by rw [h₂.1]; rfl
      calc runGraph lib ps resume input
          = drive lib ps resume 15 1 s₁ := drive_visit lib ps resume 15 0 rfl rfl
        _ = drive lib ps resume 14 2 s₂ := drive_visit lib ps resume 14 1 rfl rfl
        _ = drive lib ps resume 13 3 s₃ := drive_visit lib ps resume 13 2 hn h₂.2
        _ = s₃ := drive_raised ps resume 13 3 s₃ hst
    refine ⟨⟨.validateIntent, s₂.cfg.values, _, false⟩, ?_, hr⟩
    rw [hrun, hv]
    exact List.mem_append_right _ (List.mem_singleton.mpr rfl)

/-- **FAILED is absorbing exactly when the intent model answers.** -/
theorem failed_absorbing_iff (lib : Lib) (ps : Nat → Ports) (resume : Bool) (input : Input) :
    FailedAbsorbing (runGraph lib ps resume input) ↔ IntentReturned (ps 1) input.userRequest := by
  constructor
  · intro h
    by_contra hp
    obtain ⟨v, hv, hr⟩ := parse_failure_raises lib ps resume input hp
    exact h.noMissing v hv _ hr
  · intro hp
    obtain ⟨hend, hlen⟩ := runGraph_ended lib ps resume input
    have h0 : AtStep input 0 (begin input) :=
      ⟨inv_begin input, fun _ => ⟨rfl, rfl⟩, fun hn => by cases hn⟩
    obtain ⟨k, hk⟩ := drive_invariant lib ps resume
      (fun k s n h hn => atStep_visit hp h hn)
      (fun k s n h hn => ⟨inv_unstop h.inv hn, h.start, h.parse⟩) recursionLimit 0 (begin input) h0
    exact ⟨hk.inv.failed, hk.inv.noMissing, hend, hlen⟩

/-- A model provider that is down. -/
def downPorts : Ports where
  now _ := ⟨0, 0⟩
  parse _ _ := .error "connection refused"
  search _ _ := .ok ⟨[], []⟩
  loadNoticeViews _ := .ok .empty
  classify _ _ _ := .error "connection refused"
  synthesize _ _ := .error "connection refused"
  semanticVerifier := none
  persistOnlineReport report _ _ := .ok ⟨"report", report, none⟩
  exportDocx _ := .ok ()

/-- With the provider down, the update of `parse_intent` fails the run, and
`validate_intent` runs after it. -/
theorem down_not_absorbed :
    ¬ FailedAbsorbing (runGraph asciiLib (fun _ => downPorts) false ⟨"road works", "run-1", some 0⟩) := by
  have hdown : ¬ IntentReturned downPorts "road works" := by
    intro hret
    obtain ⟨i, -, r, hr⟩ := hret
    cases hr
  obtain ⟨v, hv, hr⟩ := parse_failure_raises asciiLib (fun _ => downPorts) false
    ⟨"road works", "run-1", some 0⟩ hdown
  exact fun h => h.noMissing v hv _ hr

end BidScope.L2
