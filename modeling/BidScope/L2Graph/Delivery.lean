import BidScope.L2Graph.Run

/-!
# Only validated reports are delivered

Over every run of the graph, with lost supersteps and resumptions, and every
behaviour of the report model:
* a report handed to the store carries, up to `support_status`, the items of a
  draft that an earlier `validate_report` accepted against the evidence the
  state holds at delivery;
* synthesis commits at most twice;
* a second rejected draft ends the run FAILED with EVIDENCE_INSUFFICIENT, an
  empty report and no call on the report store.

`Inv6` carries the argument: from the accepting superstep to the delivery no
node touches the report or the evidence, and `retry_count` counts both the
rejections and the syntheses that led to them.
-/
namespace BidScope.L2.Delivery

open BidScope.L1

variable {lib : Lib} {p : Ports} {s s' : GState} {n : Node}

/-! ## What a delivery is -/

def unstampClaim (c : ReportClaim) : ReportClaim := { c with supportStatus := none }

def unstamp (i : ReportItem) : ReportItem := { i with claims := i.claims.map unstampClaim }

/-- Stamping verdicts changes nothing but `support_status`. -/
theorem unstamp_applySupportStatus (items : List ReportItem) (vs : List ClaimVerification) :
    (applySupportStatus items vs).map unstamp = items.map unstamp := by
  rw [applySupportStatus, List.map_map]
  refine List.map_congr_left fun item _ => ?_
  simp only [Function.comp_apply, unstamp]
  congr 1
  apply List.ext_getElem <;> simp [unstampClaim]

/-- `v` is a committed `validate_report` that saw draft `d` and evidence `ev`
and found `d` valid (`ok`) or not. -/
structure Judged (lib : Lib) (ok : Bool) (v : Visit) (d : ReportDraft) (ev : EvidenceById) :
    Prop where
  node : v.node = .validateReport
  committed : v.committed = true
  report : v.before.report = some d
  evidence : v.before.evidenceById = ev
  valid : (validateReport lib d.items ev).valid = ok

def Accepted (lib : Lib) (visits : List Visit) (d : ReportDraft) (ev : EvidenceById) : Prop :=
  ∃ w ∈ visits, Judged lib true w d ev

/-- The effect is backed by an acceptance among `earlier`, on the evidence the
delivering node saw. -/
def Backed (lib : Lib) (earlier : List Visit) (v : Visit) : Effect → Prop
  | .persist report ev _ => ev = v.before.evidenceById ∧
      ∃ d, Accepted lib earlier d ev ∧ report.items.map unstamp = d.items.map unstamp
  | .exported _ => True

/-- The store is called with the state's draft, stamped with the state's verdicts. -/
theorem persist_call {s : RunState} {report : Report} {ev : EvidenceById}
    {vs : List ClaimVerification}
    (h : Effect.persist report ev vs ∈ (persistAndDeliver lib p s).effects) :
    ∃ draft, s.report = some draft ∧
      report.items = applySupportStatus draft.items s.claimVerifications ∧
      ev = s.evidenceById ∧ vs = s.claimVerifications := by
  unfold persistAndDeliver at h
  split at h
  · rename_i draft intent hd _
    have hcall : Effect.persist report ev vs = Effect.persist
        (deliveredReport lib p s draft intent) s.evidenceById s.claimVerifications := by
      dsimp only at h
      split at h
      · simpa using h
      · simpa using h
      · split at h <;> simpa using h
    obtain ⟨rfl, rfl, rfl⟩ := Effect.persist.inj hcall
    exact ⟨draft, hd, rfl, rfl, rfl⟩
  · cases h

theorem persist_effects {s : RunState} {e : Effect}
    (h : e ∈ (persistAndDeliver lib p s).effects) : match e with
      | .persist report ev _ => ev = s.evidenceById ∧ ∃ d, s.report = some d ∧
          report.items.map unstamp = d.items.map unstamp
      | .exported _ => True := by
  cases e with
  | exported r => trivial
  | persist report ev vs =>
    obtain ⟨draft, hd, hitems, hev, -⟩ := persist_call h
    exact ⟨hev, draft, hd, by rw [hitems]; exact unstamp_applySupportStatus _ _⟩

/-! ## Counting drafts -/

def isSynthesis (v : Visit) : Bool := v.node = .synthesizeReport && v.committed

/-- Syntheses whose draft entered the state. -/
def syntheses (s : GState) : Nat := s.visits.countP isSynthesis

/-- `v` is a committed `validate_report` that found its draft invalid. -/
def isRejection (lib : Lib) (v : Visit) : Bool :=
  v.node = .validateReport && v.committed &&
    match v.before.report with
    | some d => !(validateReport lib d.items v.before.evidenceById).valid
    | none => false

def rejections (lib : Lib) (s : GState) : Nat := s.visits.countP (isRejection lib)

def Untouched (s : GState) : Prop := ∀ v ∈ s.visits, v.outcome.effects = []

/-- Where a second rejection leaves the run. -/
structure Refused (s : GState) : Prop where
  next : s.cfg.next = none
  stop : s.stop = none
  status : s.cfg.values.status = .failed
  report : s.cfg.values.report = none
  error : s.cfg.values.errors.getLast?.map (·.code) = some .evidenceInsufficient
  untouched : Untouched s

/-- The drafts synthesised so far, by the pending node. -/
def draftsDue (retryCount : Nat) : Option Node → Nat
  | some .validateReport | some .verifySemantics | some .persistAndDeliver | none => retryCount + 1
  | some _ => retryCount

structure Inv6 (lib : Lib) (s : GState) : Prop where
  retry : s.cfg.values.retryCount ≤ MAX_SYNTHESIS_RETRIES
  drafts : syntheses s ≤ draftsDue s.cfg.values.retryCount s.cfg.next
  rejected : (rejections lib s ≤ MAX_SYNTHESIS_RETRIES ∧
    (s.cfg.next.isSome → rejections lib s = s.cfg.values.retryCount)) ∨ Refused s
  accepted : s.cfg.next = some .verifySemantics ∨ s.cfg.next = some .persistAndDeliver →
    ∃ d, s.cfg.values.report = some d ∧ Accepted lib s.visits d s.cfg.values.evidenceById
  untouched : ∀ m, s.cfg.next = some m → m ≠ .persistAndDeliver → Untouched s
  backed : ∀ pre v post, s.visits = pre ++ v :: post → ∀ e ∈ v.outcome.effects, Backed lib pre v e

/-! ## Channels between acceptance and delivery -/

theorem advance_retryCount {u : Update} {c : Config} (h : (nodeFn lib p c.values n).result = .ok u)
    (hn : n ≠ .validateReport) : (advance n c u).values.retryCount = c.values.retryCount := by
  by_cases hs : n = .start
  · subst hs
    cases hi : c.input <;> simp [advance, advanceValues, hi]
  · simp [advance, advanceValues_of_ne hs, (frame h).retry hn]

theorem advance_report {u : Update} {c : Config} (h : (nodeFn lib p c.values n).result = .ok u)
    (h1 : n ≠ .synthesizeReport) (h2 : n ≠ .validateReport) :
    (advance n c u).values.report = c.values.report := by
  by_cases hs : n = .start
  · subst hs
    cases hi : c.input <;> simp [advance, advanceValues, hi]
  · simp [advance, advanceValues_of_ne hs, (frame h).report h1 h2]

theorem advance_evidence {u : Update} {c : Config} (h : (nodeFn lib p c.values n).result = .ok u)
    (hn : n ≠ .verifyEvidence) : (advance n c u).values.evidenceById = c.values.evidenceById := by
  by_cases hs : n = .start
  · subst hs
    cases hi : c.input <;> simp [advance, advanceValues, hi]
  · simp [advance, advanceValues_of_ne hs, (frame h).evidence hn, Dict.merge_empty]

theorem draftsDue_le (r : Nat) (v : RunState) (h1 : n ≠ .synthesizeReport)
    (h2 : n ≠ .validateReport) : draftsDue r (some n) ≤ draftsDue r (successor v n) := by
  cases n with
  | synthesizeReport => exact absurd rfl h1
  | validateReport => exact absurd rfl h2
  | validateIntent => simp only [successor, routeAfterValidate]; split <;> simp [draftsDue]
  | confirmIntent => simp only [successor, routeAfterConfirm]; split <;> simp [draftsDue]
  | _ => simp [successor, draftsDue]

/-- Only `validate_report` and `verify_semantics` lead towards delivery. -/
theorem successor_delivery (v : RunState) (h : n ≠ .validateReport)
    (hs : successor v n = some .verifySemantics ∨ successor v n = some .persistAndDeliver) :
    n = .verifySemantics := by
  cases n with
  | validateReport => exact absurd rfl h
  | validateIntent => simp only [successor, routeAfterValidate] at hs; split at hs <;> simp_all
  | confirmIntent => simp only [successor, routeAfterConfirm] at hs; split at hs <;> simp_all
  | verifySemantics => rfl
  | _ => simp [successor] at hs

theorem Accepted.mono {visits visits' : List Visit} {d : ReportDraft} {ev : EvidenceById}
    (h : Accepted lib visits d ev) (hsub : ∀ v ∈ visits, v ∈ visits') :
    Accepted lib visits' d ev := by
  obtain ⟨w, hw, hj⟩ := h
  exact ⟨w, hsub w hw, hj⟩

/-! ## The invariant -/

/-- The effects of the pending node's execution are backed by the visits so
far. -/
theorem backed_pending (hI : Inv6 lib s) (hn : s.cfg.next = some n) (committed : Bool) (e : Effect)
    (he : e ∈ (nodeFn lib p s.cfg.values n).effects) :
    Backed lib s.visits ⟨n, s.cfg.values, nodeFn lib p s.cfg.values n, committed⟩ e := by
  by_cases hp : n = .persistAndDeliver
  · subst hp
    have hb := persist_effects he
    cases e with
    | exported r => trivial
    | persist report ev vs =>
      obtain ⟨rfl, d, hd, hitems⟩ := hb
      obtain ⟨d', hd', hacc⟩ := hI.accepted (Or.inr hn)
      rw [hd] at hd'
      cases hd'
      exact ⟨rfl, d, hacc, hitems⟩
  · rw [effects_eq_nil hp] at he
    cases he

theorem backed_snoc (hI : Inv6 lib s) (hn : s.cfg.next = some n) {committed : Bool}
    (hv : s'.visits =
      s.visits ++ [⟨n, s.cfg.values, nodeFn lib p s.cfg.values n, committed⟩]) :
    ∀ pre v post, s'.visits = pre ++ v :: post → ∀ e ∈ v.outcome.effects, Backed lib pre v e := by
  intro pre v post hvs e he
  rw [hv] at hvs
  rcases snoc_split hvs with ⟨-, rfl, rfl⟩ | ⟨post', hp⟩
  · exact backed_pending hI hn committed e he
  · exact hI.backed pre v post' hp e he

theorem untouched_snoc (hI : Inv6 lib s) (hn : s.cfg.next = some n) {committed : Bool}
    (hp : n ≠ .persistAndDeliver) (hv : s'.visits =
      s.visits ++ [⟨n, s.cfg.values, nodeFn lib p s.cfg.values n, committed⟩]) :
    Untouched s' := by
  intro v hv'
  rw [hv] at hv'
  rcases List.mem_append.mp hv' with hv' | hv'
  · exact hI.untouched n hn hp v hv'
  · rw [List.mem_singleton.mp hv']
    exact effects_eq_nil hp

/-- A node execution whose superstep does not commit. -/
theorem inv6_uncommitted (hI : Inv6 lib s) (hn : s.cfg.next = some n) (hc : s'.cfg = s.cfg)
    (hv : s'.visits =
      s.visits ++ [⟨n, s.cfg.values, nodeFn lib p s.cfg.values n, false⟩]) : Inv6 lib s' := by
  have hs : syntheses s' = syntheses s := by simp [syntheses, hv, isSynthesis]
  have hr : rejections lib s' = rejections lib s := by simp [rejections, hv, isRejection]
  refine ⟨by rw [hc]; exact hI.retry, by rw [hc, hs]; exact hI.drafts, ?_, ?_, ?_,
    backed_snoc hI hn hv⟩
  · rcases hI.rejected with h | h
    · left
      rw [hr, hc]
      exact h
    · rw [h.next] at hn
      cases hn
  · rw [hc]
    intro h
    obtain ⟨d, hd, hacc⟩ := hI.accepted h
    exact ⟨d, hd, hacc.mono fun v hv' => by rw [hv]; exact List.mem_append_left _ hv'⟩
  · rw [hc, hn]
    intro m hnode hm
    cases hnode
    exact untouched_snoc hI hn hm hv

/-- A committed superstep of a node outside the report loop. -/
theorem inv6_plain (hI : Inv6 lib s) (hn : s.cfg.next = some n)
    (h1 : n ≠ .synthesizeReport) (h2 : n ≠ .validateReport) {u : Update}
    (hu : (nodeFn lib p s.cfg.values n).result = .ok u) (hc : s'.cfg = advance n s.cfg u)
    (hv : s'.visits =
      s.visits ++ [⟨n, s.cfg.values, nodeFn lib p s.cfg.values n, true⟩]) : Inv6 lib s' := by
  have hretry : s'.cfg.values.retryCount = s.cfg.values.retryCount := by
    rw [hc]; exact advance_retryCount hu h2
  have hs : syntheses s' = syntheses s := by simp [syntheses, hv, isSynthesis, h1]
  have hr : rejections lib s' = rejections lib s := by simp [rejections, hv, isRejection, h2]
  refine ⟨by rw [hretry]; exact hI.retry, ?_, ?_, ?_, ?_, backed_snoc hI hn hv⟩
  · rw [hs, hretry, hc]
    refine Nat.le_trans hI.drafts ?_
    rw [hn]
    exact draftsDue_le _ _ h1 h2
  · rcases hI.rejected with h | h
    · left
      rw [hr, hretry]
      exact ⟨h.1, fun _ => h.2 (by rw [hn]; rfl)⟩
    · rw [h.next] at hn
      cases hn
  · intro h
    have hsem : n = .verifySemantics := by
      rw [hc] at h
      exact successor_delivery _ h2 h
    subst hsem
    obtain ⟨d, hd, hacc⟩ := hI.accepted (Or.inl hn)
    rw [hc, advance_report hu h1 h2, advance_evidence hu (by decide)]
    exact ⟨d, hd, hacc.mono fun v hv' => by rw [hv]; exact List.mem_append_left _ hv'⟩
  · intro m hm hmp
    refine untouched_snoc hI hn ?_ hv
    intro heq
    subst heq
    rw [hc] at hm
    cases hm

/-- A committed synthesis: one more draft, to be judged next. -/
theorem inv6_synthesis (hI : Inv6 lib s) (hn : s.cfg.next = some .synthesizeReport) {u : Update}
    (hu : (nodeFn lib p s.cfg.values .synthesizeReport).result = .ok u)
    (hc : s'.cfg = advance .synthesizeReport s.cfg u) (hv : s'.visits = s.visits ++
      [⟨.synthesizeReport, s.cfg.values, nodeFn lib p s.cfg.values .synthesizeReport, true⟩]) :
    Inv6 lib s' := by
  have hretry : s'.cfg.values.retryCount = s.cfg.values.retryCount := by
    rw [hc]; exact advance_retryCount hu (by decide)
  have hnext : s'.cfg.next = some .validateReport := by rw [hc]; rfl
  have hs : syntheses s' = syntheses s + 1 := by simp [syntheses, hv, isSynthesis]
  have hr : rejections lib s' = rejections lib s := by simp [rejections, hv, isRejection]
  refine ⟨by rw [hretry]; exact hI.retry, ?_, ?_, ?_, ?_, backed_snoc hI hn hv⟩
  · have hd := hI.drafts
    rw [hn] at hd
    rw [hs, hretry, hnext]
    simp only [draftsDue] at hd ⊢
    omega
  · rcases hI.rejected with h | h
    · left
      rw [hr, hretry]
      exact ⟨h.1, fun _ => h.2 (by rw [hn]; rfl)⟩
    · rw [h.next] at hn
      cases hn
  · rw [hnext]
    rintro (h | h) <;> cases h
  · intro m _ _
    exact untouched_snoc hI hn (by decide) hv

/-- A committed judgement: accepted, sent back once, or refused. -/
theorem inv6_judgement (hI : Inv6 lib s) (hn : s.cfg.next = some .validateReport) {u : Update}
    (hu : (nodeFn lib p s.cfg.values .validateReport).result = .ok u)
    (hc : s'.cfg = advance .validateReport s.cfg u) (hst : s'.stop = none)
    (hv : s'.visits = s.visits ++
      [⟨.validateReport, s.cfg.values, nodeFn lib p s.cfg.values .validateReport, true⟩]) :
    Inv6 lib s' := by
  have hs : syntheses s' = syntheses s := by simp [syntheses, hv, isSynthesis]
  have hdrafts := hI.drafts
  rw [hn] at hdrafts
  simp only [draftsDue] at hdrafts
  have hrej : rejections lib s = s.cfg.values.retryCount := by
    rcases hI.rejected with h | h
    · exact h.2 (by rw [hn]; rfl)
    · rw [h.next] at hn
      cases hn
  have hunt : Untouched s' := untouched_snoc hI hn (by decide) hv
  obtain ⟨d, hd, ⟨hval, hue⟩ | ⟨hval, hlt, hue⟩ | ⟨hval, hlt, err, hcode, hue⟩⟩ :=
    validateReportNode_cases hu
  · have hnext : s'.cfg.next = some .verifySemantics := by rw [hc, hue]; rfl
    have hretry : s'.cfg.values.retryCount = s.cfg.values.retryCount := by rw [hc, hue]; rfl
    have hr : rejections lib s' = rejections lib s := by
      simp [rejections, hv, isRejection, hd, hval]
    refine ⟨by rw [hretry]; exact hI.retry, by rw [hs, hretry, hnext]; exact hdrafts, ?_, ?_,
      fun _ _ _ => hunt, backed_snoc hI hn hv⟩
    · left
      rw [hr, hretry, hrej]
      exact ⟨hI.retry, fun _ => rfl⟩
    · intro _
      refine ⟨d, by rw [hc, hue]; exact hd, ?_⟩
      have hev : s'.cfg.values.evidenceById = s.cfg.values.evidenceById := by
        rw [hc]; exact advance_evidence hu (by decide)
      rw [hev]
      exact ⟨_, by rw [hv]; exact List.mem_append_right _ (List.mem_singleton.mpr rfl),
        ⟨rfl, rfl, hd, rfl, hval⟩⟩
  · have hnext : s'.cfg.next = some .synthesizeReport := by rw [hc, hue]; rfl
    have hretry : s'.cfg.values.retryCount = s.cfg.values.retryCount + 1 := by rw [hc, hue]; rfl
    have hr : rejections lib s' = rejections lib s + 1 := by
      simp [rejections, hv, isRejection, hd, hval]
    simp only [MAX_SYNTHESIS_RETRIES] at hlt
    refine ⟨by rw [hretry]; simp only [MAX_SYNTHESIS_RETRIES]; omega,
      by rw [hs, hretry, hnext]; exact hdrafts, ?_, ?_, fun _ _ _ => hunt, backed_snoc hI hn hv⟩
    · left
      rw [hr, hretry, hrej]
      exact ⟨by simp only [MAX_SYNTHESIS_RETRIES]; omega, fun _ => rfl⟩
    · rw [hnext]
      rintro (h | h) <;> cases h
  · have hnext : s'.cfg.next = none := by rw [hc, hue]; rfl
    have hretry : s'.cfg.values.retryCount = s.cfg.values.retryCount := by rw [hc, hue]; rfl
    refine ⟨by rw [hretry]; exact hI.retry, by rw [hs, hretry, hnext]; exact hdrafts, ?_, ?_,
      fun _ _ _ => hunt, backed_snoc hI hn hv⟩
    · right
      refine ⟨hnext, hst, by rw [hc, hue]; rfl, by rw [hc, hue]; rfl, ?_, hunt⟩
      rw [hc, hue]
      simp [advance, advanceValues, hcode]
    · rw [hnext]
      rintro (h | h) <;> cases h

theorem inv6_begin (input : Input) : Inv6 lib (begin input) where
  retry := Nat.zero_le _
  drafts := Nat.le_refl _
  rejected := Or.inl ⟨Nat.zero_le _, fun _ => rfl⟩
  accepted h := by rcases h with h | h <;> cases h
  untouched _ _ _ v hv := by cases hv
  backed pre v post hv := by simp [begin] at hv

theorem inv6_inductive : (lts lib).Inductive (Inv6 lib) where
  init := by
    intro s hinit
    obtain ⟨input, rfl⟩ := hinit
    exact inv6_begin input
  step := by
    intro s ev s' hI hs
    rcases step_cases hs with ⟨p, n, -, -, hn, rfl⟩ | ⟨p, n, -, -, hn, rfl⟩ | ⟨-, -, hn, rfl⟩
    · rcases visit_cases lib p n s with ⟨u, hu, hc, hst, hv⟩ | ⟨e, -, hc, -, hv⟩
      · by_cases h1 : n = .synthesizeReport
        · subst h1
          exact inv6_synthesis hI hn hu hc hv
        · by_cases h2 : n = .validateReport
          · subst h2
            exact inv6_judgement hI hn hu hc hst hv
          · exact inv6_plain hI hn h1 h2 hu hc hv
      · exact inv6_uncommitted hI hn hc hv
    · exact inv6_uncommitted hI hn rfl rfl
    · obtain ⟨n, hn⟩ := Option.isSome_iff_exists.mp hn
      refine ⟨hI.retry, hI.drafts, ?_, hI.accepted, hI.untouched, hI.backed⟩
      rcases hI.rejected with h | h
      · exact Or.inl h
      · rw [h.next] at hn
        cases hn

/-- **No unvalidated report is delivered**, at most two syntheses commit, and a
second rejection ends the run with nothing persisted or exported. -/
theorem no_unvalidated_delivery (lib : Lib) (s : GState) (hr : (lts lib).Reachable s) :
    (∀ pre v post, s.visits = pre ++ v :: post → ∀ e ∈ v.outcome.effects, Backed lib pre v e) ∧
      syntheses s ≤ 2 ∧ (2 ≤ rejections lib s → Refused s) := by
  have hI := inv6_inductive.reachable s hr
  refine ⟨hI.backed, ?_, ?_⟩
  · have hd := hI.drafts
    have hretry := hI.retry
    have hdue : draftsDue s.cfg.values.retryCount s.cfg.next ≤ s.cfg.values.retryCount + 1 := by
      unfold draftsDue
      split <;> omega
    simp only [MAX_SYNTHESIS_RETRIES] at hretry
    omega
  · intro h2
    rcases hI.rejected with h | h
    · simp only [MAX_SYNTHESIS_RETRIES] at h
      omega
    · exact h

/-- A delivered run, and the law on it. -/
theorem no_unvalidated_delivery_demo :
    let s := runGraph asciiLib (fun _ => demoPorts) false ⟨"road works", "run-1", some 0⟩
    s.cfg.values.status = .completed ∧
      (∀ pre v post, s.visits = pre ++ v :: post →
        ∀ e ∈ v.outcome.effects, Backed asciiLib pre v e) ∧
      syntheses s ≤ 2 ∧ (2 ≤ rejections asciiLib s → Refused s) :=
  ⟨by decide +kernel, no_unvalidated_delivery asciiLib _
    (runGraph_reachable asciiLib (fun _ => demoPorts) false ⟨"road works", "run-1", some 0⟩)⟩

end BidScope.L2.Delivery
