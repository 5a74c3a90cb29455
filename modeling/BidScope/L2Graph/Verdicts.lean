import BidScope.Core.Ledger
import BidScope.L2Graph.Delivery

/-!
# Verdicts and their keys

`verify_semantics` asks the verifier about the claims of a draft in order and
files each verdict under the claim's notice id and ordinal; whoever reads them
later has only this key.

* `verdicts_eq`: what is filed is what was answered.
* `filed_iff`: every claim's key leads to the claim's own answer exactly when
  claims with one key got the same answer.
* `persisted_verdicts`: over every run of the graph, the report store is called
  with an accepted draft stamped with its own verdicts.
-/
namespace BidScope.L2

open BidScope.L1

abbrev Verifier :=
  Nat → ReportClaim → List NoticeEvidence → List String → Except String ClaimSupportVerification

/-- A claim of a draft and the verdict the verifier gave for it: `none` where
it had no evidence to be asked about, or raised. -/
structure Answer where
  noticeId : String
  ordinal : Nat
  claim : ReportClaim
  verdict : Option ClaimSupportVerification
  deriving DecidableEq

def Answer.key (a : Answer) : String × Nat := (a.noticeId, a.ordinal)

def Answer.filed (a : Answer) : Option ClaimVerification :=
  a.verdict.map fun verdict => ⟨a.noticeId, a.ordinal, verdict⟩

def verdictKey (e : ClaimVerification) : String × Nat := (e.noticeId, e.claimIndex)

variable (verify : Verifier) (evidenceById : EvidenceById)

/-- The verifier's answers from call `k` on. -/
def answersFrom : Nat → List (ReportItem × Nat × ReportClaim) → List Answer
  | _, [] => []
  | k, (item, ordinal, claim) :: rest =>
    let evidence := evidenceForClaim claim item evidenceById
    if evidence = [] then ⟨item.noticeId, ordinal, claim, none⟩ :: answersFrom k rest
    else
      ⟨item.noticeId, ordinal, claim, (verify k claim evidence claim.citationIds).toOption⟩ ::
        answersFrom (k + 1) rest

def answers (items : List ReportItem) : List Answer :=
  answersFrom verify evidenceById 0 (indexedClaims items)

/-- The double loop of `verify_semantics`. -/
def verdicts (items : List ReportItem) : List ClaimVerification :=
  ((indexedClaims items).foldl (verifyClaim verify evidenceById) (0, [], false)).2.1

/-- Claims with one key got the same answer. -/
def Unambiguous (as : List Answer) : Prop :=
  ∀ a ∈ as, ∀ b ∈ as, a.key = b.key → a.verdict = b.verdict

instance (as : List Answer) : Decidable (Unambiguous as) :=
  inferInstanceAs (Decidable (∀ a ∈ as, ∀ b ∈ as, a.key = b.key → a.verdict = b.verdict))

variable {verify evidenceById} {items : List ReportItem}

theorem verifyFold_answers : ∀ (entries : List (ReportItem × Nat × ReportClaim))
    (acc : Nat × List ClaimVerification × Bool),
    (entries.foldl (verifyClaim verify evidenceById) acc).2.1 =
      acc.2.1 ++ (answersFrom verify evidenceById acc.1 entries).filterMap Answer.filed
  | [], acc => by simp [answersFrom]
  | (item, ordinal, claim) :: rest, acc => by
    rw [List.foldl_cons, verifyFold_answers rest]
    by_cases hevidence : evidenceForClaim claim item evidenceById = []
    · simp only [verifyClaim, answersFrom, hevidence, if_true, List.filterMap_cons, Answer.filed,
        Option.map_none]
    · simp only [verifyClaim, answersFrom, hevidence, if_false, List.filterMap_cons]
      cases verify acc.1 claim (evidenceForClaim claim item evidenceById) claim.citationIds with
      | error e => rfl
      | ok verdict => simp [Answer.filed, Except.toOption]

theorem verdicts_eq (items : List ReportItem) : verdicts verify evidenceById items =
    (answers verify evidenceById items).filterMap Answer.filed := by
  unfold verdicts answers
  rw [verifyFold_answers, List.nil_append]

theorem verdictFor_last (vs : List ClaimVerification) (noticeId : String) (ordinal : Nat) :
    verdictFor vs noticeId ordinal =
      (Ledger.last verdictKey vs (noticeId, ordinal)).map (·.verification) := by
  have hsame : (fun e : ClaimVerification => e.noticeId == noticeId && e.claimIndex == ordinal) =
      fun e => decide (verdictKey e = (noticeId, ordinal)) := by
    funext e
    simp only [verdictKey, Prod.mk.injEq, Bool.decide_and]
    rfl
  unfold verdictFor Ledger.last
  rw [hsame, ← List.head?_filter, List.filter_reverse, List.head?_reverse]

variable (verify evidenceById) in
/-- Each answer is about its own claim. -/
theorem answersFrom_claims : ∀ (k : Nat) (entries : List (ReportItem × Nat × ReportClaim)),
    (answersFrom verify evidenceById k entries).map (fun a => (a.key, a.claim)) =
      entries.map fun e => ((e.1.noticeId, e.2.1), e.2.2)
  | _, [] => rfl
  | k, (item, ordinal, claim) :: rest => by
    unfold answersFrom
    dsimp only
    split
    · rw [List.map_cons, List.map_cons, answersFrom_claims k rest]
      rfl
    · rw [List.map_cons, List.map_cons, answersFrom_claims (k + 1) rest]
      rfl

theorem Answer.filed_key (a : Answer) (e : ClaimVerification) (h : a.filed = some e) :
    verdictKey e = a.key := by
  obtain ⟨verdict, -, rfl⟩ := Option.map_eq_some_iff.mp h
  rfl

theorem Answer.filed_eq_iff {a b : Answer} (hkey : a.key = b.key) :
    a.filed = b.filed ↔ a.verdict = b.verdict := by
  obtain ⟨hn, ho⟩ := Prod.mk.inj hkey
  unfold Answer.filed
  rw [hn, ho]
  cases a.verdict <;> cases b.verdict <;> simp

theorem verdictFor_eq_iff (vs : List ClaimVerification) (a : Answer) :
    verdictFor vs a.noticeId a.ordinal = a.verdict ↔
      Ledger.last verdictKey vs a.key = a.filed := by
  rw [verdictFor_last]
  unfold Answer.key Answer.filed
  cases hlast : Ledger.last verdictKey vs (a.noticeId, a.ordinal) with
  | none => cases a.verdict <;> simp
  | some e =>
    obtain ⟨hn, ho⟩ := Prod.mk.inj (Ledger.last_mem hlast).2
    rw [← hn, ← ho]
    obtain ⟨noticeId, ordinal, verification⟩ := e
    cases a.verdict <;> simp

/-- **Every key leads to its claim's own answer exactly when claims with one
key got the same answer.** -/
theorem filed_iff (items : List ReportItem) :
    (∀ a ∈ answers verify evidenceById items,
      verdictFor (verdicts verify evidenceById items) a.noticeId a.ordinal = a.verdict) ↔
    Unambiguous (answers verify evidenceById items) := by
  have hledger := Ledger.last_filterMap_iff (answers verify evidenceById items) Answer.filed_key
  rw [← verdicts_eq] at hledger
  constructor
  · intro h a ha b hb hab
    refine (Answer.filed_eq_iff hab).mp (hledger.mp (fun x hx => ?_) a ha b hb hab)
    exact (verdictFor_eq_iff _ x).mp (h x hx)
  · intro h a ha
    refine (verdictFor_eq_iff _ a).mpr (hledger.mpr (fun x hx y hy hxy => ?_) a ha)
    exact (Answer.filed_eq_iff hxy).mpr (h x hx y hy hxy)

/-! ## The graph hands on a draft's own verdicts -/

variable {lib : Lib} {p : Ports} {s s' : GState} {n : Node} {u : Update}

/-- Only `verify_semantics` files verdicts. -/
theorem no_verdicts {values : RunState} (h : (nodeFn lib p values n).result = .ok u)
    (hn : n ≠ .verifySemantics) : u.claimVerifications = [] := by
  cases n with
  | start | pause =>
    cases h
    rfl
  | parseIntent => rcases parseIntent_cases h with ⟨_, _, -, rfl⟩ | ⟨_, _, -, rfl⟩ <;> rfl
  | validateIntent => obtain ⟨_, -, ⟨-, rfl⟩ | ⟨-, rfl⟩⟩ := validateIntent_cases h <;> rfl
  | confirmIntent => obtain ⟨_, -, ⟨-, rfl⟩ | ⟨-, rfl⟩⟩ := confirmIntent_cases h <;> rfl
  | buildRetrievalPlan =>
    obtain ⟨_, _, -, rfl⟩ := buildRetrievalPlan_cases h
    rfl
  | retrieveCandidates =>
    obtain ⟨_, _, _, rfl⟩ := retrieveCandidates_cases h
    rfl
  | resolveDuplicates =>
    obtain ⟨_, rfl⟩ := resolveDuplicates_cases h
    rfl
  | verifyEvidence =>
    obtain ⟨_, _, rfl⟩ := verifyEvidence_cases h
    rfl
  | synthesizeReport =>
    obtain ⟨_, rfl⟩ := synthesizeReport_cases h
    rfl
  | validateReport =>
    obtain ⟨_, -, ⟨-, rfl⟩ | ⟨-, -, rfl⟩ | ⟨-, -, _, -, rfl⟩⟩ := validateReportNode_cases h <;> rfl
  | verifySemantics => exact absurd rfl hn
  | persistAndDeliver =>
    obtain ⟨_, _, _, -, rfl⟩ := persistAndDeliver_cases h
    rfl

/-- A run without a verifier files what one that always raises would. -/
theorem verdicts_raising (items : List ReportItem) :
    verdicts (fun _ _ _ _ => .error "") evidenceById items = [] := by
  have hnone : ∀ (k : Nat) (entries : List (ReportItem × Nat × ReportClaim)),
      ∀ a ∈ answersFrom (fun _ _ _ _ => .error "") evidenceById k entries, a.filed = none := by
    intro k entries
    induction entries generalizing k with
    | nil => simp [answersFrom]
    | cons e rest ih =>
      obtain ⟨item, ordinal, claim⟩ := e
      unfold answersFrom
      dsimp only
      split
      · exact List.forall_mem_cons.mpr ⟨rfl, ih k⟩
      · exact List.forall_mem_cons.mpr ⟨rfl, ih (k + 1)⟩
  rw [verdicts_eq, List.filterMap_eq_nil_iff]
  exact hnone 0 _

theorem verifySemantics_verdicts {values : RunState} {draft : ReportDraft}
    (hd : values.report = some draft) (h : (verifySemantics lib p values).result = .ok u) :
    ∃ verify, u.claimVerifications = verdicts verify values.evidenceById draft.items := by
  unfold verifySemantics at h
  split at h
  · rename_i verify draft' _ hd'
    rw [hd] at hd'
    cases hd'
    split at h
    · rename_i hempty
      obtain rfl := result_ok h
      exact ⟨verify, by rw [hempty]; rfl⟩
    · obtain rfl := result_ok h
      exact ⟨verify, rfl⟩
  · obtain rfl := result_ok h
    exact ⟨_, (verdicts_raising draft.items).symm⟩

/-- No verdict is filed before `verify_semantics`; after it, those of the draft. -/
structure FiledOnce (s : GState) : Prop where
  before : ∀ n, s.cfg.next = some n → n ≠ .persistAndDeliver → s.cfg.values.claimVerifications = []
  after : s.cfg.next = some .persistAndDeliver → ∀ draft, s.cfg.values.report = some draft →
    ∃ verify, s.cfg.values.claimVerifications =
      verdicts verify s.cfg.values.evidenceById draft.items

theorem advance_verdicts {c : Config} (hn : n ≠ .start) :
    (advance n c u).values.claimVerifications =
      c.values.claimVerifications ++ u.claimVerifications := by
  simp only [advance, advanceValues_of_ne hn]
  rfl

theorem successor_persist {values : RunState} (h : successor values n = some .persistAndDeliver) :
    n = .verifySemantics := by
  by_cases hv : n = .validateReport
  · subst hv
    simp only [successor, routeAfterValidateReport] at h
    split at h
    · cases h
    · split at h <;> cases h
  · exact Delivery.successor_delivery values hv (Or.inr h)

theorem filed_visit (hI : FiledOnce s) (hn : s.cfg.next = some n)
    (hu : (nodeFn lib p s.cfg.values n).result = .ok u) (hc : s'.cfg = advance n s.cfg u) :
    FiledOnce s' := by
  by_cases hsem : n = .verifySemantics
  · subst hsem
    have hnone := hI.before _ hn (by decide)
    have hnext : s'.cfg.next = some .persistAndDeliver := by
      rw [hc]
      rfl
    constructor
    · intro m hm hne
      rw [hnext] at hm
      cases hm
      exact absurd rfl hne
    · intro _ draft hd
      rw [hc, Delivery.advance_report hu (by decide) (by decide)] at hd
      rw [hc, advance_verdicts (by decide), hnone, List.nil_append,
        Delivery.advance_evidence hu (by decide)]
      exact verifySemantics_verdicts hd hu
  · have hkept : n ≠ .persistAndDeliver → s'.cfg.values.claimVerifications = [] := by
      intro hne
      rw [hc]
      by_cases hs : n = .start
      · subst hs
        have hnone := hI.before _ hn hne
        cases hi : s.cfg.input with
        | none => simpa [advance, advanceValues, hi] using hnone
        | some i => simpa [advance, advanceValues, hi, RunState.applyInput] using hnone
      · rw [advance_verdicts hs, hI.before n hn hne, no_verdicts hu hsem, List.append_nil]
    constructor
    · intro m hm _
      refine hkept fun heq => ?_
      subst heq
      rw [hc] at hm
      cases hm
    · intro hm
      rw [hc] at hm
      exact absurd (successor_persist hm) hsem

theorem filedOnce_inductive :
    (lts lib).Inductive fun s => Delivery.Inv6 lib s ∧ FiledOnce s := by
  refine Delivery.inv6_inductive.and ?_ ?_
  · intro s hinit
    obtain ⟨input, rfl⟩ := hinit
    exact ⟨fun _ _ _ => rfl, fun h => by cases h⟩
  · intro s ev s' _ hI hs
    rcases step_cases hs with ⟨p, n, -, -, hn, rfl⟩ | ⟨p, n, -, -, -, rfl⟩ | ⟨-, -, -, rfl⟩
    · rcases visit_cases lib p n s with ⟨u, hu, hc, -⟩ | ⟨e, -, hc, -⟩
      · exact filed_visit hI hn hu hc
      · exact ⟨by rw [hc]; exact hI.before, by rw [hc]; exact hI.after⟩
    · exact ⟨hI.before, hI.after⟩
    · exact ⟨hI.before, hI.after⟩

/-- **What the report store is called with is an accepted draft, stamped with
its own verdicts.** -/
theorem persisted_verdicts (lib : Lib) (s : GState) (hr : (lts lib).Reachable s)
    (hn : s.cfg.next = some .persistAndDeliver) {report : Report} {ev : EvidenceById}
    {vs : List ClaimVerification}
    (he : Effect.persist report ev vs ∈ (nodeFn lib p s.cfg.values .persistAndDeliver).effects) :
    ∃ (draft : ReportDraft) (verify : Verifier), (validateReport lib draft.items ev).valid = true ∧
      vs = verdicts verify ev draft.items ∧ report.items = applySupportStatus draft.items vs := by
  obtain ⟨hacc, hI⟩ := filedOnce_inductive.reachable s hr
  obtain ⟨draft, hd, w, -, hjudged⟩ := hacc.accepted (Or.inr hn)
  obtain ⟨verify, hvs⟩ := hI.after hn draft hd
  obtain ⟨draft', hd', hitems, rfl, rfl⟩ := Delivery.persist_call he
  rw [hd] at hd'
  cases hd'
  exact ⟨draft, verify, hjudged.valid, hvs, hitems⟩

end BidScope.L2
