import BidScope.L2Graph.Builder

/-!
# Runs of the graph

The compiled graph as a transition system. `visit` runs the pending node and
commits its superstep, or ends the invocation with the node's exception;
`lose` is a node whose superstep never reached the checkpoint (the process
died); `resume` is a later invocation on the same checkpoint. `visits` records
what every node execution saw and returned.

`runGraph` is one undisturbed run of a request, with the interrupt after
`pause` resumed or left standing.

* `step_cases`, `visit_cases`: what a step of the system can be.
* `runGraph_reachable`: the undisturbed run is a run of the system.
* `runGraph_ended`: it ends within the recursion limit.
* `drive_invariant`: what every superstep preserves holds at its end.
-/
namespace BidScope.L2

open BidScope.L1

inductive Stop where
  | interrupted
  | raised (e : Exn)
  | crashed
  deriving DecidableEq

structure Visit where
  node : Node
  before : RunState
  outcome : NodeResult
  committed : Bool

structure GState where
  cfg : Config
  stop : Option Stop := none
  visits : List Visit := []

/-- The input is stored and `start` is pending. -/
def begin (input : Input) : GState :=
  { cfg := { values := {}, next := some .start, input := some input } }

variable (lib : Lib)

def visit (p : Ports) (n : Node) (s : GState) : GState :=
  let r := nodeFn lib p s.cfg.values n
  match r.result with
  | .ok u =>
    { cfg := advance n s.cfg u
      stop := if n = .pause then some .interrupted else none
      visits := s.visits ++ [⟨n, s.cfg.values, r, true⟩] }
  | .error e =>
    { s with stop := some (.raised e), visits := s.visits ++ [⟨n, s.cfg.values, r, false⟩] }

def lose (p : Ports) (n : Node) (s : GState) : GState :=
  { s with
    stop := some .crashed
    visits := s.visits ++ [⟨n, s.cfg.values, nodeFn lib p s.cfg.values n, false⟩] }

inductive GEv where
  | visit (p : Ports)
  | lose (p : Ports)
  | resume

def step (s : GState) : GEv → Option GState
  | .visit p =>
    match s.stop, s.cfg.next with
    | none, some n => some (visit lib p n s)
    | _, _ => none
  | .lose p =>
    match s.stop, s.cfg.next with
    | none, some n => some (lose lib p n s)
    | _, _ => none
  | .resume => if s.stop.isSome ∧ s.cfg.next.isSome then some { s with stop := none } else none

def lts : LTS GState GEv := LTS.ofFn (fun s => ∃ input, s = begin input) (step lib)

/-- The node executions of one run, `ps k` answering the `k`-th; each unit of
fuel is one superstep. -/
def drive (ps : Nat → Ports) (resume : Bool) : Nat → Nat → GState → GState
  | 0, _, s => s
  | fuel + 1, k, s =>
    match s.cfg.next with
    | none => s
    | some n =>
      match s.stop with
      | none => drive ps resume fuel (k + 1) (visit lib (ps k) n s)
      | some .interrupted =>
        if resume then drive ps resume fuel (k + 1) (visit lib (ps k) n { s with stop := none })
        else s
      | some _ => s

def runGraph (ps : Nat → Ports) (resume : Bool) (input : Input) : GState :=
  drive lib ps resume recursionLimit 0 (begin input)

variable {lib} {p : Ports} {s s' : GState} {n : Node}

theorem visit_cases (lib : Lib) (p : Ports) (n : Node) (s : GState) :
    (∃ u, (nodeFn lib p s.cfg.values n).result = .ok u ∧
      (visit lib p n s).cfg = advance n s.cfg u ∧
      (visit lib p n s).stop = (if n = .pause then some .interrupted else none) ∧
      (visit lib p n s).visits =
        s.visits ++ [⟨n, s.cfg.values, nodeFn lib p s.cfg.values n, true⟩]) ∨
    (∃ e, (nodeFn lib p s.cfg.values n).result = .error e ∧
      (visit lib p n s).cfg = s.cfg ∧ (visit lib p n s).stop = some (.raised e) ∧
      (visit lib p n s).visits =
        s.visits ++ [⟨n, s.cfg.values, nodeFn lib p s.cfg.values n, false⟩]) := by
  unfold visit
  cases h : (nodeFn lib p s.cfg.values n).result with
  | ok u => exact Or.inl ⟨u, rfl, by simp only [h], by simp only [h], by simp only [h]⟩
  | error e => exact Or.inr ⟨e, rfl, by simp only [h], by simp only [h], by simp only [h]⟩

/-- What a step can be. -/
theorem step_cases {ev : GEv} (h : step lib s ev = some s') :
    (∃ p n, ev = .visit p ∧ s.stop = none ∧ s.cfg.next = some n ∧ s' = visit lib p n s) ∨
    (∃ p n, ev = .lose p ∧ s.stop = none ∧ s.cfg.next = some n ∧ s' = lose lib p n s) ∨
    (ev = .resume ∧ s.stop.isSome ∧ s.cfg.next.isSome ∧ s' = { s with stop := none }) := by
  cases ev with
  | visit p =>
    simp only [step] at h
    split at h
    · rename_i n hs hn
      cases h
      exact Or.inl ⟨p, n, rfl, hs, hn, rfl⟩
    · cases h
  | lose p =>
    simp only [step] at h
    split at h
    · rename_i n hs hn
      cases h
      exact Or.inr (Or.inl ⟨p, n, rfl, hs, hn, rfl⟩)
    · cases h
  | resume =>
    simp only [step] at h
    split at h
    · rename_i hc
      cases h
      exact Or.inr (Or.inr ⟨rfl, hc.1, hc.2, rfl⟩)
    · cases h

/-- Splitting a list at an element, after one more was appended. -/
theorem snoc_split {α : Type} {xs pre post : List α} {x v : α} (h : xs ++ [x] = pre ++ v :: post) :
    (post = [] ∧ v = x ∧ pre = xs) ∨ ∃ post', xs = pre ++ v :: post' := by
  rcases List.eq_nil_or_concat post with rfl | ⟨post', y, rfl⟩
  · have h' := List.append_inj' h rfl
    simp only [List.cons.injEq, and_true] at h'
    exact Or.inl ⟨rfl, h'.2.symm, h'.1.symm⟩
  · right
    refine ⟨post', ?_⟩
    have e : pre ++ v :: (post' ++ [y]) = (pre ++ v :: post') ++ [y] := by simp
    rw [List.concat_eq_append, e] at h
    exact (List.append_inj' h rfl).1

/-! ## The undisturbed run -/

/-- `drive` takes the pending node, from a standing interrupt after clearing
it; otherwise it stops. -/
theorem drive_succ (lib : Lib) (ps : Nat → Ports) (resume : Bool) (fuel k : Nat) (s : GState) :
    (∃ n, s.cfg.next = some n ∧ (s.stop = none ∨ s.stop = some .interrupted) ∧
      drive lib ps resume (fuel + 1) k s =
        drive lib ps resume fuel (k + 1) (visit lib (ps k) n { s with stop := none })) ∨
    (drive lib ps resume (fuel + 1) k s = s ∧ (s.cfg.next = none ∨ s.stop.isSome)) := by
  cases hn : s.cfg.next with
  | none => exact Or.inr ⟨by simp only [drive, hn], Or.inl rfl⟩
  | some n =>
    cases hs : s.stop with
    | none =>
      left
      refine ⟨n, rfl, Or.inl rfl, ?_⟩
      have e : { s with stop := none } = s := by cases s; simp_all
      simp only [drive, hn, hs, e]
    | some st =>
      cases st with
      | interrupted =>
        cases resume with
        | true => exact Or.inl ⟨n, rfl, Or.inr rfl, by simp [drive, hn, hs]⟩
        | false => exact Or.inr ⟨by simp [drive, hn, hs], Or.inr rfl⟩
      | raised e => exact Or.inr ⟨by simp [drive, hn, hs], Or.inr rfl⟩
      | crashed => exact Or.inr ⟨by simp [drive, hn, hs], Or.inr rfl⟩

theorem drive_raised (ps : Nat → Ports) (resume : Bool) {e : Exn} :
    ∀ (fuel k : Nat) (s : GState), s.stop = some (.raised e) → drive lib ps resume fuel k s = s
  | 0, _, _, _ => rfl
  | fuel + 1, k, s, h => by
    rcases drive_succ lib ps resume fuel k s with ⟨n, -, hs, -⟩ | ⟨he, -⟩
    · rcases hs with hs | hs
      · rw [h] at hs; cases hs
      · rw [h] at hs; cases hs
    · exact he

theorem visit_length (lib : Lib) (p : Ports) (n : Node) (s : GState) :
    (visit lib p n s).visits.length = s.visits.length + 1 := by
  rcases visit_cases lib p n s with ⟨_, -, -, -, hv⟩ | ⟨_, -, -, -, hv⟩
  · simp [hv]
  · simp [hv]

/-- Nothing pending, or stopped. -/
def Ended (s : GState) : Prop := s.cfg.next = none ∨ s.stop.isSome

/-- `rank` supersteps are enough, and no more are taken. -/
theorem drive_ended (lib : Lib) (ps : Nat → Ports) (resume : Bool) :
    ∀ (fuel k : Nat) (s : GState), rank s.cfg ≤ fuel →
      Ended (drive lib ps resume fuel k s) ∧
        (drive lib ps resume fuel k s).visits.length ≤ s.visits.length + rank s.cfg
  | 0, k, s, hf => ⟨Or.inl (rank_eq_zero.mp (Nat.le_zero.mp hf)), Nat.le_add_right _ _⟩
  | fuel + 1, k, s, hf => by
    rcases drive_succ lib ps resume fuel k s with ⟨n, hn, -, he⟩ | ⟨he, hend⟩
    · rw [he]
      have hlen : (visit lib (ps k) n { s with stop := none }).visits.length =
          s.visits.length + 1 := visit_length lib (ps k) n _
      rcases visit_cases lib (ps k) n { s with stop := none } with
        ⟨u, hu, hc, -, -⟩ | ⟨e, -, -, hst, -⟩
      · have hlt : rank (visit lib (ps k) n { s with stop := none }).cfg < rank s.cfg := by
          rw [hc]
          exact rank_advance hn hu
        have ih := drive_ended lib ps resume fuel (k + 1)
          (visit lib (ps k) n { s with stop := none }) (by omega)
        exact ⟨ih.1, by omega⟩
      · rw [drive_raised ps resume fuel (k + 1) _ hst]
        have hpos : rank s.cfg ≠ 0 := by simp [rank_eq_zero, hn]
        exact ⟨Or.inr (by rw [hst]; rfl), by omega⟩
    · rw [he]
      exact ⟨hend, Nat.le_add_right _ _⟩

/-- The undisturbed run ends, within the recursion limit. -/
theorem runGraph_ended (lib : Lib) (ps : Nat → Ports) (resume : Bool) (input : Input) :
    Ended (runGraph lib ps resume input) ∧
      (runGraph lib ps resume input).visits.length ≤ recursionLimit := by
  have hr := rank_le (begin input).cfg
  obtain ⟨h1, h2⟩ := drive_ended lib ps resume recursionLimit 0 (begin input)
    (by unfold recursionLimit; omega)
  refine ⟨h1, Nat.le_trans h2 ?_⟩
  simp only [begin, List.length_nil, recursionLimit] at hr ⊢
  omega

/-- An invariant that the `k`-th superstep preserves, and clearing an
interrupt too, holds at the end of the undisturbed run. -/
theorem drive_invariant (lib : Lib) {I : Nat → GState → Prop} (ps : Nat → Ports) (resume : Bool)
    (hv : ∀ k s n, I k s → s.cfg.next = some n → I (k + 1) (visit lib (ps k) n s))
    (hr : ∀ k s n, I k s → s.cfg.next = some n → I k { s with stop := none }) :
    ∀ (fuel k : Nat) (s : GState), I k s → ∃ k', I k' (drive lib ps resume fuel k s)
  | 0, k, _, h => ⟨k, h⟩
  | fuel + 1, k, s, h => by
    rcases drive_succ lib ps resume fuel k s with ⟨n, hn, -, he⟩ | ⟨he, -⟩
    · rw [he]
      exact drive_invariant lib ps resume hv hr fuel (k + 1) _ (hv k _ n (hr k s n h hn) hn)
    · rw [he]
      exact ⟨k, h⟩

/-- The undisturbed run is a run of the system. -/
theorem drive_run (lib : Lib) (ps : Nat → Ports) (resume : Bool) :
    ∀ (fuel k : Nat) (s : GState), ∃ evs, (lts lib).Run s evs (drive lib ps resume fuel k s)
  | 0, _, s => ⟨[], .nil s⟩
  | fuel + 1, k, s => by
    rcases drive_succ lib ps resume fuel k s with ⟨n, hn, hst, he⟩ | ⟨he, -⟩
    · rw [he]
      obtain ⟨evs, hrun⟩ := drive_run lib ps resume fuel (k + 1)
        (visit lib (ps k) n { s with stop := none })
      have hvisit : (lts lib).step { s with stop := none } (.visit (ps k))
          (visit lib (ps k) n { s with stop := none }) := by
        simp [lts, LTS.ofFn, step, hn]
      rcases hst with hst | hst
      · have e : { s with stop := none } = s := by cases s; simp_all
        rw [e] at hvisit hrun ⊢
        exact ⟨_, .cons hvisit hrun⟩
      · have hresume : (lts lib).step s .resume { s with stop := none } := by
          simp [lts, LTS.ofFn, step, hn, hst]
        exact ⟨_, .cons hresume (.cons hvisit hrun)⟩
    · rw [he]
      exact ⟨[], .nil s⟩

theorem runGraph_reachable (lib : Lib) (ps : Nat → Ports) (resume : Bool) (input : Input) :
    (lts lib).Reachable (runGraph lib ps resume input) := by
  obtain ⟨evs, hrun⟩ := drive_run lib ps resume recursionLimit 0 (begin input)
  exact ⟨begin input, evs, ⟨input, rfl⟩, hrun⟩

/-- Collaborators that answer: one notice, reported without claims. -/
def demoPorts : Ports where
  now _ := ⟨0, 0⟩
  parse _ _ := .ok ({ topics := ["roads"], regions := ["north"], confidence := 1 }, none)
  search _ _ := .ok ⟨["v1"], []⟩
  loadNoticeViews _ := .ok (Dict.ofList [("v1", {
    source := "demo", externalId := "v1", canonicalUrl := "/v1", projectNumber := none,
    contentHash := "c1", title := some "road works" })])
  classify _ _ _ := .ok ⟨.distinct, []⟩
  synthesize _ o := .ok { items := [{ noticeId := o.noticeId, title := o.title }] }
  semanticVerifier := none
  persistOnlineReport report _ _ := .ok ⟨"report", report, none⟩
  exportDocx _ := .ok ()

end BidScope.L2
