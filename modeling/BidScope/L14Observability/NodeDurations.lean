import BidScope.L14Observability.Recorders
import BidScope.L2Graph.Run

/-!
# Durations of the graph's nodes

The executor observes the duration of a superstep under the node of its last
event. A node is a label of the metric when it is one of `VALID_NODE_NAMES`, and
`unknown` else; but events carry the graph's own names.

The duration is `time.monotonic` between two states of the stream, at least 0 and
3600 at most: any such number.

* `events_named`: every event of every run names a node of the graph.
* `nodes_unlabelled`: so every duration is observed under `unknown`, and the
  other labels never show.
-/
namespace BidScope.L14

open BidScope.L1 BidScope.L2

/-! ## The events of a run -/

/-- The names under which the nodes write their events. -/
def NODE_NAMES : List String :=
  ["parse_intent", "validate_intent", "confirm_intent", "build_retrieval_plan", "retrieve_candidates",
    "resolve_duplicates", "verify_evidence", "synthesize_report", "validate_report", "verify_semantics",
    "persist_and_deliver"]

/-- Every event names a node. -/
def Named (events : List NodeEvent) : Prop := ∀ e ∈ events, e.node ∈ NODE_NAMES

variable {lib : Lib} {p : Ports} {s : RunState} {u : L2.Update}

theorem emits_names {n : Node} : ∀ x ∈ n.emits, x.1 ∈ NODE_NAMES := by
  cases n <;> decide

theorem named_advance {n : Node} {c : Config} (h : (nodeFn lib p c.values n).result = .ok u)
    (hnamed : Named c.values.nodeEvents) : Named (advance n c u).values.nodeEvents := by
  show Named (advanceValues n c u).nodeEvents
  by_cases hn : n = .start
  · subst hn
    unfold advanceValues
    cases c.input with
    | none => exact hnamed
    | some i => exact hnamed
  · rw [advanceValues_of_ne hn, apply_nodeEvents]
    exact fun e he => (List.mem_append.mp he).elim (hnamed e) fun he => emits_names _ (node_emits h e he)

/-- In every run, every event names a node. -/
theorem events_named {s : GState} (hr : (lts lib).Reachable s) : Named s.cfg.values.nodeEvents := by
  refine LTS.Inductive.reachable (I := fun s => Named s.cfg.values.nodeEvents)
    ⟨fun s hinit => ?_, fun s ev s' hnamed hs => ?_⟩ s hr
  · obtain ⟨input, rfl⟩ := hinit
    exact fun _ hx => nomatch hx
  · rcases step_cases hs with ⟨p, n, -, -, -, rfl⟩ | ⟨p, n, -, -, -, rfl⟩ | ⟨-, -, -, rfl⟩
    · rcases visit_cases lib p n s with ⟨u, hu, hc, -⟩ | ⟨e, -, hc, -⟩
      · rw [hc]
        exact named_advance hu hnamed
      · rw [hc]
        exact hnamed
    · exact hnamed
    · exact hnamed

/-! ## What is observed -/

def VALID_NODE_NAMES : List String := ["intent", "duplicate", "retrieval", "report", "persist", "unknown"]

/-- mirrors graph/executor.py:125-127 -/
def resolveNodeName (name : String) : String := if name ∈ VALID_NODE_NAMES then name else "unknown"

/-- A superstep as the executor sees it: the node of the last new event, and the
time since the one before. -/
structure Superstep where
  latestNode : String
  elapsed : Rat

/-- mirrors graph/executor.py:555-560 -/
def observeNode (x : Superstep) : List Call :=
  suppressed [.observe "bidscope_run_node_duration_seconds" (some (min (max x.elapsed 0) 3600))
    (oneValue "node" (resolveNodeName x.latestNode))]

/-- The superstep is one of a run of the graph. -/
def Superstep.Real (x : Superstep) : Prop :=
  ∃ lib s, (lts lib).Reachable s ∧ ∃ e ∈ s.cfg.values.nodeEvents, e.node = x.latestNode

theorem resolveNodeName_mem (name : String) : resolveNodeName name ∈ VALID_NODE_NAMES := by
  unfold resolveNodeName
  split
  · assumption
  · decide

theorem resolveNodeName_real {x : Superstep} (h : x.Real) : resolveNodeName x.latestNode = "unknown" := by
  obtain ⟨lib, s, hr, e, he, hnode⟩ := h
  have hall : ∀ name ∈ NODE_NAMES, resolveNodeName name = "unknown" := by decide +kernel
  exact hall _ (hnode ▸ events_named hr e he)

theorem node_ok {node : String} (h : node ∈ VALID_NODE_NAMES) :
    labelsKey "bidscope_run_node_duration_seconds" (oneValue "node" node) = .ok [("node", node)] := by
  have hall : ∀ node ∈ VALID_NODE_NAMES,
      labelsKey "bidscope_run_node_duration_seconds" (oneValue "node" node) = .ok [("node", node)] := by
    decide +kernel
  exact hall node h

theorem updates_observeNode {key : Key} {x : Superstep} : updates (observeNode x) key =
    if ("bidscope_run_node_duration_seconds", [("node", resolveNodeName x.latestNode)]) = key then
      [.append ("bidscope_run_node_duration_seconds", [("node", resolveNodeName x.latestNode)])
        (min (max x.elapsed 0) 3600)] else [] := by
  have hobserve := observe_ok (by decide) (node_ok (resolveNodeName_mem x.latestNode)) (clamped x.elapsed)
  unfold observeNode
  rw [suppressed_last, updates_append hobserve, updates_nil, List.append_nil]

variable {calls others : List Call} {supersteps : List Superstep}

theorem amounts_observeNode (node : String) (h : calls.Perm (supersteps.flatMap observeNode ++ others))
    (hothers : ∀ c ∈ others, c.metric ≠ "bidscope_run_node_duration_seconds") :
    (amounts calls ("bidscope_run_node_duration_seconds", [("node", node)])).Perm
      ((supersteps.filter fun x => resolveNodeName x.latestNode = node).map fun x => min (max x.elapsed 0) 3600) := by
  have hunit : ∀ x, updates (observeNode x) ("bidscope_run_node_duration_seconds", [("node", node)]) =
      if decide (resolveNodeName x.latestNode = node) then
        [.append ("bidscope_run_node_duration_seconds", [("node", node)]) (min (max x.elapsed 0) 3600)]
      else [] := fun x => by
    rw [updates_observeNode]
    by_cases hnode : resolveNodeName x.latestNode = node <;> simp [hnode]
  exact amounts_callers h hothers hunit

section
variable (fsum : List Rat → Rat)

/-- **Durations have no node**: they are all under `unknown`. -/
theorem nodes_unlabelled (hreal : ∀ x ∈ supersteps, x.Real)
    (h : calls.Perm (supersteps.flatMap observeNode ++ others))
    (hothers : ∀ c ∈ others, c.metric ≠ "bidscope_run_node_duration_seconds") :
    ∃ ss, Exposition.read (renderPrometheus fsum (after calls)) = some ss ∧
      (supersteps ≠ [] → sampleOf "bidscope_run_node_duration_seconds_count" [("node", "unknown")]
        (toString supersteps.length).toList ∈ ss) ∧
      ∀ node ≠ "unknown", ∀ s ∈ ss,
        seriesOf s ≠ nameOf ("bidscope_run_node_duration_seconds_count", [("node", node)]) := by
  have hname : "bidscope_run_node_duration_seconds_count" =
      "bidscope_run_node_duration_seconds" ++ "_count" := by decide +kernel
  refine ⟨_, read_render fsum (inVocabulary_after calls), fun hne => ?_, fun node hnode s hs heq => ?_⟩
  · have hkey : Vocabulary .histogram ("bidscope_run_node_duration_seconds", [("node", "unknown")]) :=
      vocabulary_of (by decide) (node_ok (by decide))
    have hperm := amounts_observeNode "unknown" h hothers
    have hall : supersteps.filter (fun x => decide (resolveNodeName x.latestNode = "unknown")) = supersteps :=
      List.filter_eq_self.mpr fun x hx => decide_eq_true (resolveNodeName_real (hreal x hx))
    rw [hall] at hperm
    have hlen := hperm.length_eq
    rw [List.length_map] at hlen
    rw [hname, ← hlen]
    refine histogram_shown fsum hkey (updates_ne hperm (by simpa using hne)) ?_
    exact List.mem_append_right _ (List.mem_cons_of_mem _ (List.mem_cons_self ..))
  · obtain ⟨⟨name, labels⟩, d, hd, hu, hmem⟩ := shown_called fsum hs
    rw [heq, List.mem_map_of_injective nameOf_injective] at hmem
    obtain ⟨u, hmem'⟩ := List.exists_mem_of_ne_nil _ hu
    obtain ⟨kind, d', hd', -, hls⟩ := vocabulary_of_updates hmem'
    rw [Option.some.inj (hd'.symm.trans hd)] at hls
    have hlabels : [("node", node)] = labels := base_labels hd hls hmem
    have hall : ∀ m ∈ METRIC_DEFINITIONS, "bidscope_run_node_duration_seconds_count" ∈ metricNames m →
        m.1 = "bidscope_run_node_duration_seconds" := by decide +kernel
    have hmetric : name = "bidscope_run_node_duration_seconds" :=
      hall (name, d) (definition_mem hd) (@mem_metricNames labels (name, d) _ hmem)
    subst hlabels hmetric
    have hnil : supersteps.filter (fun x => decide (resolveNodeName x.latestNode = node)) = [] :=
      List.filter_eq_nil_iff.mpr fun x hx => by
        rw [resolveNodeName_real (hreal x hx), decide_eq_true_eq]
        exact hnode.symm
    have hperm := amounts_observeNode node h hothers
    rw [hnil, List.map_nil] at hperm
    exact hu (List.map_eq_nil_iff.mp hperm.eq_nil)

end

/-- Two supersteps of a run that is delivered. -/
def demoSupersteps : List Superstep := [⟨"parse_intent", 1 / 4⟩, ⟨"persist_and_deliver", 2⟩]

theorem demoSupersteps_real : ∀ x ∈ demoSupersteps, x.Real := by
  have hall : ∀ x ∈ demoSupersteps,
      ∃ e ∈ (runGraph asciiLib (fun _ => demoPorts) false ⟨"road works", "run-1", some 0⟩).cfg.values.nodeEvents,
        e.node = x.latestNode := by decide +kernel
  exact fun x hx => ⟨asciiLib, _, runGraph_reachable asciiLib _ false _, hall x hx⟩

theorem nodes_unlabelled_demo :
    ∃ ss, Exposition.read (renderPrometheus List.sum (after (demoSupersteps.flatMap observeNode ++ twoCalls))) =
        some ss ∧
      (demoSupersteps ≠ [] → sampleOf "bidscope_run_node_duration_seconds_count" [("node", "unknown")]
        (toString demoSupersteps.length).toList ∈ ss) ∧
      ∀ node ≠ "unknown", ∀ s ∈ ss,
        seriesOf s ≠ nameOf ("bidscope_run_node_duration_seconds_count", [("node", node)]) :=
  nodes_unlabelled List.sum demoSupersteps_real (.refl _) (by decide)

end BidScope.L14
