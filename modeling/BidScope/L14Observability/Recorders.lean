import BidScope.Core.LTS
import BidScope.L14Observability.Metrics
import Mathlib.Algebra.BigOperators.Ring.Finset
import Mathlib.Data.List.Count

/-!
# What the program records

The callers of the registry: the middleware of the HTTP requests, the
acquisition runs, the ticks of the scheduler, and the connections of the event
stream. A caller makes its calls one after the other and drops the exception of
the first that raises; the calls of different callers interleave as they like
(`Perm`), and among any other calls of other metrics (`others`).

A counter is a float, and goes up by one to 2^53 and no further: what a text shows
of n events is `min n (2 ^ 53)` (`count_shown`). Amounts other than one are
totals, exact to the same bound (`total_shown`).

* `requests_counted`: requests are counted under their status class, each with
  its duration, whatever the status code and the clock.
* `acquisitions_counted`: so are acquisition runs; the records of a run are not
  when its last page is older than the bound of the gauge before it.
* `ticks_counted`: so are ticks, but no timeout ever is: its outcome is not in
  the vocabulary, and the caller drops the exception.
* `connections_capacity`: the connections of the event stream never exceed the
  limit, and the gauge in the text is their number, where the limit is 2^53 at
  most.

Left out: what a caller does beside the registry (logs, the response itself).
-/
namespace BidScope.L14

/-! ## Callers -/

/-- Behind the first call that raises there are no others. -/
def suppressed : List Call → List Call
  | [] => []
  | c :: cs =>
    match c.check with
    | .error _ => [c]
    | .ok update => if update.overflows then [c] else c :: suppressed cs

def oneValue (label value : String) : Option (Dict String String) := some (.ofList [(label, value)])

/-- mirrors observability.py:91-92 -/
def statusClass (statusCode : Int) : String :=
  if 100 ≤ statusCode ∧ statusCode ≤ 599 then toString (statusCode / 100) ++ "xx" else "unknown"

/-- `elapsed` is the difference of two readings of the clock. -/
structure Request where
  statusCode : Int
  elapsed : Rat

/-- The calls of one request.
mirrors observability.py:448-458 -/
def dispatch (r : Request) : List Call :=
  let durationSeconds := min (max r.elapsed 0) 3600
  let status := statusClass r.statusCode
  suppressed [.counter "bidscope_http_requests_total" (oneValue "status" status) 1,
    .observe "bidscope_http_request_duration_seconds" (some durationSeconds) (oneValue "status" status)]

/-- `age` is the time from the last page to the end of the run. -/
structure Acquisition where
  source : String
  status : String
  elapsed : Rat
  recordCount : Nat
  age : Rat

/-- mirrors ingestion/service.py:346-384 -/
def recordMetrics (a : Acquisition) : List Call :=
  let duration := min 3600 (max 0 a.elapsed)
  suppressed [.counter "bidscope_acquisition_runs_total"
      (some (.ofList [("source", a.source), ("outcome", a.status)])) 1,
    .observe "bidscope_acquisition_duration_seconds" (some duration) (oneValue "source" a.source),
    .gauge "bidscope_source_freshness_seconds" (some (max 0 a.age)) (oneValue "source" a.source),
    .counter "bidscope_acquisition_records_total" (oneValue "source" a.source) a.recordCount]

variable {name : String} {calls others : List Call} {c : Call} {cs : List Call} {key : Key} {u : Update}

/-- The metric a call names. -/
def Call.metric : Call → String
  | counter name _ _ | observe name _ _ | gauge name _ _ | incrementGauge name _ | decrementGauge name _ => name

theorem check_metric (h : c.check = .ok u) : u.series.1 = c.metric := by
  cases check_ok h with
  | counter _ _ _ _ _ _ hname => exact hname
  | observe _ _ _ _ _ _ hname => exact hname
  | gauge _ _ _ _ _ _ hname => exact hname
  | increment _ _ _ _ hname => exact hname
  | decrement _ _ _ _ hname => exact hname

/-- Calls that name other metrics do nothing to the series. -/
theorem updates_other (h : ∀ c ∈ others, c.metric ≠ key.1) : updates others key = [] := by
  refine List.eq_nil_iff_forall_not_mem.mpr fun u hu => ?_
  obtain ⟨c, hc, hok, hkey⟩ := mem_updates.mp hu
  exact h c hc (by rw [← check_metric hok, hkey])

/-- What callers do to a series, among calls that leave it alone. -/
theorem updates_callers {α : Type} {units : List α} {f : α → List Call}
    (h : calls.Perm (units.flatMap f ++ others)) (hothers : ∀ c ∈ others, c.metric ≠ key.1) :
    (updates calls key).Perm (units.flatMap fun x => updates (f x) key) := by
  have hsplit : updates (units.flatMap f ++ others) key =
      units.flatMap (fun x => updates (f x) key) ++ updates others key := by
    rw [updates_concat, updates, List.filterMap_flatMap]
    rfl
  have hperm := @updates_perm key _ _ h
  rwa [hsplit, updates_other hothers, List.append_nil] at hperm

/-- One update from each unit that `p` holds of. -/
theorem flatMap_ite {α : Type} {units : List α} {p : α → Bool} {g : α → Update} :
    (units.flatMap fun x => if p x then [g x] else []) = (units.filter p).map g := by
  induction units with
  | nil => rfl
  | cons x units ih =>
    rw [List.flatMap_cons, ih, List.filter_cons]
    split <;> rfl

theorem updates_ok (h : c.check = .ok u) :
    updates (c :: cs) key = (if u.series = key then [u] else []) ++ updates cs key := by
  rw [updates_cons, updates, List.filterMap_cons, h]
  by_cases hk : u.series = key <;> simp [hk]

theorem updates_add {k : Key} {n : Int} (h : c.check = .ok (.add k n)) :
    updates (c :: cs) key = (if k = key then [.add k n] else []) ++ updates cs key := updates_ok h

theorem updates_append {k : Key} {q : Rat} (h : c.check = .ok (.append k q)) :
    updates (c :: cs) key = (if k = key then [.append k q] else []) ++ updates cs key := updates_ok h

theorem updates_put {k : Key} {q : Rat} (h : c.check = .ok (.put k q)) :
    updates (c :: cs) key = (if k = key then [.put k q] else []) ++ updates cs key := updates_ok h

theorem updates_nil : updates [] key = [] := rfl

theorem one_fits {k : Key} : (Update.add k 1).overflows = false := by
  rw [Update.overflows, Binary64.ofInt_eq (by decide)]
  rfl

theorem updates_error {e : String} (h : c.check = .error e) : updates (c :: cs) key = updates cs key := by
  rw [updates_cons, updates, List.filterMap_cons, h]
  rfl

theorem suppressed_ok (h : c.check = .ok u) (hfits : u.overflows = false) :
    suppressed (c :: cs) = c :: suppressed cs := by
  rw [suppressed, h]
  simp only [hfits, Bool.false_eq_true, if_false]

/-- The last call of a caller is made, whether it raises or not. -/
theorem suppressed_last : suppressed [c] = [c] := by
  rw [suppressed]
  split
  · rfl
  · split <;> rfl

theorem suppressed_error {e : String} (h : c.check = .error e) : suppressed (c :: cs) = [c] := by
  rw [suppressed, h]

/-! ## Requests -/

theorem statusClass_mem (code : Int) : statusClass code ∈ STATUSES := by
  unfold statusClass
  split
  · next h =>
    have hclass : code / 100 = 1 ∨ code / 100 = 2 ∨ code / 100 = 3 ∨ code / 100 = 4 ∨ code / 100 = 5 := by omega
    rcases hclass with h | h | h | h | h <;> rw [h] <;> decide +kernel
  · decide

theorem status_ok {status : String} (h : status ∈ STATUSES) :
    labelsKey "bidscope_http_requests_total" (oneValue "status" status) = .ok [("status", status)] ∧
      labelsKey "bidscope_http_request_duration_seconds" (oneValue "status" status) = .ok [("status", status)] := by
  have hall : ∀ status ∈ STATUSES,
      labelsKey "bidscope_http_requests_total" (oneValue "status" status) = .ok [("status", status)] ∧
        labelsKey "bidscope_http_request_duration_seconds" (oneValue "status" status) = .ok [("status", status)] := by
    decide +kernel
  exact hall status h

theorem counter_ok {labels : Option (Dict String String)} {ls : Labels} {amount : Int} (hkind : IsKind name .counter)
    (h : labelsKey name labels = .ok ls) (hpos : ¬ amount < 0) :
    (Call.counter name labels amount).check = .ok (.add (name, ls) amount) := by
  simp only [Call.check, counter, if_pos hkind, if_neg hpos, keyed, h]

theorem observe_ok {labels : Option (Dict String String)} {ls : Labels} {q : Rat}
    (hkind : IsKind name .histogram) (h : labelsKey name labels = .ok ls) (hq : 0 ≤ q ∧ q ≤ 3600) :
    (Call.observe name (some q) labels).check = .ok (.append (name, ls) q) := by
  simp [Call.check, observe, hkind, keyed, h, Option.filter, hq]

theorem clamped (q : Rat) : 0 ≤ min (max q 0) 3600 ∧ min (max q 0) 3600 ≤ 3600 :=
  ⟨le_min (le_max_right q 0) (by norm_num), min_le_right _ _⟩

/-- The calls of a request pass their checks, and what they do. -/
theorem updates_dispatch {r : Request} : updates (dispatch r) key =
    (if ("bidscope_http_requests_total", [("status", statusClass r.statusCode)]) = key then
      [.add ("bidscope_http_requests_total", [("status", statusClass r.statusCode)]) 1] else []) ++
    if ("bidscope_http_request_duration_seconds", [("status", statusClass r.statusCode)]) = key then
      [.append ("bidscope_http_request_duration_seconds", [("status", statusClass r.statusCode)])
        (min (max r.elapsed 0) 3600)] else [] := by
  obtain ⟨hcount, hduration⟩ := status_ok (statusClass_mem r.statusCode)
  have hcounter := @counter_ok _ _ _ 1 (by decide) hcount (by decide)
  have hobserve := observe_ok (by decide) hduration (clamped r.elapsed)
  unfold dispatch
  dsimp only
  rw [suppressed_ok hcounter one_fits, suppressed_last, updates_add hcounter, updates_append hobserve]
  rw [updates_nil, List.append_nil]

/-- What callers do to the amounts of a series, when `p` says which of them do. -/
theorem amounts_callers {α : Type} {units : List α} {f : α → List Call} {p : α → Bool} {g : α → Update}
    (h : calls.Perm (units.flatMap f ++ others)) (hothers : ∀ c ∈ others, c.metric ≠ key.1)
    (hunit : ∀ x, updates (f x) key = if p x then [g x] else []) :
    (amounts calls key).Perm ((units.filter p).map fun x => (g x).amount) := by
  have hperm := (updates_callers h hothers).map Update.amount
  have hunits : (units.flatMap fun x => updates (f x) key) = (units.filter p).map g := by
    rw [← flatMap_ite]
    exact List.flatMap_congr fun x _ => hunit x
  rwa [hunits, List.map_map] at hperm

theorem updates_ne {xs : List Rat} (h : (amounts calls key).Perm xs) (hne : xs ≠ []) : updates calls key ≠ [] := by
  rintro hnil
  rw [amounts, hnil, List.map_nil] at h
  exact hne h.nil_eq.symm

theorem formatNumber_nat (n : Nat) : formatNumber (.finite n) = (toString n).toList := by
  rw [formatNumber, if_pos (Rat.den_natCast n), Rat.num_natCast]
  rfl

/-- What callers add to a series, when `p` says which of them do. -/
theorem counted_callers {α : Type} {units : List α} {f : α → List Call} {p : α → Bool} (amount : α → Int)
    (h : calls.Perm (units.flatMap f ++ others)) (hothers : ∀ c ∈ others, c.metric ≠ key.1)
    (hunit : ∀ x, updates (f x) key = if p x then [.add key (amount x)] else []) :
    (counted calls key).Perm ((units.filter p).map amount) ∧ (units.filter p ≠ [] → updates calls key ≠ []) := by
  have hunits : (units.flatMap fun x => updates (f x) key) = (units.filter p).map fun x => .add key (amount x) := by
    rw [← flatMap_ite]
    exact List.flatMap_congr fun x _ => hunit x
  have hperm := updates_callers h hothers
  rw [hunits] at hperm
  refine ⟨?_, fun hne hnil => ?_⟩
  · have hadded := hperm.filterMap Update.added
    rw [List.filterMap_map] at hadded
    exact hadded.trans (.of_eq (congrFun (List.filterMap_eq_map' (f := amount)) _))
  · rw [hnil] at hperm
    exact hne (List.map_eq_nil_iff.mp hperm.nil_eq.symm)

section
variable (fsum : List Rat → Rat)

/-- A counter to which callers add whole amounts. -/
theorem total_shown {α : Type} {units : List α} {f : α → List Call} {p : α → Bool} {amount : α → Nat}
    (h : calls.Perm (units.flatMap f ++ others)) (hothers : ∀ c ∈ others, c.metric ≠ key.1)
    (hunit : ∀ x, updates (f x) key = if p x then [.add key (amount x)] else [])
    (hkey : Vocabulary .counter key) (hne : units.filter p ≠ [])
    (hexact : ((units.filter p).map amount).sum ≤ 2 ^ 53) :
    sampleOf key.1 key.2 (toString ((units.filter p).map amount).sum).toList ∈ samples fsum (after calls) := by
  obtain ⟨hperm, hupdates⟩ := counted_callers (fun x => ↑(amount x)) h hothers hunit
  have hsum : (counted calls key).sum = (((units.filter p).map amount).sum : Nat) := by
    rw [hperm.sum_eq, Nat.cast_list_sum, List.map_map]
    rfl
  have hshown := counter_shown fsum hkey (hupdates hne) (by omega)
  rwa [hsum] at hshown

/-- A counter to which callers add one. -/
theorem count_shown {α : Type} {units : List α} {f : α → List Call} {p : α → Bool}
    (h : calls.Perm (units.flatMap f ++ others)) (hothers : ∀ c ∈ others, c.metric ≠ key.1)
    (hunit : ∀ x, updates (f x) key = if p x then [.add key 1] else [])
    (hkey : Vocabulary .counter key) (hne : units.filter p ≠ []) :
    sampleOf key.1 key.2 (toString (min (units.countP p) (2 ^ 53))).toList ∈ samples fsum (after calls) := by
  obtain ⟨hperm, hupdates⟩ := counted_callers (fun _ => 1) h hothers hunit
  rw [List.map_const', List.perm_replicate, ← List.countP_eq_length_filter] at hperm
  have hshown := series_shown fsum (.inl hkey) (hupdates hne)
  rwa [counter_value hkey, hperm, Binary64.total_ones, formatNumber_nat] at hshown

/-- **Requests are counted**, each with its duration. -/
theorem requests_counted {requests : List Request} {status : String}
    (h : calls.Perm (requests.flatMap dispatch ++ others))
    (hothers : ∀ c ∈ others, c.metric ≠ "bidscope_http_requests_total" ∧
      c.metric ≠ "bidscope_http_request_duration_seconds")
    (hsome : ∃ r ∈ requests, statusClass r.statusCode = status) :
    ∃ ss, Exposition.read (renderPrometheus fsum (after calls)) = some ss ∧
      sampleOf "bidscope_http_requests_total" [("status", status)]
        (toString (min (requests.countP fun r => statusClass r.statusCode = status) (2 ^ 53))).toList ∈ ss ∧
      sampleOf "bidscope_http_request_duration_seconds_count" [("status", status)]
        (toString (requests.countP fun r => statusClass r.statusCode = status)).toList ∈ ss := by
  have hne : requests.filter (fun r => decide (statusClass r.statusCode = status)) ≠ [] := by
    obtain ⟨r, hr, hstatus⟩ := hsome
    exact List.ne_nil_of_mem (List.mem_filter.mpr ⟨hr, decide_eq_true hstatus⟩)
  have hmem : status ∈ STATUSES := by
    obtain ⟨r, -, rfl⟩ := hsome
    exact statusClass_mem _
  obtain ⟨hcount, hduration⟩ := status_ok hmem
  refine ⟨_, read_render fsum (inVocabulary_after calls), ?_, ?_⟩
  · have hkey : Vocabulary .counter ("bidscope_http_requests_total", [("status", status)]) :=
      vocabulary_of (by decide) hcount
    have hunit : ∀ r, updates (dispatch r) ("bidscope_http_requests_total", [("status", status)]) =
        if decide (statusClass r.statusCode = status) then
          [.add ("bidscope_http_requests_total", [("status", status)]) 1] else [] := fun r => by
      rw [updates_dispatch]
      by_cases hstatus : statusClass r.statusCode = status <;> simp [hstatus]
    exact count_shown fsum h (fun c hc => (hothers c hc).1) hunit hkey hne
  · have hkey : Vocabulary .histogram ("bidscope_http_request_duration_seconds", [("status", status)]) :=
      vocabulary_of (by decide) hduration
    have hunit : ∀ r, updates (dispatch r) ("bidscope_http_request_duration_seconds", [("status", status)]) =
        if decide (statusClass r.statusCode = status) then
          [.append ("bidscope_http_request_duration_seconds", [("status", status)]) (min (max r.elapsed 0) 3600)]
        else [] := fun r => by
      rw [updates_dispatch]
      by_cases hstatus : statusClass r.statusCode = status <;> simp [hstatus]
    have hperm := amounts_callers h (fun c hc => (hothers c hc).2) hunit
    have hlen := hperm.length_eq
    rw [List.length_map, ← List.countP_eq_length_filter] at hlen
    rw [← hlen]
    have hname : "bidscope_http_request_duration_seconds_count" =
        "bidscope_http_request_duration_seconds" ++ "_count" := by decide +kernel
    rw [hname]
    refine histogram_shown fsum hkey (updates_ne hperm (by simpa using hne)) ?_
    exact List.mem_append_right _ (List.mem_cons_of_mem _ (List.mem_cons_self ..))

end

/-- A request that is answered, and one that fails. -/
def twoRequests : List Request := [⟨200, 1 / 2⟩, ⟨503, 4000⟩]

theorem requests_counted_two :
    ∃ ss, Exposition.read (renderPrometheus List.sum (after (twoRequests.flatMap dispatch ++ twoCalls))) = some ss ∧
      sampleOf "bidscope_http_requests_total" [("status", "5xx")]
        (toString (min (twoRequests.countP fun r => statusClass r.statusCode = "5xx") (2 ^ 53))).toList ∈ ss ∧
      sampleOf "bidscope_http_request_duration_seconds_count" [("status", "5xx")]
        (toString (twoRequests.countP fun r => statusClass r.statusCode = "5xx")).toList ∈ ss :=
  requests_counted List.sum (.refl _) (by decide) (by decide)

/-! ## Acquisition runs -/

def ACQUISITION_STATUSES : List String := ["success", "failed", "quarantined", "rate_limited"]

/-- The metrics have the source and the status of the run. -/
abbrev Acquisition.Known (a : Acquisition) : Prop := a.source = "ccgp" ∧ a.status ∈ ACQUISITION_STATUSES

/-- The freshness of the run is within the bound of its gauge. -/
abbrev Acquisition.Recorded (a : Acquisition) : Prop := a.Known ∧ a.age ≤ 1000000

theorem acquisition_ok {status : String} (h : status ∈ ACQUISITION_STATUSES) :
    labelsKey "bidscope_acquisition_runs_total" (some (.ofList [("source", "ccgp"), ("outcome", status)])) =
      .ok [("outcome", status), ("source", "ccgp")] := by
  have hall : ∀ status ∈ ACQUISITION_STATUSES,
      labelsKey "bidscope_acquisition_runs_total" (some (.ofList [("source", "ccgp"), ("outcome", status)])) =
        .ok [("outcome", status), ("source", "ccgp")] := by decide +kernel
  exact hall status h

theorem source_ok : ∀ name ∈ ["bidscope_acquisition_duration_seconds", "bidscope_source_freshness_seconds",
    "bidscope_acquisition_records_total"], labelsKey name (oneValue "source" "ccgp") = .ok [("source", "ccgp")] := by
  decide +kernel

theorem labels_given {supplied : Dict String String} {ls : Labels} (h : labelsKey name (some supplied) = .ok ls) :
    ∃ d, definition name = some d ∧ ∀ l ∈ supplied.entries, l.2 ∈ (Dict.lookup l.1 d.values).getD [] := by
  unfold labelsKey at h
  split at h
  · cases h
  · next d hd =>
    refine ⟨d, hd, fun l hl => ?_⟩
    dsimp only [Option.getD_some] at h
    split at h
    · split at h
      · cases h
      · next hvalid =>
        rw [invalidValue, Option.map_eq_none_iff, List.find?_eq_none] at hvalid
        simpa using hvalid l hl
    · cases h

variable {a : Acquisition}

theorem known_of_labels {ls : Labels} (h : labelsKey "bidscope_acquisition_runs_total"
    (some (.ofList [("source", a.source), ("outcome", a.status)])) = .ok ls) : a.Known := by
  obtain ⟨d, hd, hvalues⟩ := labels_given h
  rw [Dict.entries_ofList (by simp)] at hvalues
  have hall : ∀ m ∈ METRIC_DEFINITIONS, m.1 = "bidscope_acquisition_runs_total" →
      (Dict.lookup "source" m.2.values).getD [] = ["ccgp"] ∧
        (Dict.lookup "outcome" m.2.values).getD [] = ACQUISITION_STATUSES := by decide +kernel
  obtain ⟨hsource, houtcome⟩ := hall _ (definition_mem hd) rfl
  have hs := hvalues ("source", a.source) (List.mem_cons_self ..)
  have ho := hvalues ("outcome", a.status) (List.mem_cons_of_mem _ (List.mem_cons_self ..))
  rw [hsource] at hs
  rw [houtcome] at ho
  exact ⟨List.mem_singleton.mp hs, ho⟩

theorem counter_labels {labels : Option (Dict String String)} {amount : Int}
    (h : (Call.counter name labels amount).check = .ok u) : ∃ ls, labelsKey name labels = .ok ls := by
  simp only [Call.check, counter, keyed] at h
  split at h
  · split at h
    · cases h
    · split at h
      · cases h
      · next ls hls => exact ⟨ls, hls⟩
  · cases h

/-- The first call of a run of another source or status raises, and there are no others. -/
theorem recordMetrics_unknown (h : ¬ a.Known) : updates (recordMetrics a) key = [] := by
  unfold recordMetrics
  dsimp only
  cases hc : (Call.counter "bidscope_acquisition_runs_total"
      (some (.ofList [("source", a.source), ("outcome", a.status)])) 1).check with
  | ok u =>
    obtain ⟨ls, hls⟩ := counter_labels hc
    exact absurd (known_of_labels hls) h
  | error e =>
    rw [suppressed_error hc, updates_error hc]
    rfl

theorem gauge_ok {labels : Option (Dict String String)} {ls : Labels} {q : Rat} (hkind : IsKind name .gauge)
    (h : labelsKey name labels = .ok ls) (hq : -1000000 ≤ q ∧ q ≤ 1000000) :
    (Call.gauge name (some q) labels).check = .ok (.put (name, ls) q) := by
  simp [Call.check, gauge, hkind, keyed, h, Option.filter, hq]

theorem gauge_refused {labels : Option (Dict String String)} {q : Rat} (hkind : IsKind name .gauge)
    (hq : 1000000 < q) :
    (Call.gauge name (some q) labels).check = .error "gauge value is outside the supported bound" := by
  have hbound : ¬ (-1000000 ≤ q ∧ q ≤ 1000000) := fun h => absurd h.2 (not_le.mpr hq)
  simp [Call.check, gauge, hkind, Option.filter, hbound]

theorem recordMetrics_known (h : a.Known) : updates (recordMetrics a) key =
    (if ("bidscope_acquisition_runs_total", [("outcome", a.status), ("source", "ccgp")]) = key then
      [.add ("bidscope_acquisition_runs_total", [("outcome", a.status), ("source", "ccgp")]) 1] else []) ++
    ((if ("bidscope_acquisition_duration_seconds", [("source", "ccgp")]) = key then
      [.append ("bidscope_acquisition_duration_seconds", [("source", "ccgp")]) (min 3600 (max 0 a.elapsed))] else []) ++
    if a.age ≤ 1000000 then
      (if ("bidscope_source_freshness_seconds", [("source", "ccgp")]) = key then
        [.put ("bidscope_source_freshness_seconds", [("source", "ccgp")]) (max 0 a.age)] else []) ++
      if ("bidscope_acquisition_records_total", [("source", "ccgp")]) = key then
        [.add ("bidscope_acquisition_records_total", [("source", "ccgp")]) a.recordCount] else []
    else []) := by
  obtain ⟨hsource, hstatus⟩ := h
  have hcounter := @counter_ok _ _ _ 1 (by decide) (acquisition_ok hstatus) (by decide)
  have hobserve := observe_ok (by decide) (source_ok "bidscope_acquisition_duration_seconds" (by simp))
    (q := min 3600 (max 0 a.elapsed)) ⟨le_min (by norm_num) (le_max_left _ _), min_le_left _ _⟩
  have hrecords := @counter_ok _ _ _ a.recordCount (by decide)
    (source_ok "bidscope_acquisition_records_total" (by simp)) (by omega)
  unfold recordMetrics
  rw [hsource]
  dsimp only
  rw [suppressed_ok hcounter one_fits, suppressed_ok hobserve rfl, updates_add hcounter, updates_append hobserve]
  congr 2
  split
  · next hage =>
    have hgauge := gauge_ok (by decide) (source_ok "bidscope_source_freshness_seconds" (by simp))
      (q := max 0 a.age) ⟨le_trans (by norm_num) (le_max_left _ _), max_le (by norm_num) hage⟩
    rw [suppressed_ok hgauge rfl, suppressed_last, updates_put hgauge, updates_add hrecords]
    rw [updates_nil, List.append_nil]
  · next hage =>
    have hgauge := @gauge_refused "bidscope_source_freshness_seconds" (oneValue "source" "ccgp") (max 0 a.age)
      (by decide) (lt_max_of_lt_right (not_le.mp hage))
    rw [suppressed_error hgauge, updates_error hgauge]
    rfl

section
variable (fsum : List Rat → Rat)

/-- **Acquisition runs are counted**, and the records of those that were fresh. -/
theorem acquisitions_counted {runs : List Acquisition} (h : calls.Perm (runs.flatMap recordMetrics ++ others))
    (hothers : ∀ c ∈ others, c.metric ≠ "bidscope_acquisition_runs_total" ∧
      c.metric ≠ "bidscope_acquisition_records_total") :
    ∃ ss, Exposition.read (renderPrometheus fsum (after calls)) = some ss ∧
      (∀ status ∈ ACQUISITION_STATUSES, (∃ a ∈ runs, a.source = "ccgp" ∧ a.status = status) →
        sampleOf "bidscope_acquisition_runs_total" [("outcome", status), ("source", "ccgp")]
          (toString (min (runs.countP fun a => a.source = "ccgp" ∧ a.status = status) (2 ^ 53))).toList ∈ ss) ∧
      ((∃ a ∈ runs, a.Recorded) → ((runs.filter fun a => a.Recorded).map (·.recordCount)).sum ≤ 2 ^ 53 →
        sampleOf "bidscope_acquisition_records_total" [("source", "ccgp")]
          (toString ((runs.filter fun a => a.Recorded).map (·.recordCount)).sum).toList ∈ ss) := by
  refine ⟨_, read_render fsum (inVocabulary_after calls), fun status hstatus hsome => ?_, fun hsome hexact => ?_⟩
  · have hkey : Vocabulary .counter ("bidscope_acquisition_runs_total", [("outcome", status), ("source", "ccgp")]) :=
      vocabulary_of (by decide) (acquisition_ok hstatus)
    have hne : runs.filter (fun a => decide (a.source = "ccgp" ∧ a.status = status)) ≠ [] := by
      obtain ⟨a, ha, hmatch⟩ := hsome
      exact List.ne_nil_of_mem (List.mem_filter.mpr ⟨ha, decide_eq_true hmatch⟩)
    have hunit : ∀ a, updates (recordMetrics a)
        ("bidscope_acquisition_runs_total", [("outcome", status), ("source", "ccgp")]) =
          if decide (a.source = "ccgp" ∧ a.status = status) then
            [.add ("bidscope_acquisition_runs_total", [("outcome", status), ("source", "ccgp")]) 1]
          else [] := fun a => by
      by_cases hknown : a.Known
      · rw [recordMetrics_known hknown]
        by_cases hmatch : a.status = status <;> simp [hmatch, hknown.1]
      · have hmatch : ¬ (a.source = "ccgp" ∧ a.status = status) := fun hm => hknown ⟨hm.1, hm.2 ▸ hstatus⟩
        rw [recordMetrics_unknown hknown, decide_eq_false hmatch]
        rfl
    exact count_shown fsum h (fun c hc => (hothers c hc).1) hunit hkey hne
  · have hkey : Vocabulary .counter ("bidscope_acquisition_records_total", [("source", "ccgp")]) :=
      vocabulary_of (by decide) (source_ok "bidscope_acquisition_records_total" (by simp))
    have hne : runs.filter (fun a => decide a.Recorded) ≠ [] := by
      obtain ⟨a, ha, hrecorded⟩ := hsome
      exact List.ne_nil_of_mem (List.mem_filter.mpr ⟨ha, decide_eq_true hrecorded⟩)
    refine total_shown fsum h (fun c hc => (hothers c hc).2) (fun a => ?_) hkey hne hexact
    by_cases hknown : a.Known
    · rw [recordMetrics_known hknown]
      by_cases hage : a.age ≤ 1000000 <;> simp [hage, hknown]
    · rw [recordMetrics_unknown hknown, decide_eq_false fun hrecorded => hknown hrecorded.1]
      rfl

end

/-- The last page of the second run was twenty days old. -/
def twoAcquisitions : List Acquisition := [⟨"ccgp", "success", 4, 20, 3⟩, ⟨"ccgp", "success", 4, 5, 1728000⟩]

theorem acquisitions_counted_two :
    ∃ ss, Exposition.read (renderPrometheus List.sum (after (twoAcquisitions.flatMap recordMetrics ++ twoCalls))) =
        some ss ∧
      (∀ status ∈ ACQUISITION_STATUSES, (∃ a ∈ twoAcquisitions, a.source = "ccgp" ∧ a.status = status) →
        sampleOf "bidscope_acquisition_runs_total" [("outcome", status), ("source", "ccgp")]
          (toString (min (twoAcquisitions.countP fun a => a.source = "ccgp" ∧ a.status = status) (2 ^ 53))).toList ∈
            ss) ∧
      ((∃ a ∈ twoAcquisitions, a.Recorded) →
        ((twoAcquisitions.filter fun a => a.Recorded).map (·.recordCount)).sum ≤ 2 ^ 53 →
        sampleOf "bidscope_acquisition_records_total" [("source", "ccgp")]
          (toString ((twoAcquisitions.filter fun a => a.Recorded).map (·.recordCount)).sum).toList ∈ ss) :=
  acquisitions_counted List.sum (.refl _) (by decide)

/-! ## Ticks of the scheduler -/

inductive TickOutcome | skipped | due | timeout | failed
deriving DecidableEq

def TickOutcome.text : TickOutcome → String
  | skipped => "skipped"
  | due => "due"
  | timeout => "timeout"
  | failed => "failed"

/-- What a tick counts, in any of the four places.
mirrors subscriptions/scheduler.py:284-290, 314-319, 347-356 -/
def tick (o : TickOutcome) : List Call :=
  suppressed [.counter "bidscope_scheduler_ticks_total" (oneValue "outcome" o.text) 1]

theorem tick_ok {o : TickOutcome} (h : o ≠ .timeout) :
    labelsKey "bidscope_scheduler_ticks_total" (oneValue "outcome" o.text) = .ok [("outcome", o.text)] := by
  cases o with
  | timeout => exact absurd rfl h
  | skipped => decide +kernel
  | due => decide +kernel
  | failed => decide +kernel

/-- The outcome of a timeout is not in the vocabulary. -/
theorem updates_timeout : updates (tick .timeout) key = [] := by
  have hlabels : labelsKey "bidscope_scheduler_ticks_total" (oneValue "outcome" "timeout") =
      .error "invalid value for label outcome" := by decide +kernel
  have hcheck : (Call.counter "bidscope_scheduler_ticks_total" (oneValue "outcome" "timeout") 1).check =
      .error "invalid value for label outcome" := by
    have hkind : IsKind "bidscope_scheduler_ticks_total" .counter := by decide
    simp [Call.check, counter, hkind, keyed, hlabels]
  unfold tick TickOutcome.text
  rw [suppressed_error hcheck, updates_error hcheck]
  rfl

theorem updates_tick {o : TickOutcome} (h : o ≠ .timeout) : updates (tick o) key =
    if ("bidscope_scheduler_ticks_total", [("outcome", o.text)]) = key then
      [.add ("bidscope_scheduler_ticks_total", [("outcome", o.text)]) 1] else [] := by
  have hcounter := @counter_ok _ _ _ 1 (by decide) (tick_ok h) (by decide)
  unfold tick
  rw [suppressed_last, updates_add hcounter, updates_nil, List.append_nil]

theorem text_injective {o o' : TickOutcome} (h : o.text = o'.text) : o = o' := by
  cases o <;> cases o' <;> first | rfl | exact absurd h (by decide)

theorem vocabulary_of_updates (h : u ∈ updates calls key) : ∃ kind, Vocabulary kind key := by
  obtain ⟨c, -, hc, rfl⟩ := mem_updates.mp h
  cases check_ok hc with
  | counter _ _ _ _ hkey => exact ⟨_, hkey⟩
  | observe _ _ _ _ hkey => exact ⟨_, hkey⟩
  | gauge _ _ _ _ hkey => exact ⟨_, hkey⟩
  | increment _ _ _ hkey => exact ⟨_, hkey⟩
  | decrement _ _ _ hkey => exact ⟨_, hkey⟩

section
variable (fsum : List Rat → Rat)

theorem timeout_not_shown {s : Exposition.Sample} (hs : s ∈ samples fsum (after calls)) :
    seriesOf s ≠ nameOf ("bidscope_scheduler_ticks_total", [("outcome", "timeout")]) := by
  rintro heq
  obtain ⟨key, d, hd, hu, hmem⟩ := shown_called fsum hs
  rw [heq, List.mem_map_of_injective nameOf_injective] at hmem
  obtain ⟨u, hu⟩ := List.exists_mem_of_ne_nil _ hu
  obtain ⟨kind, d', hd', -, hls⟩ := vocabulary_of_updates hu
  rw [Option.some.inj (hd'.symm.trans hd)] at hls
  have hlabels : [("outcome", "timeout")] = key.2 := base_labels hd hls hmem
  have hall : ∀ m ∈ METRIC_DEFINITIONS, "bidscope_scheduler_ticks_total" ∈ metricNames m →
      "timeout" ∉ (Dict.lookup "outcome" m.2.values).getD [] := by decide +kernel
  have hname := @mem_metricNames key.2 (key.1, d) _ hmem
  refine hall (key.1, d) (definition_mem hd) hname ?_
  exact (mem_choices.mp hls).2 ("outcome", "timeout") (hlabels ▸ List.mem_singleton_self _)

/-- **Ticks are counted** under their outcomes, but for those that time out. -/
theorem ticks_counted {ticks : List TickOutcome} (h : calls.Perm (ticks.flatMap tick ++ others))
    (hothers : ∀ c ∈ others, c.metric ≠ "bidscope_scheduler_ticks_total") :
    ∃ ss, Exposition.read (renderPrometheus fsum (after calls)) = some ss ∧
      (∀ o ∈ ticks, o ≠ .timeout → sampleOf "bidscope_scheduler_ticks_total" [("outcome", o.text)]
        (toString (min (ticks.countP (· = o)) (2 ^ 53))).toList ∈ ss) ∧
      ∀ s ∈ ss, seriesOf s ≠ nameOf ("bidscope_scheduler_ticks_total", [("outcome", "timeout")]) := by
  refine ⟨_, read_render fsum (inVocabulary_after calls), fun o ho hne => ?_, fun s hs => timeout_not_shown fsum hs⟩
  have hkey : Vocabulary .counter ("bidscope_scheduler_ticks_total", [("outcome", o.text)]) :=
    vocabulary_of (by decide) (tick_ok hne)
  have hsome : ticks.filter (fun x => decide (x = o)) ≠ [] :=
    List.ne_nil_of_mem (List.mem_filter.mpr ⟨ho, decide_eq_true rfl⟩)
  have hunit : ∀ x, updates (tick x) ("bidscope_scheduler_ticks_total", [("outcome", o.text)]) =
      if decide (x = o) then [.add ("bidscope_scheduler_ticks_total", [("outcome", o.text)]) 1] else [] := by
    intro x
    by_cases hx : x = o
    · subst hx
      simp [updates_tick hne]
    · rw [decide_eq_false hx]
      by_cases htimeout : x = .timeout
      · rw [htimeout, updates_timeout]
        rfl
      · have htext : x.text ≠ o.text := fun heq => hx (text_injective heq)
        simp [updates_tick htimeout, htext]
  exact count_shown fsum h hothers hunit hkey hsome

end

theorem ticks_counted_four :
    ∃ ss, Exposition.read (renderPrometheus List.sum
        (after ([TickOutcome.due, .timeout, .due, .failed].flatMap tick ++ twoCalls))) = some ss ∧
      (∀ o ∈ [TickOutcome.due, .timeout, .due, .failed], o ≠ .timeout →
        sampleOf "bidscope_scheduler_ticks_total" [("outcome", o.text)]
          (toString (min ([TickOutcome.due, .timeout, .due, .failed].countP (· = o)) (2 ^ 53))).toList ∈ ss) ∧
      ∀ s ∈ ss, seriesOf s ≠ nameOf ("bidscope_scheduler_ticks_total", [("outcome", "timeout")]) :=
  ticks_counted List.sum (.refl _) (by decide)

/-! ## Connections of the event stream -/

/-- `accepted`: the response has not begun to read its generator. `dropped`: nor
will it, as its client is gone. -/
inductive Stream | accepted | streaming | closed | dropped
deriving DecidableEq

/-- `active` is `app.state.active_sse_connections`. -/
structure Connections where
  active : Nat
  streams : List Stream
  calls : List Call

inductive ConnectionEvent where
  | request
  | start (i : Nat)
  | finish (i : Nat)
  | drop (i : Nat)
  /-- a call of the registry from elsewhere -/
  | other (c : Call)

def GAUGE : Key := ("bidscope_sse_connections", [])

/-- Between the check and the response nothing else runs; a refused request
is answered with 429.
mirrors api/routes/events.py:82-87 -/
def streamEvents (maxConnections : Nat) (s : Connections) : Connections :=
  if s.active ≥ maxConnections then s
  else ⟨s.active + 1, s.streams ++ [.accepted], s.calls ++ [.incrementGauge "bidscope_sse_connections" none]⟩

/-- The `finally` of the generator, which only runs once it was begun.
mirrors api/routes/events.py:120-123 -/
def endOfStream (s : Connections) (i : Nat) : Connections :=
  ⟨s.active - 1, s.streams.set i .closed, s.calls ++ [.decrementGauge "bidscope_sse_connections" none]⟩

def stepConnections (maxConnections : Nat) (s : Connections) : ConnectionEvent → Option Connections
  | .request => some (streamEvents maxConnections s)
  | .start i => if s.streams[i]? = some .accepted then some { s with streams := s.streams.set i .streaming } else none
  | .finish i => if s.streams[i]? = some .streaming then some (endOfStream s i) else none
  | .drop i => if s.streams[i]? = some .accepted then some { s with streams := s.streams.set i .dropped } else none
  | .other c => if c.metric = GAUGE.1 then none else some { s with calls := s.calls ++ [c] }

def connections (maxConnections : Nat) : LTS Connections ConnectionEvent :=
  .ofFn (· = ⟨0, [], []⟩) (stepConnections maxConnections)

/-- Streams that have a connection of the limit. -/
def Connections.taken (s : Connections) : Nat := s.streams.countP (· ≠ .closed)

variable {maxConnections i : Nat} {s s' : Connections} {st st' : Stream}

/-- The calls so far made of the gauge what the counter is. -/
structure Counted (maxConnections : Nat) (s : Connections) : Prop where
  taken : s.active = s.taken
  bounded : s.active ≤ maxConnections
  gauge : maxConnections ≤ 2 ^ 53 → seriesValue (updates s.calls GAUGE) = .finite s.active
  called : s.streams ≠ [] → updates s.calls GAUGE ≠ []

theorem taken_set (h : s.streams[i]? = some st) :
    (s.streams.set i st').countP (· ≠ .closed) + (if st ≠ .closed then 1 else 0) =
      s.taken + if st' ≠ .closed then 1 else 0 := by
  obtain ⟨hi, rfl⟩ := List.getElem?_eq_some_iff.mp h
  have hle := List.boole_getElem_le_countP (p := fun st : Stream => decide (st ≠ .closed)) hi
  simp only [Connections.taken, List.countP_set hi, decide_eq_true_eq] at hle ⊢
  omega

/-- A stream that keeps its connection. -/
theorem Counted.of_set (h : Counted maxConnections s) (hst : s.streams[i]? = some st) (hopen : st ≠ .closed)
    (hopen' : st' ≠ .closed) : Counted maxConnections { s with streams := s.streams.set i st' } := by
  have htaken := @taken_set i s st st' hst
  rw [if_pos hopen, if_pos hopen'] at htaken
  exact ⟨h.taken.trans (Nat.add_right_cancel htaken).symm, h.bounded, h.gauge, fun hne => h.called (by simpa using hne)⟩

theorem gauge_calls : labelsKey "bidscope_sse_connections" none = .ok [] := by decide +kernel

theorem updates_increment : updates (calls ++ [.incrementGauge "bidscope_sse_connections" none]) GAUGE =
    updates calls GAUGE ++ [.add GAUGE 1] := by
  have hcheck : (Call.incrementGauge "bidscope_sse_connections" none).check = .ok (.add GAUGE 1) := by
    have hkind : IsKind "bidscope_sse_connections" .gauge := by decide
    simp [Call.check, incrementGauge, keyed, gauge_calls, hkind, GAUGE]
  rw [updates_concat, updates_add hcheck, if_pos rfl]
  rfl

theorem updates_decrement : updates (calls ++ [.decrementGauge "bidscope_sse_connections" none]) GAUGE =
    updates calls GAUGE ++ [.add GAUGE (-1)] := by
  have hcheck : (Call.decrementGauge "bidscope_sse_connections" none).check = .ok (.add GAUGE (-1)) := by
    have hkind : IsKind "bidscope_sse_connections" .gauge := by decide
    simp [Call.check, decrementGauge, keyed, gauge_calls, hkind, GAUGE]
  rw [updates_concat, updates_add hcheck, if_pos rfl]
  rfl

theorem updates_elsewhere (h : c.metric ≠ key.1) : updates (calls ++ [c]) key = updates calls key := by
  have hnone : updates [c] key = [] := updates_other fun x hx => by rwa [List.mem_singleton.mp hx]
  rw [updates_concat, hnone, List.append_nil]

theorem seriesValue_add {us : List Update} {n : Int} :
    seriesValue (us ++ [.add key n]) = (seriesValue us).plus n := by
  simp [seriesValue, List.foldl_append, Update.value]

/-- One step of a number of connections is exact. -/
theorem seriesValue_step {us : List Update} {m : Nat} {n : Int} (h : seriesValue us = .finite m) {k : Nat}
    (hk : (m + n : Int) = k) (hn : |n| ≤ 1) (hbound : k ≤ 2 ^ 53) :
    seriesValue (us ++ [.add key n]) = .finite k := by
  have hplus := @Binary64.plus_int m n (hn.trans (by norm_num)) (by rw [hk]; exact_mod_cast hbound)
  rw [seriesValue_add, h, ← Int.cast_natCast m, hplus, hk, Int.cast_natCast]

theorem counted_step {e : ConnectionEvent} (h : Counted maxConnections s)
    (hs : stepConnections maxConnections s e = some s') : Counted maxConnections s' := by
  cases e with
  | request =>
    simp only [stepConnections, Option.some.injEq] at hs
    subst hs
    unfold streamEvents
    split
    · exact h
    · next hfree =>
      have hlt := Nat.lt_of_not_ge hfree
      refine ⟨?_, hlt, fun hmax => ?_, fun _ => ?_⟩
      · have htaken := h.taken
        simp [Connections.taken, List.countP_append] at htaken ⊢
        exact htaken
      · dsimp only
        rw [updates_increment]
        exact seriesValue_step (h.gauge hmax) (by push_cast; rfl) (by decide) (Nat.le_trans hlt hmax)
      · dsimp only
        rw [updates_increment]
        exact List.append_ne_nil_of_right_ne_nil _ (List.cons_ne_nil _ _)
  | start i =>
    simp only [stepConnections] at hs
    split at hs
    · next hst =>
      cases hs
      exact h.of_set hst nofun nofun
    · cases hs
  | drop i =>
    simp only [stepConnections] at hs
    split at hs
    · next hst =>
      cases hs
      exact h.of_set hst nofun nofun
    · cases hs
  | finish i =>
    simp only [stepConnections] at hs
    split at hs
    · next hst =>
      cases hs
      have htaken : (s.streams.set i .closed).countP (· ≠ .closed) + 1 = s.taken :=
        @taken_set i s .streaming .closed hst
      have hactive := h.taken
      have hbound := Nat.le_trans (Nat.sub_le s.active 1) h.bounded
      refine ⟨?_, hbound, fun hmax => ?_, fun hne => ?_⟩
      · show s.active - 1 = (s.streams.set i .closed).countP (· ≠ .closed)
        omega
      · show seriesValue (updates (s.calls ++ _) GAUGE) = .finite ((s.active - 1 : Nat) : Rat)
        rw [updates_decrement]
        exact seriesValue_step (h.gauge hmax) (by omega) (by decide) (Nat.le_trans hbound hmax)
      · show updates (s.calls ++ _) GAUGE ≠ []
        rw [updates_decrement]
        exact List.append_ne_nil_of_right_ne_nil _ (List.cons_ne_nil _ _)
    · cases hs
  | other c =>
    simp only [stepConnections] at hs
    split at hs
    · cases hs
    · next hother =>
      cases hs
      exact ⟨h.taken, h.bounded, by rw [updates_elsewhere hother]; exact h.gauge,
        fun hne => by rw [updates_elsewhere hother]; exact h.called hne⟩

theorem counted_inductive : (connections maxConnections).Inductive (Counted maxConnections) where
  init s hs := by
    cases hs
    exact ⟨rfl, Nat.zero_le _, fun _ => rfl, fun hne => absurd rfl hne⟩
  step _ _ _ h hs := counted_step h hs

/-- What holds of the connections, and of the gauge in the text. -/
structure Capacity (fsum : List Rat → Rat) (maxConnections : Nat) (s : Connections) : Prop where
  bounded : s.streams.countP (· ≠ .closed) ≤ maxConnections
  counted : s.active = s.streams.countP (· ≠ .closed)
  shown : maxConnections ≤ 2 ^ 53 → s.streams ≠ [] →
    ∃ ss, Exposition.read (renderPrometheus fsum (after s.calls)) = some ss ∧
      sampleOf "bidscope_sse_connections" [] (toString s.active).toList ∈ ss
  /-- a response that was never read has its connection for good -/
  freed : (∀ st ∈ s.streams, st = .closed ∨ st = .dropped) → s.active = s.streams.count .dropped

/-- **The limit of connections is kept**, and the text shows their number. -/
theorem connections_capacity (fsum : List Rat → Rat) (hr : (connections maxConnections).Reachable s) :
    Capacity fsum maxConnections s := by
  have h := counted_inductive.reachable s hr
  refine ⟨h.taken.symm.le.trans h.bounded, h.taken, fun hmax hne =>
    ⟨_, read_render fsum (inVocabulary_after s.calls), ?_⟩, fun hall =>
    h.taken.trans (List.countP_congr fun st hst => by rcases hall st hst with rfl | rfl <;> decide)⟩
  have hkey : Vocabulary .gauge GAUGE := vocabulary_of (by decide) gauge_calls
  have hshown := series_shown fsum (.inr hkey) (h.called hne)
  rwa [h.gauge hmax, formatNumber_nat] at hshown

/-- One connection is served, and another is refused meanwhile. -/
def oneServed : List ConnectionEvent := [.request, .start 0, .request, .finish 0, .request]

theorem connections_capacity_one : Capacity List.sum 1
    ((LTS.exec (stepConnections 1) ⟨0, [], []⟩ oneServed).get (by rfl)) :=
  connections_capacity List.sum (LTS.reachable_of_exec oneServed (by rfl) _)

end BidScope.L14
