import BidScope.Core.Binary64
import BidScope.Core.Dict
import BidScope.Core.Exposition
import BidScope.Core.KeyOrder
import Mathlib.Data.Nat.Log
import Mathlib.Data.Prod.Lex
import Mathlib.Data.String.Basic

/-!
# The metrics of a process

`MetricsRegistry` keeps counters, gauges and histograms under names and label
values of a fixed vocabulary, and `render_prometheus` writes them as text. Any
number of threads call it; a call checks its arguments, and then changes the
registry under a lock, so a run is the list of the calls as they get the lock.

**Floats.** Counters and gauges are floats (`Binary64`), and an amount is an
integer: a counter is exact up to 2^53 and rounded from there on, and an amount
that no float reaches raises `OverflowError`. A value observed or put is a float
that the caller has, finite or not. The text shows the whole floats as integers
and the others with 12 digits; the sum of a histogram is `sum` of its floats, a
parameter (`fsum`) of which nothing is assumed.

**Hypothesis (`CountsExactly`).** No counter has gone beyond 2^53.

* `inVocabulary_after`: no run makes a series outside the vocabulary.
* `scrape_read`: a scraper that reads the text gets back what was counted: no
  series twice, 254 at most, whatever is called; a counter up to 2^53 is the sum
  of its amounts (`counter_exact`).
* `scrape_order_free`: counters and buckets do not depend on the order of the
  calls, while `CountsExactly`.

Left out: several processes, each with a registry of its own, and the HTTP route
that returns the text.
-/
namespace BidScope.L14

open KeyOrder
open Exposition (Sample)

/-! ## Definitions -/

inductive Kind | counter | histogram | gauge
deriving DecidableEq

/-- mirrors observability.py:164-168 -/
structure MetricDefinition where
  kind : Kind
  labels : List String
  values : List (String × List String)

def STATUSES : List String := ["1xx", "2xx", "3xx", "4xx", "5xx", "unknown"]

/-- A metric with one label. -/
def oneLabel (kind : Kind) (label : String) (values : List String) : MetricDefinition :=
  ⟨kind, [label], [(label, values)]⟩

/-- mirrors observability.py:171-265 -/
def METRIC_DEFINITIONS : List (String × MetricDefinition) :=
  [("bidscope_http_requests_total", oneLabel .counter "status" STATUSES),
    ("bidscope_http_request_duration_seconds", oneLabel .histogram "status" STATUSES),
    ("bidscope_runs_total", oneLabel .counter "outcome"
      ["pending", "running", "completed", "retryable", "awaiting_confirmation", "cancelled"]),
    ("bidscope_run_node_duration_seconds", oneLabel .histogram "node"
      ["intent", "duplicate", "retrieval", "report", "persist", "unknown"]),
    ("bidscope_run_failures_total", oneLabel .counter "error_code"
      ["validation", "graph_node_error", "ownership_lost", "dependency_unavailable", "unknown"]),
    ("bidscope_sse_connections", ⟨.gauge, [], []⟩),
    ("bidscope_scheduler_ticks_total", oneLabel .counter "outcome" ["due", "ran", "skipped", "failed"]),
    ("bidscope_snapshot_imports_total", ⟨.counter, ["outcome", "source"],
      [("outcome", ["success", "failed", "skipped"]), ("source", ["ccgp", "ggzy", "synthetic_demo", "unknown"])]⟩),
    ("bidscope_report_delivery_duration_seconds", oneLabel .histogram "outcome" ["success", "failed"]),
    ("bidscope_dependency_failures_total", oneLabel .counter "source"
      ["database", "checkpoint", "object_store", "unknown"]),
    ("bidscope_acquisition_runs_total", ⟨.counter, ["source", "outcome"],
      [("source", ["ccgp"]), ("outcome", ["success", "failed", "quarantined", "rate_limited"])]⟩),
    ("bidscope_acquisition_duration_seconds", oneLabel .histogram "source" ["ccgp"]),
    ("bidscope_source_freshness_seconds", oneLabel .gauge "source" ["ccgp"]),
    ("bidscope_acquisition_records_total", oneLabel .counter "source" ["ccgp"])]

/-- The floats nearest to 0.005, 0.01, 0.025, 0.05, 0.1, 0.25, 0.5, 1, 2.5, 5 and 10. -/
def HISTOGRAM_BUCKETS : List Rat :=
  [5764607523034235 / 2 ^ 60, 5764607523034235 / 2 ^ 59, 3602879701896397 / 2 ^ 57, 3602879701896397 / 2 ^ 56,
    3602879701896397 / 2 ^ 55, 1 / 4, 1 / 2, 1, 5 / 2, 5, 10]

/-! ## The registry -/

abbrev Labels := List (String × String)

abbrev Key := String × Labels

structure MetricsRegistry where
  values : Dict Key Binary64
  histograms : Dict Key (List Rat)

def definition (name : String) : Option MetricDefinition := Dict.lookup name METRIC_DEFINITIONS

def invalidValue (d : MetricDefinition) (supplied : Dict String String) : Option String :=
  (supplied.entries.find? fun e => !((Dict.lookup e.1 d.values).getD []).contains e.2).map Prod.fst

/-- mirrors observability.py:293-304 -/
def labelsKey (name : String) (labels : Option (Dict String String)) : Except String Labels :=
  match definition name with
  | none => .error ("unknown metric: " ++ name)
  | some d =>
    let supplied := labels.getD .empty
    if supplied.keys ⊆ d.labels ∧ d.labels ⊆ supplied.keys then
      match invalidValue d supplied with
      | some label => .error ("invalid value for label " ++ label)
      | none => .ok (orderBy Prod.fst supplied.entries)
    else .error ("invalid labels for " ++ name)

def IsKind (name : String) (kind : Kind) : Prop := (definition name).map (·.kind) = some kind

instance (name : String) (kind : Kind) : Decidable (IsKind name kind) := inferInstanceAs (Decidable (_ = _))

/-- What a call does under the lock. -/
inductive Update where
  | add (key : Key) (amount : Int)
  | append (key : Key) (value : Rat)
  | put (key : Key) (value : Rat)

/-- A missing value becomes 0.0 first, and stays so when the addition raises. -/
def Update.run (r : MetricsRegistry) : Update → MetricsRegistry
  | add key amount => { r with values := r.values.set key (((r.values.get key).getD (.finite 0)).plus amount) }
  | append key value => { r with histograms := r.histograms.set key ((r.histograms.get key).getD [] ++ [value]) }
  | put key value => { r with values := r.values.set key (.finite value) }

/-- An amount too large for a float is an `OverflowError`. -/
def Update.overflows : Update → Bool
  | add _ amount => (Binary64.ofInt amount).isNone
  | append _ _ | put _ _ => false

/-- A float is `none` when it is infinite or not a number. -/
inductive Call where
  | counter (name : String) (labels : Option (Dict String String)) (amount : Int)
  | observe (name : String) (value : Option Rat) (labels : Option (Dict String String))
  | gauge (name : String) (value : Option Rat) (labels : Option (Dict String String))
  | incrementGauge (name : String) (labels : Option (Dict String String))
  | decrementGauge (name : String) (labels : Option (Dict String String))

def keyed (name : String) (labels : Option (Dict String String)) (update : Key → Update) : Except String Update :=
  match labelsKey name labels with
  | .error e => .error e
  | .ok key => .ok (update (name, key))

/-- mirrors observability.py:306-319 -/
def counter (name : String) (labels : Option (Dict String String)) (amount : Int) : Except String Update :=
  if IsKind name .counter then
    if amount < 0 then .error "counter amount must be non-negative"
    else keyed name labels fun key => .add key amount
  else .error ("metric is not a counter: " ++ name)

/-- mirrors observability.py:321-329 -/
def observe (name : String) (value : Option Rat) (labels : Option (Dict String String)) : Except String Update :=
  if IsKind name .histogram then
    match value.filter fun q => decide (0 ≤ q ∧ q ≤ 3600) with
    | none => .error "histogram value is outside the supported bound"
    | some q => keyed name labels fun key => .append key q
  else .error ("metric is not a histogram: " ++ name)

/-- mirrors observability.py:331-339 -/
def gauge (name : String) (value : Option Rat) (labels : Option (Dict String String)) : Except String Update :=
  if IsKind name .gauge then
    match value.filter fun q => decide (-1000000 ≤ q ∧ q ≤ 1000000) with
    | none => .error "gauge value is outside the supported bound"
    | some q => keyed name labels fun key => .put key q
  else .error ("metric is not a gauge: " ++ name)

/-- The labels are looked at first.
mirrors observability.py:341-347 -/
def incrementGauge (name : String) (labels : Option (Dict String String)) : Except String Update :=
  match keyed name labels fun key => .add key 1 with
  | .error e => .error e
  | .ok update => if IsKind name .gauge then .ok update else .error ("metric is not a gauge: " ++ name)

/-- mirrors observability.py:349-355 -/
def decrementGauge (name : String) (labels : Option (Dict String String)) : Except String Update :=
  if IsKind name .gauge then keyed name labels fun key => .add key (-1)
  else .error ("metric is not a gauge: " ++ name)

/-- What a call checks before it takes the lock. -/
def Call.check : Call → Except String Update
  | counter name labels amount => BidScope.L14.counter name labels amount
  | observe name value labels => BidScope.L14.observe name value labels
  | gauge name value labels => BidScope.L14.gauge name value labels
  | incrementGauge name labels => BidScope.L14.incrementGauge name labels
  | decrementGauge name labels => BidScope.L14.decrementGauge name labels

def emptyRegistry : MetricsRegistry := ⟨.empty, .empty⟩

/-- A call that its checks refuse changes nothing. -/
def Call.run (r : MetricsRegistry) (call : Call) : MetricsRegistry :=
  match call.check with
  | .error _ => r
  | .ok update => update.run r

/-- The registry behind the calls, in the order in which they got the lock. -/
def after (calls : List Call) : MetricsRegistry := calls.foldl Call.run emptyRegistry

/-! ## Numbers as text -/

/-- The power of ten of the first digit of a positive number. -/
def exponent10 (q : Rat) : Int :=
  if 1 ≤ q then (Nat.log 10 ⌊q⌋.toNat : Int) else -(Nat.clog 10 ⌈1 / q⌉.toNat : Int)

def stripZeros (digits : List Char) : List Char := (digits.reverse.dropWhile (· == '0')).reverse

def withPoint (whole fraction : List Char) : List Char := if fraction = [] then whole else whole ++ '.' :: fraction

/-- At least two digits. -/
def exponentText (e : Int) : List Char :=
  let digits := Nat.toDigits 10 e.natAbs
  'e' :: (if e < 0 then '-' else '+') :: (if digits.length < 2 then '0' :: digits else digits)

/-- `format(value, ".12g")` of a value that is no integer. -/
def formatG12 (q : Rat) : List Char :=
  let e := exponent10 |q|
  let m := (roundHalfEven (|q| * 10 ^ (11 - e))).toNat
  let (e, m) := if m = 10 ^ 12 then (e + 1, 10 ^ 11) else (e, m)
  let digits := stripZeros (Nat.toDigits 10 m)
  let body :=
    if e < -4 ∨ 12 ≤ e then withPoint (digits.take 1) (digits.drop 1) ++ exponentText e
    else if e < 0 then withPoint ['0'] (List.replicate (-e - 1).toNat '0' ++ digits)
    else
      let n := e.toNat + 1
      withPoint (digits.take n ++ List.replicate (n - digits.length) '0') (digits.drop n)
  if q < 0 then '-' :: body else body

/-- mirrors observability.py:408-411 -/
def formatNumber : Binary64 → List Char
  | .finite q => if q.den = 1 then (toString q.num).toList else formatG12 q
  | .infinite negative => if negative then "-inf".toList else "inf".toList

/-! ## The text -/

/-- `text.replace(c, new)` for one character. -/
def replaceChar (c : Char) (new text : List Char) : List Char := text.flatMap fun x => if x = c then new else [x]

def escapeValue (value : String) : List Char :=
  replaceChar '"' ['\\', '"'] (replaceChar '\\' ['\\', '\\'] value.toList)

/-- mirrors observability.py:357-365 -/
def renderLabels (labels : Labels) : List Char :=
  if labels = [] then []
  else '{' :: (Text.join [','] (labels.map fun l => l.1.toList ++ '=' :: '"' :: (escapeValue l.2 ++ ['"'])) ++ ['}'])

def sampleLine (name : String) (labels : Labels) (value : List Char) : List Char :=
  name.toList ++ renderLabels labels ++ ' ' :: value

def Kind.text : Kind → String
  | counter => "counter"
  | histogram => "histogram"
  | gauge => "gauge"

/-- With the label of a bucket behind the others. -/
def bucketLabels (labels : Labels) (le : String) : Labels := labels.filter (fun l => l.1 != "le") ++ [("le", le)]

/-- How items are sorted. -/
def itemKey (key : Key) : Lex (String × List (Lex (String × String))) := toLex (key.1, key.2.map toLex)

def sortedItems {α : Type} (d : Dict Key α) : List (Key × α) := orderBy (fun e => itemKey e.1) d.entries

section
variable (fsum : List Rat → Rat)

/-- mirrors observability.py:378-400 -/
def histogramLines (name : String) (labels : Labels) (observations : List Rat) : List (List Char) :=
  HISTOGRAM_BUCKETS.map (fun bucket =>
    sampleLine (name ++ "_bucket") (bucketLabels labels (.ofList (formatNumber (.finite bucket))))
      (toString (observations.countP (· ≤ bucket))).toList) ++
  [sampleLine (name ++ "_bucket") (bucketLabels labels "+Inf") (toString observations.length).toList,
    sampleLine (name ++ "_count") labels (toString observations.length).toList,
    sampleLine (name ++ "_sum") labels (formatNumber (.finite (fsum observations)))]

def metricLines (r : MetricsRegistry) (name : String) (d : MetricDefinition) : List (List Char) :=
  ("# TYPE ".toList ++ name.toList ++ ' ' :: d.kind.text.toList) ::
    match d.kind with
    | .histogram =>
      (sortedItems r.histograms).flatMap fun e => if e.1.1 = name then histogramLines fsum name e.1.2 e.2 else []
    | _ =>
      (sortedItems r.values).flatMap fun e =>
        if e.1.1 = name then [sampleLine name e.1.2 (formatNumber e.2)] else []

/-- `fsum` is the sum of floats, in their order.
mirrors observability.py:367-405 -/
def renderPrometheus (r : MetricsRegistry) : List Char :=
  Text.join ['\n'] (METRIC_DEFINITIONS.flatMap fun m => metricLines fsum r m.1 m.2) ++ ['\n']

end

/-! ## The vocabulary -/

/-- Values for the labels, in every way the vocabulary has. -/
def choices (d : MetricDefinition) : List String → List Labels
  | [] => [[]]
  | name :: names => ((Dict.lookup name d.values).getD []).flatMap fun v => (choices d names).map ((name, v) :: ·)

def vocabulary (d : MetricDefinition) : List Labels := choices d (orderBy id d.labels)

variable {name : String} {labels : Option (Dict String String)} {d : MetricDefinition} {ls : Labels} {key k : Key}
  {calls calls' : List Call} {c : Call} {u : Update} {r : MetricsRegistry}

theorem mem_choices {names : List String} : ls ∈ choices d names ↔
    ls.map Prod.fst = names ∧ ∀ l ∈ ls, l.2 ∈ (Dict.lookup l.1 d.values).getD [] := by
  induction names generalizing ls with
  | nil => cases ls <;> simp [choices]
  | cons n names ih =>
    simp only [choices, List.mem_flatMap, List.mem_map]
    constructor
    · rintro ⟨v, hv, rest, hrest, rfl⟩
      obtain ⟨hnames, hvalues⟩ := ih.mp hrest
      exact ⟨by rw [List.map_cons, hnames], List.forall_mem_cons.mpr ⟨hv, hvalues⟩⟩
    · rintro ⟨hnames, hvalues⟩
      cases ls with
      | nil => cases hnames
      | cons l rest =>
        obtain ⟨rfl, hrest⟩ := List.cons.inj hnames
        obtain ⟨hl, hvalues⟩ := List.forall_mem_cons.mp hvalues
        exact ⟨l.2, hl, rest, ih.mpr ⟨hrest, hvalues⟩, rfl⟩

theorem definition_mem (h : definition name = some d) : (name, d) ∈ METRIC_DEFINITIONS :=
  (Dict.lookup_eq_some (by decide)).mp h

theorem labels_nodup (h : definition name = some d) : d.labels.Nodup := by
  have hall : ∀ m ∈ METRIC_DEFINITIONS, m.2.labels.Nodup := by decide
  exact hall _ (definition_mem h)

theorem labelsKey_ok (h : labelsKey name labels = .ok ls) : ∃ d, definition name = some d ∧ ls ∈ vocabulary d := by
  unfold labelsKey at h
  split at h
  · cases h
  · next d hd =>
    dsimp only at h
    generalize labels.getD .empty = supplied at h
    split at h
    · next hsame =>
      split at h
      · cases h
      · next hvalid =>
        cases h
        refine ⟨d, hd, mem_choices.mpr ⟨?_, fun l hl => ?_⟩⟩
        · have hperm : supplied.keys.Perm d.labels :=
            (List.perm_ext_iff_of_nodup supplied.distinct (labels_nodup hd)).mpr fun x =>
              ⟨fun hx => hsame.1 hx, fun hx => hsame.2 hx⟩
          have hsorted : (orderBy Prod.fst supplied.entries).map Prod.fst = orderBy id supplied.keys :=
            map_orderBy Prod.fst id supplied.entries
          rw [hsorted]
          refine orderBy_unique ((orderBy_perm id d.labels).trans hperm.symm) ?_ (orderBy_sorted id d.labels)
          rw [List.map_id]
          exact supplied.distinct
        · have hmem := (orderBy_perm Prod.fst supplied.entries).subset hl
          rw [invalidValue, Option.map_eq_none_iff, List.find?_eq_none] at hvalid
          simpa using hvalid l hmem
    · cases h

/-- The series is one of a metric of the kind. -/
def Vocabulary (kind : Kind) (key : Key) : Prop :=
  ∃ d, definition key.1 = some d ∧ d.kind = kind ∧ key.2 ∈ vocabulary d

theorem vocabulary_kind {kind kind' : Kind} (h : Vocabulary kind key) (h' : Vocabulary kind' key) : kind = kind' := by
  obtain ⟨d, hd, rfl, -⟩ := h
  obtain ⟨d', hd', rfl, -⟩ := h'
  rw [Option.some.inj (hd.symm.trans hd')]

theorem vocabulary_of {kind : Kind} (hkind : IsKind name kind) (h : labelsKey name labels = .ok ls) :
    Vocabulary kind (name, ls) := by
  obtain ⟨d, hd, hmem⟩ := labelsKey_ok h
  rw [IsKind, hd] at hkind
  exact ⟨d, hd, Option.some.inj hkind, hmem⟩

theorem keyed_ok {update : Key → Update} {kind : Kind} (hkind : IsKind name kind)
    (h : keyed name labels update = .ok u) : ∃ key, Vocabulary kind key ∧ key.1 = name ∧ u = update key := by
  unfold keyed at h
  split at h
  · cases h
  · next ls hls => exact ⟨(name, ls), vocabulary_of hkind hls, rfl, (Except.ok.inj h).symm⟩

/-- A call that passes its checks, and what it does then. -/
inductive Admitted : Call → Update → Prop where
  | counter (n : String) (ls : Option (Dict String String)) (amount : Int) (key : Key) (h : Vocabulary .counter key)
    (hpos : 0 ≤ amount) (hname : key.1 = n) : Admitted (.counter n ls amount) (.add key amount)
  | observe (n : String) (ls : Option (Dict String String)) (q : Rat) (key : Key) (h : Vocabulary .histogram key)
    (hbound : 0 ≤ q ∧ q ≤ 3600) (hname : key.1 = n) : Admitted (.observe n (some q) ls) (.append key q)
  | gauge (n : String) (ls : Option (Dict String String)) (q : Rat) (key : Key) (h : Vocabulary .gauge key)
    (hbound : -1000000 ≤ q ∧ q ≤ 1000000) (hname : key.1 = n) : Admitted (.gauge n (some q) ls) (.put key q)
  | increment (n : String) (ls : Option (Dict String String)) (key : Key) (h : Vocabulary .gauge key)
    (hname : key.1 = n) : Admitted (.incrementGauge n ls) (.add key 1)
  | decrement (n : String) (ls : Option (Dict String String)) (key : Key) (h : Vocabulary .gauge key)
    (hname : key.1 = n) : Admitted (.decrementGauge n ls) (.add key (-1))

theorem check_ok (h : c.check = .ok u) : Admitted c u := by
  cases c with
  | counter name labels amount =>
    simp only [Call.check, counter] at h
    split at h
    · next hkind =>
      split at h
      · cases h
      · next hneg =>
        obtain ⟨key, hkey, hname, rfl⟩ := keyed_ok hkind h
        exact .counter _ _ _ _ hkey (by omega) hname
    · cases h
  | observe name value labels =>
    simp only [Call.check, observe] at h
    split at h
    · next hkind =>
      split at h
      · cases h
      · next q hq =>
        obtain ⟨rfl, hbound⟩ := Option.filter_eq_some_iff.mp hq
        obtain ⟨key, hkey, hname, rfl⟩ := keyed_ok hkind h
        exact .observe _ _ _ _ hkey (of_decide_eq_true hbound) hname
    · cases h
  | gauge name value labels =>
    simp only [Call.check, gauge] at h
    split at h
    · next hkind =>
      split at h
      · cases h
      · next q hq =>
        obtain ⟨rfl, hbound⟩ := Option.filter_eq_some_iff.mp hq
        obtain ⟨key, hkey, hname, rfl⟩ := keyed_ok hkind h
        exact .gauge _ _ _ _ hkey (of_decide_eq_true hbound) hname
    · cases h
  | incrementGauge name labels =>
    simp only [Call.check, incrementGauge] at h
    split at h
    · cases h
    · next update hupdate =>
      split at h
      · next hkind =>
        cases h
        obtain ⟨key, hkey, hname, rfl⟩ := keyed_ok hkind hupdate
        exact .increment _ _ _ hkey hname
      · cases h
  | decrementGauge name labels =>
    simp only [Call.check, decrementGauge] at h
    split at h
    · next hkind =>
      obtain ⟨key, hkey, hname, rfl⟩ := keyed_ok hkind h
      exact .decrement _ _ _ hkey hname
    · cases h

/-- Every series is one of the vocabulary. -/
structure InVocabulary (r : MetricsRegistry) : Prop where
  values : ∀ key ∈ r.values.keys, Vocabulary .counter key ∨ Vocabulary .gauge key
  histograms : ∀ key ∈ r.histograms.keys, Vocabulary .histogram key

theorem mem_keys_set {κ α : Type} [DecidableEq κ] {d : Dict κ α} {k x : κ} {v : α} (h : x ∈ (d.set k v).keys) :
    x = k ∨ x ∈ d.keys := by
  rw [Dict.mem_keys, Dict.get_set] at h
  split at h
  · next heq => exact .inl heq.symm
  · exact .inr ((Dict.mem_keys d x).mpr h)

theorem InVocabulary.run (h : InVocabulary r) (c : Call) : InVocabulary (c.run r) := by
  unfold Call.run
  split
  · exact h
  · next u hu =>
    have hput : ∀ {key q}, Vocabulary .counter key ∨ Vocabulary .gauge key →
        InVocabulary { r with values := r.values.set key q } := fun hkey =>
      ⟨fun x hx => (mem_keys_set hx).elim (fun heq => heq ▸ hkey) (h.values x), h.histograms⟩
    cases check_ok hu with
    | counter _ _ _ _ hkey => exact hput (.inl hkey)
    | observe _ _ _ _ hkey =>
      exact ⟨h.values, fun x hx => (mem_keys_set hx).elim (fun heq => heq ▸ hkey) (h.histograms x)⟩
    | gauge _ _ _ _ hkey => exact hput (.inr hkey)
    | increment _ _ _ hkey => exact hput (.inr hkey)
    | decrement _ _ _ hkey => exact hput (.inr hkey)

theorem inVocabulary_after (calls : List Call) : InVocabulary (after calls) := by
  unfold after
  have hempty : InVocabulary emptyRegistry := ⟨nofun, nofun⟩
  generalize emptyRegistry = r at hempty ⊢
  induction calls generalizing r with
  | nil => exact hempty
  | cons c calls ih => exact ih _ (hempty.run c)

/-! ## What is counted -/

def Update.series : Update → Key
  | add key _ | append key _ | put key _ => key

def Update.amount : Update → Rat
  | add _ n => n
  | append _ q | put _ q => q

/-- What the calls do to a series, in their order. -/
def updates (calls : List Call) (key : Key) : List Update :=
  calls.filterMap fun c =>
    match c.check with
    | .ok u => if u.series = key then some u else none
    | .error _ => none

/-- The amounts of the series. -/
def amounts (calls : List Call) (key : Key) : List Rat := (updates calls key).map Update.amount

/-- What an update makes of the value of its series. -/
def Update.value (v : Option Binary64) : Update → Option Binary64
  | add _ n => some ((v.getD (.finite 0)).plus n)
  | append _ _ => v
  | put _ q => some (.finite q)

def Update.observed (obs : Option (List Rat)) : Update → Option (List Rat)
  | append _ q => some (obs.getD [] ++ [q])
  | add _ _ | put _ _ => obs

theorem mem_updates : u ∈ updates calls key ↔ ∃ c ∈ calls, c.check = .ok u ∧ u.series = key := by
  rw [updates, List.mem_filterMap]
  refine exists_congr fun c => and_congr_right fun _ => ?_
  cases hc : c.check with
  | error e => simp
  | ok u' => by_cases hk : u'.series = key <;> simp [hk, eq_comm] <;> grind

theorem updates_concat : updates (calls ++ calls') key = updates calls key ++ updates calls' key :=
  List.filterMap_append

theorem updates_cons (c : Call) (calls : List Call) : updates (c :: calls) key = updates [c] key ++ updates calls key :=
  @updates_concat key [c] calls

theorem run_values : (c.run r).values.get key = (updates [c] key).foldl Update.value (r.values.get key) := by
  unfold Call.run updates
  rw [List.filterMap_cons]
  cases hc : c.check with
  | error e => rfl
  | ok u =>
    by_cases hk : u.series = key
    · subst hk
      cases u <;> simp [Update.run, Update.value, Update.series]
    · cases u <;> simp_all [Update.run, Update.series]

theorem run_histograms :
    (c.run r).histograms.get key = (updates [c] key).foldl Update.observed (r.histograms.get key) := by
  unfold Call.run updates
  rw [List.filterMap_cons]
  cases hc : c.check with
  | error e => rfl
  | ok u =>
    by_cases hk : u.series = key
    · subst hk
      cases u <;> simp [Update.run, Update.observed, Update.series]
    · cases u <;> simp_all [Update.run, Update.series]

/-- What a call makes of a series, all the calls make of it in their order. -/
theorem after_fold {α : Type} {read : MetricsRegistry → α} {f : α → Update → α}
    (h : ∀ c r, read (Call.run r c) = (updates [c] key).foldl f (read r)) :
    read (after calls) = (updates calls key).foldl f (read emptyRegistry) := by
  unfold after
  generalize emptyRegistry = r
  induction calls generalizing r with
  | nil => rfl
  | cons c calls ih => rw [List.foldl_cons, ih, h, updates_cons c calls, List.foldl_append]

theorem after_values : (after calls).values.get key = (updates calls key).foldl Update.value none :=
  @after_fold key calls _ (fun r => r.values.get key) _ fun _ _ => run_values

theorem after_histograms : (after calls).histograms.get key = (updates calls key).foldl Update.observed none :=
  @after_fold key calls _ (fun r => r.histograms.get key) _ fun _ _ => run_histograms

/-- Nothing but the method of the kind changes a counter or a histogram. -/
theorem updates_counter (h : Vocabulary .counter key) (hu : u ∈ updates calls key) :
    ∃ n, 0 ≤ n ∧ u = .add key n := by
  obtain ⟨c, -, hc, rfl⟩ := mem_updates.mp hu
  cases check_ok hc with
  | counter _ _ amount key _ hpos => exact ⟨amount, hpos, rfl⟩
  | observe _ _ _ _ h' => cases vocabulary_kind h h'
  | gauge _ _ _ _ h' => cases vocabulary_kind h h'
  | increment _ _ _ h' => cases vocabulary_kind h h'
  | decrement _ _ _ h' => cases vocabulary_kind h h'

theorem updates_histogram (h : Vocabulary .histogram key) (hu : u ∈ updates calls key) :
    ∃ q, (0 ≤ q ∧ q ≤ 3600) ∧ u = .append key q := by
  obtain ⟨c, -, hc, rfl⟩ := mem_updates.mp hu
  cases check_ok hc with
  | observe _ _ q key _ hbound => exact ⟨q, hbound, rfl⟩
  | counter _ _ _ _ h' => cases vocabulary_kind h h'
  | gauge _ _ _ _ h' => cases vocabulary_kind h h'
  | increment _ _ _ h' => cases vocabulary_kind h h'
  | decrement _ _ _ h' => cases vocabulary_kind h h'

theorem updates_gauge (h : Vocabulary .gauge key) (hu : u ∈ updates calls key) :
    (∃ n, u = .add key n) ∨ ∃ q, u = .put key q := by
  obtain ⟨c, -, hc, rfl⟩ := mem_updates.mp hu
  cases check_ok hc with
  | gauge _ _ q key => exact .inr ⟨q, rfl⟩
  | increment _ _ key => exact .inl ⟨1, rfl⟩
  | decrement _ _ key => exact .inl ⟨-1, rfl⟩
  | counter _ _ _ _ h' => cases vocabulary_kind h h'
  | observe _ _ _ _ h' => cases vocabulary_kind h h'

/-- A histogram has its observations, in their order. -/
theorem histogram_after (h : Vocabulary .histogram key) : (after calls).histograms.get key =
    if updates calls key = [] then none else some (amounts calls key) := by
  have happends := fun u => @updates_histogram key calls u h
  rw [after_histograms, amounts]
  generalize updates calls key = us at happends
  have hfold : ∀ obs, us.foldl Update.observed obs =
      if us = [] then obs else some (obs.getD [] ++ us.map Update.amount) := by
    induction us with
    | nil => simp
    | cons u us ih =>
      intro obs
      obtain ⟨q, -, rfl⟩ := happends u (List.mem_cons_self ..)
      rw [List.foldl_cons, ih fun u hu => happends u (List.mem_cons_of_mem _ hu)]
      by_cases hnil : us = []
      · simp [hnil, Update.observed, Update.amount]
      · simp [hnil, Update.observed, Update.amount]
  simpa using hfold none

/-- What was put last, and the amounts since, added one after the other. -/
def seriesValue (us : List Update) : Binary64 := (us.foldl Update.value none).getD (.finite 0)

/-- A value is there when it was, or an update makes one. -/
theorem foldl_isSome {α : Type} {f : Option α → Update → Option α}
    (hf : ∀ v u, (f v u).isSome = true ↔ v.isSome = true ∨ (f none u).isSome = true) {us : List Update} {v : Option α} :
    (us.foldl f v).isSome = true ↔ v.isSome = true ∨ ∃ u ∈ us, (f none u).isSome = true := by
  induction us generalizing v with
  | nil => simp
  | cons u us ih => rw [List.foldl_cons, ih, hf v u, List.exists_mem_cons_iff, or_assoc]

theorem value_isSome {us : List Update} {v : Option Binary64} : (us.foldl Update.value v).isSome = true ↔
    v.isSome = true ∨ ∃ u ∈ us, (Update.value none u).isSome = true :=
  foldl_isSome fun v u => by cases u <;> simp [Update.value]

theorem observed_isSome {us : List Update} {obs : Option (List Rat)} : (us.foldl Update.observed obs).isSome = true ↔
    obs.isSome = true ∨ ∃ u ∈ us, (Update.observed none u).isSome = true :=
  foldl_isSome fun obs u => by cases u <;> simp [Update.observed]

theorem value_after (h : Vocabulary .counter key ∨ Vocabulary .gauge key) (hu : updates calls key ≠ []) :
    (after calls).values.get key = some (seriesValue (updates calls key)) := by
  obtain ⟨u, us, hus⟩ := List.exists_cons_of_ne_nil hu
  have hmem : u ∈ updates calls key := by rw [hus]; exact List.mem_cons_self ..
  have hvalued : (Update.value none u).isSome = true := by
    rcases h with h | h
    · obtain ⟨n, -, rfl⟩ := updates_counter h hmem
      rfl
    · rcases updates_gauge h hmem with ⟨n, rfl⟩ | ⟨q, rfl⟩ <;> rfl
  obtain ⟨v, hv⟩ := Option.isSome_iff_exists.mp
    (value_isSome (v := none).mpr (.inr ⟨u, hmem, hvalued⟩))
  rw [after_values, seriesValue, hv, Option.getD_some]

def Update.added : Update → Option Int
  | add _ n => some n
  | append _ _ | put _ _ => none

/-- What is added to a series, in the order of the calls. -/
def counted (calls : List Call) (key : Key) : List Int := (updates calls key).filterMap Update.added

/-- What is added to any series. -/
def allCounted (calls : List Call) : List Int := calls.filterMap fun c => c.check.toOption.bind Update.added

theorem counted_sublist (calls : List Call) (key : Key) : (counted calls key).Sublist (allCounted calls) := by
  have hsub : (updates calls key).Sublist (calls.filterMap fun c => c.check.toOption) := by
    induction calls with
    | nil => exact .slnil
    | cons c calls ih =>
      unfold updates at ih ⊢
      rw [List.filterMap_cons, List.filterMap_cons]
      cases c.check with
      | error e => exact ih
      | ok u =>
        by_cases hk : u.series = key
        · simpa [hk, Except.toOption] using ih
        · simpa [hk, Except.toOption] using ih.cons u
  have hmap := hsub.filterMap Update.added
  rwa [List.filterMap_filterMap] at hmap

theorem counted_nonneg (h : Vocabulary .counter key) : ∀ n ∈ counted calls key, 0 ≤ n := by
  intro n hn
  obtain ⟨u, hu, hadded⟩ := List.mem_filterMap.mp hn
  obtain ⟨m, hm, rfl⟩ := updates_counter h hu
  exact Option.some.inj hadded ▸ hm

/-- A counter is the total of its amounts, as floats add. -/
theorem counter_value (h : Vocabulary .counter key) :
    seriesValue (updates calls key) = Binary64.total (counted calls key) := by
  have hadds := fun u => @updates_counter key calls u h
  unfold counted
  generalize updates calls key = us at hadds
  have hfold : ∀ v : Binary64,
      (us.foldl Update.value (some v)).getD (.finite 0) = (us.filterMap Update.added).foldl Binary64.plus v := by
    induction us with
    | nil => exact fun _ => rfl
    | cons u us ih =>
      intro v
      obtain ⟨n, -, rfl⟩ := hadds u (List.mem_cons_self ..)
      exact ih (fun u hu => hadds u (List.mem_cons_of_mem _ hu)) _
  cases us with
  | nil => rfl
  | cons u us =>
    obtain ⟨n, -, rfl⟩ := hadds u (List.mem_cons_self ..)
    exact hfold (.finite 0)

/-- A counter is their sum, as long as that is an integer every float below it reaches. -/
theorem counter_exact (h : Vocabulary .counter key) (hsum : (counted calls key).sum ≤ 2 ^ 53) :
    seriesValue (updates calls key) = .finite (counted calls key).sum := by
  rw [counter_value h, Binary64.total_exact (counted_nonneg h) hsum]

/-! ## The text as samples -/

/-- The sample of a line. -/
def sampleOf (name : String) (ls : Labels) (value : List Char) : Sample :=
  ⟨name.toList, ls.map fun l => (l.1.toList, l.2.toList), value⟩

theorem escapeValue_eq {value : String} (h : '\n' ∉ value.toList) :
    escapeValue value = Exposition.escape value.toList := by
  unfold escapeValue Exposition.escape replaceChar
  generalize value.toList = cs at h ⊢
  induction cs with
  | nil => rfl
  | cons c cs ih =>
    obtain ⟨hc, hcs⟩ := not_or.mp (mt List.mem_cons.mpr h)
    rw [List.flatMap_cons, List.flatMap_append, ih hcs, List.flatMap_cons]
    congr 1
    by_cases hback : c = '\\'
    · subst hback
      rfl
    · by_cases hquote : c = '"'
      · subst hquote
        rfl
      · simp [Exposition.escapeChar, hback, hquote, Ne.symm hc]

theorem sampleLine_eq {value : List Char} (h : ∀ l ∈ ls, '\n' ∉ l.2.toList) :
    sampleLine name ls value = (sampleOf name ls value).write := by
  have hpairs : ls.map (fun l => l.1.toList ++ '=' :: '"' :: (escapeValue l.2 ++ ['"'])) =
      (ls.map fun l => (l.1.toList, l.2.toList)).map Exposition.writePair := by
    rw [List.map_map]
    refine List.map_congr_left fun l hl => ?_
    rw [escapeValue_eq (h l hl)]
    rfl
  have hlabels : renderLabels ls = Exposition.writeLabels (ls.map fun l => (l.1.toList, l.2.toList)) := by
    unfold renderLabels Exposition.writeLabels
    rw [hpairs]
    by_cases hnil : ls = []
    · simp [hnil]
    · simp [hnil]
  rw [sampleLine, hlabels]
  rfl

section
variable (fsum : List Rat → Rat)

def histogramSamples (name : String) (ls : Labels) (observations : List Rat) : List Sample :=
  HISTOGRAM_BUCKETS.map (fun bucket =>
    sampleOf (name ++ "_bucket") (bucketLabels ls (.ofList (formatNumber (.finite bucket))))
      (toString (observations.countP (· ≤ bucket))).toList) ++
  [sampleOf (name ++ "_bucket") (bucketLabels ls "+Inf") (toString observations.length).toList,
    sampleOf (name ++ "_count") ls (toString observations.length).toList,
    sampleOf (name ++ "_sum") ls (formatNumber (.finite (fsum observations)))]

def metricSamples (r : MetricsRegistry) (name : String) (d : MetricDefinition) : List Sample :=
  match d.kind with
  | .histogram =>
    (sortedItems r.histograms).flatMap fun e => if e.1.1 = name then histogramSamples fsum name e.1.2 e.2 else []
  | _ =>
    (sortedItems r.values).flatMap fun e => if e.1.1 = name then [sampleOf name e.1.2 (formatNumber e.2)] else []

def samples (r : MetricsRegistry) : List Sample := METRIC_DEFINITIONS.flatMap fun m => metricSamples fsum r m.1 m.2

end

/-- The words of the vocabulary have no delimiter of the format. -/
def plainWord (s : String) : Bool := s.toList.all fun c => !List.contains ['{', ' ', '#', '=', '\n'] c

theorem plainWord_iff {w : String} : plainWord w = true ↔
    ∀ c ∈ w.toList, c ≠ '{' ∧ c ≠ ' ' ∧ c ≠ '#' ∧ c ≠ '=' ∧ c ≠ '\n' := by
  simp [plainWord, List.all_eq_true]

theorem definitions_plain : ∀ m ∈ METRIC_DEFINITIONS, m.1 ≠ "" ∧ plainWord m.1 = true ∧
    ∀ e ∈ m.2.values, plainWord e.1 = true ∧ ∀ v ∈ e.2, plainWord v = true := by decide +kernel

theorem values_distinct : ∀ m ∈ METRIC_DEFINITIONS, (m.2.values.map Prod.fst).Nodup := by decide

/-- Labels of the vocabulary are plain words, and none is that of a bucket. -/
theorem labels_plain {kind : Kind} (h : Vocabulary kind key) :
    plainWord key.1 = true ∧ ∀ l ∈ key.2, plainWord l.1 = true ∧ plainWord l.2 = true := by
  obtain ⟨d, hd, -, hls⟩ := h
  obtain ⟨-, hname, hvalues⟩ := definitions_plain _ (definition_mem hd)
  refine ⟨hname, fun l hl => ?_⟩
  have hvalue := (mem_choices.mp hls).2 l hl
  cases hlookup : Dict.lookup l.1 d.values with
  | none => simp [hlookup] at hvalue
  | some vs =>
    rw [hlookup, Option.getD_some] at hvalue
    have hmem := (Dict.lookup_eq_some (values_distinct _ (definition_mem hd))).mp hlookup
    exact ⟨(hvalues _ hmem).1, (hvalues _ hmem).2 _ hvalue⟩

theorem digits_line {n : Nat} : '\n' ∉ Nat.toDigits 10 n := fun h =>
  absurd (Nat.isDigit_of_mem_toDigits (by decide) (by decide) h) (by decide)

theorem natText_line {n : Nat} : '\n' ∉ (toString n).toList := by
  have htext : (toString n).toList = Nat.toDigits 10 n := Nat.toList_repr
  rw [htext]
  exact digits_line

theorem toString_line (n : Int) : '\n' ∉ (toString n).toList := by
  cases n with
  | ofNat n => exact @natText_line n
  | negSucc n =>
    have htext : toString (Int.negSucc n) = "-" ++ toString (n + 1) := rfl
    rw [htext, String.toList_append, List.mem_append, not_or]
    exact ⟨by decide, natText_line⟩

theorem stripZeros_line {digits : List Char} (h : '\n' ∉ digits) : '\n' ∉ stripZeros digits := fun hmem =>
  h (List.mem_reverse.mp ((List.dropWhile_suffix _).subset (List.mem_reverse.mp hmem)))

theorem withPoint_line {whole fraction : List Char} (hw : '\n' ∉ whole) (hf : '\n' ∉ fraction) :
    '\n' ∉ withPoint whole fraction := by
  unfold withPoint
  split
  · exact hw
  · simp [hw, hf]

theorem exponentText_line (e : Int) : '\n' ∉ exponentText e := by
  have hdigits := @digits_line e.natAbs
  unfold exponentText
  dsimp only
  split <;> split <;> simp [hdigits]

theorem formatG12_line (q : Rat) : '\n' ∉ formatG12 q := by
  unfold formatG12
  dsimp only
  have hdigits := fun n => stripZeros_line (@digits_line n)
  generalize hem : (if (roundHalfEven (|q| * 10 ^ (11 - exponent10 |q|))).toNat = 10 ^ 12 then _ else _) = em
  replace hdigits := hdigits em.2
  generalize stripZeros (Nat.toDigits 10 em.2) = digits at hdigits
  have hpart : ∀ n, '\n' ∉ digits.take n ∧ '\n' ∉ digits.drop n := fun n =>
    ⟨fun h => hdigits (List.mem_of_mem_take h), fun h => hdigits (List.mem_of_mem_drop h)⟩
  have hzeros : ∀ n, '\n' ∉ List.replicate n '0' := fun n h => absurd (List.eq_of_mem_replicate h) (by decide)
  have hbody : ∀ body : List Char, '\n' ∉ body → '\n' ∉ (if q < 0 then '-' :: body else body) := fun body h => by
    split <;> simp [h]
  refine hbody _ ?_
  split
  · exact List.mem_append.not.mpr (not_or.mpr ⟨withPoint_line (hpart 1).1 (hpart 1).2, exponentText_line _⟩)
  · split
    · exact withPoint_line (by decide) (List.mem_append.not.mpr (not_or.mpr ⟨hzeros _, hdigits⟩))
    · exact withPoint_line (List.mem_append.not.mpr (not_or.mpr ⟨(hpart _).1, hzeros _⟩)) (hpart _).2

theorem formatNumber_line (x : Binary64) : '\n' ∉ formatNumber x := by
  cases x with
  | finite q =>
    rw [formatNumber]
    split
    · exact toString_line _
    · exact formatG12_line q
  | infinite negative => cases negative <;> decide

/-! ## The text is read back -/

section
variable (fsum : List Rat → Rat)

/-- Name and labels are plain words. -/
def PlainSeries (name : String) (ls : Labels) : Prop :=
  name ≠ "" ∧ plainWord name = true ∧ ∀ l ∈ ls, plainWord l.1 = true ∧ '\n' ∉ l.2.toList

theorem sampleOf_plain {value : List Char} (h : PlainSeries name ls) (hvalue : '\n' ∉ value) :
    (sampleOf name ls value).Plain where
  named hnil := h.1 (String.toList_eq_nil_iff.mp hnil)
  name c hc := by
    have hplain := plainWord_iff.mp h.2.1 c hc
    exact ⟨hplain.1, hplain.2.1, hplain.2.2.1, hplain.2.2.2.2⟩
  labels label hl c hc := by
    obtain ⟨l, hmem, rfl⟩ := List.mem_map.mp hl
    have hplain := plainWord_iff.mp (h.2.2 l hmem).1 c hc
    exact ⟨hplain.2.2.2.1, hplain.2.2.2.2⟩
  value := hvalue

theorem plainSeries_of {kind : Kind} (h : Vocabulary kind key) : PlainSeries key.1 key.2 := by
  obtain ⟨hname, hlabels⟩ := labels_plain h
  obtain ⟨d, hd, -, -⟩ := h
  refine ⟨(definitions_plain _ (definition_mem hd)).1, hname, fun l hl => ⟨(hlabels l hl).1, fun hline => ?_⟩⟩
  exact (plainWord_iff.mp (hlabels l hl).2 _ hline).2.2.2.2 rfl

theorem PlainSeries.suffix (h : PlainSeries name ls) {suffix : String} (hs : plainWord suffix = true) :
    PlainSeries (name ++ suffix) ls := by
  refine ⟨fun hnil => h.1 (String.append_eq_empty_iff.mp hnil).1, plainWord_iff.mpr fun c hc => ?_, h.2.2⟩
  rw [String.toList_append, List.mem_append] at hc
  exact hc.elim (plainWord_iff.mp h.2.1 c) (plainWord_iff.mp hs c)

theorem PlainSeries.bucket (h : PlainSeries name ls) {le : String} (hle : '\n' ∉ le.toList) :
    PlainSeries name (bucketLabels ls le) := by
  refine ⟨h.1, h.2.1, fun l hl => ?_⟩
  rcases List.mem_append.mp hl with hl | hl
  · exact h.2.2 l (List.mem_of_mem_filter hl)
  · have hplain : plainWord "le" = true := by decide
    rw [List.mem_singleton.mp hl]
    exact ⟨hplain, hle⟩

/-- A line of the source is the line of its sample. -/
theorem write_sample {value : List Char} (h : PlainSeries name ls) :
    (sampleOf name ls value).write = sampleLine name ls value := (sampleLine_eq fun l hl => (h.2.2 l hl).2).symm

theorem bucket_line (bucket : Rat) : '\n' ∉ (String.ofList (formatNumber (.finite bucket))).toList := by
  rw [String.toList_ofList]
  exact formatNumber_line (.finite bucket)

theorem histogram_written (h : PlainSeries name ls) (obs : List Rat) :
    (histogramSamples fsum name ls obs).map Sample.write = histogramLines fsum name ls obs ∧
      ∀ s ∈ histogramSamples fsum name ls obs, s.Plain := by
  have hsuffix : ∀ suffix ∈ ["_bucket", "_count", "_sum"], plainWord suffix = true := by decide
  have hbucket : ∀ le, '\n' ∉ le.toList → PlainSeries (name ++ "_bucket") (bucketLabels ls le) := fun le hle =>
    (h.suffix (hsuffix _ (by simp))).bucket hle
  have hinf := hbucket "+Inf" (by decide)
  have hcount := h.suffix (hsuffix "_count" (by simp))
  have hsum := h.suffix (hsuffix "_sum" (by simp))
  constructor
  · unfold histogramSamples histogramLines
    rw [List.map_append, List.map_map]
    congr 1
    · exact List.map_congr_left fun bucket _ => write_sample (hbucket _ (bucket_line bucket))
    · simp only [List.map_cons, List.map_nil, write_sample hinf, write_sample hcount, write_sample hsum]
  · intro s hs
    rcases List.mem_append.mp hs with hs | hs
    · obtain ⟨bucket, -, rfl⟩ := List.mem_map.mp hs
      exact sampleOf_plain (hbucket _ (bucket_line bucket)) natText_line
    · simp only [List.mem_cons, List.not_mem_nil, or_false] at hs
      rcases hs with rfl | rfl | rfl
      · exact sampleOf_plain hinf natText_line
      · exact sampleOf_plain hcount natText_line
      · exact sampleOf_plain hsum (formatNumber_line _)

theorem mem_sortedItems {α : Type} {d : Dict Key α} {e : Key × α} : e ∈ sortedItems d ↔ e ∈ d.entries :=
  (orderBy_perm _ _).mem_iff

/-- Items of one metric, each with its lines. -/
theorem items_written {α : Type} {items : List (Key × α)} {lines : Key × α → List (List Char)}
    {written : Key × α → List Sample} (h : ∀ e ∈ items, e.1.1 = name →
      (written e).map Sample.write = lines e ∧ ∀ s ∈ written e, s.Plain) :
    (items.flatMap fun e => if e.1.1 = name then written e else []).map Sample.write =
        items.flatMap (fun e => if e.1.1 = name then lines e else []) ∧
      ∀ s ∈ items.flatMap (fun e => if e.1.1 = name then written e else []), s.Plain := by
  induction items with
  | nil => simp
  | cons e items ih =>
    obtain ⟨hmap, hplain⟩ := ih fun x hx => h x (List.mem_cons_of_mem _ hx)
    rw [List.flatMap_cons, List.flatMap_cons, List.map_append, hmap]
    by_cases hname : e.1.1 = name
    · obtain ⟨hlines, hsamples⟩ := h e (List.mem_cons_self ..) hname
      simp only [if_pos hname, hlines, List.mem_append, true_and]
      exact fun s hs => hs.elim (hsamples s) (hplain s)
    · simp only [if_neg hname, List.nil_append, List.map_nil, true_and]
      exact hplain

theorem metric_written (h : InVocabulary r) : (metricLines fsum r name d).tail =
      (metricSamples fsum r name d).map Sample.write ∧ ∀ s ∈ metricSamples fsum r name d, s.Plain := by
  have hvalues : ∀ e ∈ sortedItems r.values, e.1.1 = name →
      [sampleOf name e.1.2 (formatNumber e.2)].map Sample.write = [sampleLine name e.1.2 (formatNumber e.2)] ∧
        ∀ s ∈ [sampleOf name e.1.2 (formatNumber e.2)], s.Plain := by
    rintro ⟨key, q⟩ he rfl
    have hkey := h.values key (List.mem_map_of_mem (mem_sortedItems.mp he))
    have hplain : PlainSeries key.1 key.2 := hkey.elim plainSeries_of plainSeries_of
    exact ⟨by rw [List.map_singleton, write_sample hplain], fun s hs => by
      rw [List.mem_singleton.mp hs]
      exact sampleOf_plain hplain (formatNumber_line q)⟩
  have hhistograms : ∀ e ∈ sortedItems r.histograms, e.1.1 = name →
      (histogramSamples fsum name e.1.2 e.2).map Sample.write = histogramLines fsum name e.1.2 e.2 ∧
        ∀ s ∈ histogramSamples fsum name e.1.2 e.2, s.Plain := by
    rintro ⟨key, obs⟩ he rfl
    exact histogram_written fsum (plainSeries_of (h.histograms key (List.mem_map_of_mem (mem_sortedItems.mp he)))) obs
  unfold metricLines metricSamples
  rw [List.tail_cons]
  cases d.kind with
  | histogram => exact (items_written hhistograms).imp_left Eq.symm
  | counter => exact (items_written hvalues).imp_left Eq.symm
  | gauge => exact (items_written hvalues).imp_left Eq.symm

/-- What a scraper reads off the text. -/
theorem read_render (h : InVocabulary r) :
    Exposition.read (renderPrometheus fsum r) = some (samples fsum r) := by
  let head (m : String × MetricDefinition) : Exposition.Line :=
    .comment (" TYPE ".toList ++ m.1.toList ++ ' ' :: m.2.kind.text.toList)
  let lines := METRIC_DEFINITIONS.flatMap fun m => head m :: (metricSamples fsum r m.1 m.2).map .sample
  have hwrite : renderPrometheus fsum r = Exposition.write lines := by
    have hlines : lines.map Exposition.Line.write =
        METRIC_DEFINITIONS.flatMap fun m => metricLines fsum r m.1 m.2 := by
      rw [List.map_flatMap]
      refine List.flatMap_congr fun m _ => ?_
      have htail := (@metric_written m.1 m.2 r fsum h).1
      rw [List.map_cons, List.map_map]
      exact congrArg (_ :: ·) htail.symm
    rw [renderPrometheus, Exposition.write, hlines]
  have hplain : ∀ line ∈ lines, line.Plain := by
    intro line hline
    obtain ⟨m, hm, hline⟩ := List.mem_flatMap.mp hline
    rcases List.mem_cons.mp hline with rfl | hline
    · have hname := fun c => plainWord_iff.mp (definitions_plain m hm).2.1 c
      have hkind : '\n' ∉ m.2.kind.text.toList := by cases m.2.kind <;> decide
      show '\n' ∉ _
      simp only [List.mem_append, List.mem_cons, not_or]
      exact ⟨⟨by decide, fun hc => (hname _ hc).2.2.2.2 rfl⟩, by decide, hkind⟩
    · obtain ⟨s, hs, rfl⟩ := List.mem_map.mp hline
      exact (metric_written fsum h).2 s hs
  rw [hwrite, Exposition.read_write hplain]
  congr 1
  rw [samples, List.flatMap_assoc]
  refine List.flatMap_congr fun m _ => ?_
  have hsamples : ∀ ss : List Sample, (ss.map Exposition.Line.sample).flatMap Exposition.Line.samples = ss := by
    intro ss
    induction ss with
    | nil => rfl
    | cons s ss ih => rw [List.map_cons, List.flatMap_cons, ih]; rfl
  exact hsamples _

end

/-! ## No series twice, and how many -/

/-- The upper bounds of the buckets, as text. -/
def bucketTexts : List String :=
  HISTOGRAM_BUCKETS.map (fun bucket => .ofList (formatNumber (.finite bucket))) ++ ["+Inf"]

/-- Names and labels of the samples of one series. -/
def seriesNames (name : String) (d : MetricDefinition) (ls : Labels) : List (String × Labels) :=
  match d.kind with
  | .histogram => bucketTexts.map (fun le => (name ++ "_bucket", bucketLabels ls le)) ++
    [(name ++ "_count", ls), (name ++ "_sum", ls)]
  | _ => [(name, ls)]

def nameOf (x : String × Labels) : List Char × List (List Char × List Char) :=
  (x.1.toList, x.2.map fun l => (l.1.toList, l.2.toList))

def seriesOf (s : Sample) : List Char × List (List Char × List Char) := (s.name, s.labels)

theorem nameOf_injective : Function.Injective nameOf := by
  rintro ⟨a, ls⟩ ⟨b, ls'⟩ h
  obtain ⟨hname, hlabels⟩ := Prod.mk.inj h
  have hpair : Function.Injective fun l : String × String => (l.1.toList, l.2.toList) := fun l l' hl =>
    Prod.ext (String.toList_inj.mp (Prod.mk.inj hl).1) (String.toList_inj.mp (Prod.mk.inj hl).2)
  exact Prod.ext (String.toList_inj.mp hname) (List.map_injective_iff.mpr hpair hlabels)

/-- The labels under which the metric has items. -/
def itemLabels {α : Type} (items : List (Key × α)) (name : String) : List Labels :=
  (items.filter fun e => e.1.1 = name).map fun e => e.1.2

theorem itemLabels_spec {α : Type} {dict : Dict Key α}
    (h : ∀ key ∈ dict.keys, key.1 = name → key.2 ∈ vocabulary d) :
    (itemLabels (sortedItems dict) name).Nodup ∧ itemLabels (sortedItems dict) name ⊆ vocabulary d := by
  have hkeys : ((sortedItems dict).map Prod.fst).Nodup := (((orderBy_perm _ _).map _).nodup_iff).mpr dict.distinct
  constructor
  · have hsub : (((sortedItems dict).filter fun e => e.1.1 = name).map Prod.fst).Nodup :=
      (List.filter_sublist.map _).nodup hkeys
    have hsplit : itemLabels (sortedItems dict) name =
        (((sortedItems dict).filter fun e => e.1.1 = name).map Prod.fst).map Prod.snd := by
      rw [itemLabels, List.map_map]
      rfl
    rw [hsplit]
    refine hsub.map_on fun k hk k' hk' heq => ?_
    have hname : ∀ k ∈ ((sortedItems dict).filter fun e => e.1.1 = name).map Prod.fst, k.1 = name := fun k hk => by
      obtain ⟨e, he, rfl⟩ := List.mem_map.mp hk
      exact of_decide_eq_true (List.mem_filter.mp he).2
    exact Prod.ext ((hname k hk).trans (hname k' hk').symm) heq
  · intro ls hls
    obtain ⟨e, he, rfl⟩ := List.mem_map.mp hls
    obtain ⟨hmem, hname⟩ := List.mem_filter.mp he
    exact h e.1 (List.mem_map_of_mem (mem_sortedItems.mp hmem)) (of_decide_eq_true hname)

/-- The labels of the series the text shows of a metric. -/
def shownLabels (r : MetricsRegistry) (name : String) (d : MetricDefinition) : List Labels :=
  match d.kind with
  | .histogram => itemLabels (sortedItems r.histograms) name
  | _ => itemLabels (sortedItems r.values) name

theorem shownLabels_spec (h : InVocabulary r) (hd : definition name = some d) :
    (shownLabels r name d).Nodup ∧ shownLabels r name d ⊆ vocabulary d := by
  have hmem : ∀ {kind : Kind} {key : Key}, Vocabulary kind key → key.1 = name → key.2 ∈ vocabulary d := by
    rintro kind key ⟨d', hd', -, hls⟩ rfl
    rwa [Option.some.inj (hd.symm.trans hd')]
  have hvalues := @itemLabels_spec name d Binary64 r.values fun key hkey hname =>
    (h.values key hkey).elim (fun hk => hmem hk hname) (fun hk => hmem hk hname)
  unfold shownLabels
  cases d.kind with
  | histogram => exact itemLabels_spec fun key hkey hname => hmem (h.histograms key hkey) hname
  | counter => exact hvalues
  | gauge => exact hvalues

section
variable (fsum : List Rat → Rat)

theorem series_items {α : Type} {items : List (Key × α)} {written : Key × α → List Sample}
    {names : Labels → List (String × Labels)}
    (h : ∀ e, e.1.1 = name → (written e).map seriesOf = (names e.1.2).map nameOf) :
    (items.flatMap fun e => if e.1.1 = name then written e else []).map seriesOf =
      ((itemLabels items name).flatMap names).map nameOf := by
  induction items with
  | nil => rfl
  | cons e items ih =>
    rw [List.flatMap_cons, List.map_append, ih]
    by_cases hname : e.1.1 = name
    · simp [itemLabels, hname, h e hname]
    · simp [itemLabels, hname]

theorem series_metric : (metricSamples fsum r name d).map seriesOf =
    ((shownLabels r name d).flatMap (seriesNames name d)).map nameOf := by
  unfold metricSamples shownLabels
  cases hkind : d.kind with
  | histogram =>
    refine series_items fun e _ => ?_
    simp [histogramSamples, seriesNames, hkind, bucketTexts, sampleOf, seriesOf, nameOf, Function.comp_def]
  | counter => exact series_items fun e _ => by simp [seriesNames, hkind, sampleOf, seriesOf, nameOf]
  | gauge => exact series_items fun e _ => by simp [seriesNames, hkind, sampleOf, seriesOf, nameOf]

theorem series_samples : (samples fsum r).map seriesOf =
    (METRIC_DEFINITIONS.flatMap fun m => (shownLabels r m.1 m.2).flatMap (seriesNames m.1 m.2)).map nameOf := by
  rw [samples, List.map_flatMap, List.map_flatMap]
  exact List.flatMap_congr fun m _ => series_metric fsum

/-- A metric's own names. -/
def metricNames (m : String × MetricDefinition) : List String :=
  match m.2.kind with
  | .histogram => [m.1 ++ "_bucket", m.1 ++ "_count", m.1 ++ "_sum"]
  | _ => [m.1]

theorem metricNames_disjoint : METRIC_DEFINITIONS.Pairwise fun m m' => (metricNames m).Disjoint (metricNames m') := by
  have hall : METRIC_DEFINITIONS.Pairwise fun m m' => ∀ x ∈ metricNames m, x ∉ metricNames m' := by decide +kernel
  exact hall.imp fun h x hx hx' => h x hx hx'

theorem mem_metricNames {m : String × MetricDefinition} {x : String × Labels} (h : x ∈ seriesNames m.1 m.2 ls) :
    x.1 ∈ metricNames m := by
  unfold seriesNames at h
  unfold metricNames
  cases hkind : m.2.kind with
  | histogram =>
    simp only [hkind, List.mem_append, List.mem_map, List.mem_cons, List.not_mem_nil, or_false] at h
    rcases h with ⟨le, -, rfl⟩ | rfl | rfl <;> simp
  | counter => simpa [hkind] using congrArg Prod.fst (List.mem_singleton.mp (by simpa [hkind] using h))
  | gauge => simpa [hkind] using congrArg Prod.fst (List.mem_singleton.mp (by simpa [hkind] using h))

theorem labels_ne_le : ∀ m ∈ METRIC_DEFINITIONS, "le" ∉ m.2.labels := by decide

/-- The labels without that of the bucket. -/
theorem base_labels (hd : definition name = some d) (hls : ls ∈ vocabulary d) {x : String × Labels}
    (h : x ∈ seriesNames name d ls) : x.2.filter (fun l => l.1 != "le") = ls := by
  have hself : ls.filter (fun l => l.1 != "le") = ls := List.filter_eq_self.mpr fun l hl => by
    have hname : l.1 ∈ d.labels := by
      have hnames := (mem_choices.mp hls).1
      have hmem : l.1 ∈ orderBy id d.labels := hnames ▸ List.mem_map_of_mem hl
      exact (orderBy_perm id d.labels).subset hmem
    exact bne_iff_ne.mpr fun heq => labels_ne_le _ (definition_mem hd) (heq ▸ hname)
  unfold seriesNames at h
  cases hkind : d.kind with
  | histogram =>
    simp only [hkind, List.mem_append, List.mem_map, List.mem_cons, List.not_mem_nil, or_false] at h
    rcases h with ⟨le, -, rfl⟩ | rfl | rfl
    · simp [bucketLabels, hself]
    · exact hself
    · exact hself
  | counter =>
    rw [hkind] at h
    rw [List.mem_singleton.mp h, hself]
  | gauge =>
    rw [hkind] at h
    rw [List.mem_singleton.mp h, hself]

theorem bucketTexts_nodup : bucketTexts.Nodup := by decide +kernel

theorem seriesNames_nodup : (seriesNames name d ls).Nodup := by
  unfold seriesNames
  cases d.kind with
  | histogram =>
    have hne : ∀ {a b : String}, a ≠ b → name ++ a ≠ name ++ b := fun hab h => hab (String.append_right_inj _ |>.mp h)
    refine List.nodup_append.mpr ⟨bucketTexts_nodup.map fun le le' h => ?_, ?_, ?_⟩
    · have hlabels := List.append_cancel_left (Prod.mk.inj h).2
      simpa using hlabels
    · simp [hne (show "_count" ≠ "_sum" by decide)]
    · intro x hx y hy heq
      obtain ⟨le, -, rfl⟩ := List.mem_map.mp hx
      simp only [List.mem_cons, List.not_mem_nil, or_false] at hy
      rcases hy with rfl | rfl
      · exact hne (show "_bucket" ≠ "_count" by decide) (Prod.mk.inj heq).1
      · exact hne (show "_bucket" ≠ "_sum" by decide) (Prod.mk.inj heq).1
  | counter => exact List.nodup_singleton _
  | gauge => exact List.nodup_singleton _

theorem definition_of_mem {m : String × MetricDefinition} (hm : m ∈ METRIC_DEFINITIONS) :
    definition m.1 = some m.2 := (Dict.lookup_eq_some (by decide)).mpr hm

/-- No series is shown twice. -/
theorem samples_nodup (h : InVocabulary r) : ((samples fsum r).map seriesOf).Nodup := by
  rw [series_samples, List.nodup_map_iff nameOf_injective, List.nodup_flatMap]
  constructor
  · intro m hm
    obtain ⟨hnodup, hsub⟩ := shownLabels_spec h (definition_of_mem hm)
    refine List.nodup_flatMap.mpr ⟨fun ls _ => seriesNames_nodup, ?_⟩
    refine hnodup.imp_of_mem fun {ls ls'} hls hls' hne x hx hx' => hne ?_
    rw [← base_labels (definition_of_mem hm) (hsub hls) hx, base_labels (definition_of_mem hm) (hsub hls') hx']
  · refine metricNames_disjoint.imp fun {m m'} hdisjoint x hx hx' => ?_
    obtain ⟨ls, -, hx⟩ := List.mem_flatMap.mp hx
    obtain ⟨ls', -, hx'⟩ := List.mem_flatMap.mp hx'
    exact hdisjoint (mem_metricNames hx) (mem_metricNames hx')

def seriesWidth (d : MetricDefinition) : Nat :=
  match d.kind with
  | .histogram => 14
  | _ => 1

theorem length_seriesNames : (seriesNames name d ls).length = seriesWidth d := by
  unfold seriesNames seriesWidth
  cases d.kind <;> simp [bucketTexts, HISTOGRAM_BUCKETS]

/-- The text has so many samples at most, whatever was called. -/
theorem length_samples (h : InVocabulary r) : (samples fsum r).length ≤ 254 := by
  have hlen := congrArg List.length (@series_samples r fsum)
  rw [List.length_map, List.length_map, List.length_flatMap] at hlen
  have hmetric : ∀ m ∈ METRIC_DEFINITIONS, ((shownLabels r m.1 m.2).flatMap (seriesNames m.1 m.2)).length ≤
      (vocabulary m.2).length * seriesWidth m.2 := fun m hm => by
    obtain ⟨hnodup, hsub⟩ := shownLabels_spec h (definition_of_mem hm)
    have hle := (List.subperm_of_subset hnodup hsub).length_le
    rw [List.length_flatMap]
    simp only [length_seriesNames, List.map_const', List.sum_replicate_nat]
    exact Nat.mul_le_mul_right _ hle
  have hsum := List.sum_le_sum hmetric
  have htotal : (METRIC_DEFINITIONS.map fun m => (vocabulary m.2).length * seriesWidth m.2).sum = 254 := by
    decide +kernel
  omega

/-! ## What the text says -/

/-- The value of a counter or a gauge is in the text. -/
theorem value_shown (hd : definition key.1 = some d) (hkind : d.kind ≠ .histogram) {x : Binary64}
    (hget : (after calls).values.get key = some x) :
    sampleOf key.1 key.2 (formatNumber x) ∈ samples fsum (after calls) := by
  have hitem : sampleOf key.1 key.2 (formatNumber x) ∈ (sortedItems (after calls).values).flatMap fun e =>
      if e.1.1 = key.1 then [sampleOf key.1 e.1.2 (formatNumber e.2)] else [] :=
    List.mem_flatMap.mpr ⟨(key, x), mem_sortedItems.mpr ((Dict.mem_iff_get _ _ _).mpr hget), by simp⟩
  refine List.mem_flatMap.mpr ⟨(key.1, d), definition_mem hd, ?_⟩
  unfold metricSamples
  cases hk : d.kind with
  | histogram => exact absurd hk hkind
  | counter => exact hitem
  | gauge => exact hitem

theorem series_shown (h : Vocabulary .counter key ∨ Vocabulary .gauge key) (hu : updates calls key ≠ []) :
    sampleOf key.1 key.2 (formatNumber (seriesValue (updates calls key))) ∈ samples fsum (after calls) := by
  have hget := value_after h hu
  rcases h with ⟨d, hd, hkind, -⟩ | ⟨d, hd, hkind, -⟩ <;>
    exact value_shown fsum hd (by rw [hkind]; decide) hget

theorem formatNumber_int (z : Int) : formatNumber (.finite z) = (toString z).toList := by
  rw [formatNumber, if_pos (Rat.den_intCast z), Rat.num_intCast]

theorem counter_shown (h : Vocabulary .counter key) (hu : updates calls key ≠ [])
    (hsum : (counted calls key).sum ≤ 2 ^ 53) :
    sampleOf key.1 key.2 (toString (counted calls key).sum).toList ∈ samples fsum (after calls) := by
  have hshown := series_shown fsum (.inl h) hu
  rwa [counter_exact h hsum, formatNumber_int] at hshown

theorem histogram_shown (h : Vocabulary .histogram key) (hu : updates calls key ≠ []) {s : Sample}
    (hs : s ∈ histogramSamples fsum key.1 key.2 (amounts calls key)) : s ∈ samples fsum (after calls) := by
  have hget := @histogram_after key calls h
  rw [if_neg hu] at hget
  obtain ⟨d, hd, hkind, -⟩ := h
  refine List.mem_flatMap.mpr ⟨(key.1, d), definition_mem hd, ?_⟩
  unfold metricSamples
  rw [hkind]
  exact List.mem_flatMap.mpr ⟨(key, _), mem_sortedItems.mpr ((Dict.mem_iff_get _ _ _).mpr hget), by simpa using hs⟩

theorem updates_of_shown (hmem : key ∈ (after calls).values.keys ∨ key ∈ (after calls).histograms.keys) :
    updates calls key ≠ [] := by
  rw [Dict.mem_keys, Dict.mem_keys, after_values, after_histograms] at hmem
  rintro hnil
  simp [hnil] at hmem

/-- A series is shown when a call that passed its checks was for it. -/
theorem shown_called {s : Sample} (hs : s ∈ samples fsum (after calls)) :
    ∃ key d, definition key.1 = some d ∧ updates calls key ≠ [] ∧
      seriesOf s ∈ (seriesNames key.1 d key.2).map nameOf := by
  have hseries : seriesOf s ∈ (samples fsum (after calls)).map seriesOf := List.mem_map_of_mem hs
  rw [series_samples, List.mem_map] at hseries
  obtain ⟨x, hx, hname⟩ := hseries
  obtain ⟨m, hm, hx⟩ := List.mem_flatMap.mp hx
  obtain ⟨ls, hls, hx⟩ := List.mem_flatMap.mp hx
  refine ⟨(m.1, ls), m.2, definition_of_mem hm, updates_of_shown ?_, hname ▸ List.mem_map_of_mem hx⟩
  have hitem : ∀ {α : Type} {dict : Dict Key α}, ls ∈ itemLabels (sortedItems dict) m.1 → (m.1, ls) ∈ dict.keys := by
    intro α dict hls
    obtain ⟨e, he, rfl⟩ := List.mem_map.mp hls
    obtain ⟨hmem, hname⟩ := List.mem_filter.mp he
    rw [← of_decide_eq_true hname]
    exact List.mem_map_of_mem (mem_sortedItems.mp hmem)
  unfold shownLabels at hls
  cases hkind : m.2.kind with
  | histogram => exact .inr (hitem (by simpa [hkind] using hls))
  | counter => exact .inl (hitem (by simpa [hkind] using hls))
  | gauge => exact .inl (hitem (by simpa [hkind] using hls))

/-- What a scraper learns of the calls. -/
structure Scrape (fsum : List Rat → Rat) (calls : List Call) (ss : List Sample) : Prop where
  unique : (ss.map seriesOf).Nodup
  bounded : ss.length ≤ 254
  /-- a counter or a gauge is what its updates make of a float, one after the other -/
  values : ∀ key, Vocabulary .counter key ∨ Vocabulary .gauge key → updates calls key ≠ [] →
    sampleOf key.1 key.2 (formatNumber (seriesValue (updates calls key))) ∈ ss
  /-- a counter is the sum of what was counted, while floats have every integer -/
  counters : ∀ key, Vocabulary .counter key → updates calls key ≠ [] → (counted calls key).sum ≤ 2 ^ 53 →
    sampleOf key.1 key.2 (toString (counted calls key).sum).toList ∈ ss
  /-- a bucket has the observations up to its bound, the last one all of them -/
  histograms : ∀ key, Vocabulary .histogram key → updates calls key ≠ [] →
    ∀ s ∈ histogramSamples fsum key.1 key.2 (amounts calls key), s ∈ ss
  called : ∀ s ∈ ss, ∃ key d, definition key.1 = some d ∧ updates calls key ≠ [] ∧
    seriesOf s ∈ (seriesNames key.1 d key.2).map nameOf

/-- **The text of the metrics can be read back**, after any calls in any order. -/
theorem scrape_read (calls : List Call) :
    ∃ ss, Exposition.read (renderPrometheus fsum (after calls)) = some ss ∧ Scrape fsum calls ss :=
  ⟨samples fsum (after calls), read_render fsum (inVocabulary_after calls),
    samples_nodup fsum (inVocabulary_after calls), length_samples fsum (inVocabulary_after calls),
    fun _ h hu => series_shown fsum h hu, fun _ h hu hsum => counter_shown fsum h hu hsum,
    fun _ h hu _ hs => histogram_shown fsum h hu hs, fun _ hs => shown_called fsum hs⟩

/-! ## The order of the calls -/

/-- Samples that count: not of gauges, and not sums, which floats round. -/
def countsName (name : List Char) : Bool :=
  METRIC_DEFINITIONS.any fun m =>
    match m.2.kind with
    | .counter => name == m.1.toList
    | .histogram => name == (m.1 ++ "_bucket").toList || name == (m.1 ++ "_count").toList
    | .gauge => false

def counts (s : Sample) : Bool := countsName s.name

theorem itemKey_injective : Function.Injective itemKey := by
  rintro ⟨a, ls⟩ ⟨b, ls'⟩ h
  obtain ⟨hname, hlabels⟩ := Prod.mk.inj (toLex.injective h)
  exact Prod.ext hname (List.map_injective_iff.mpr toLex.injective hlabels)

/-- Items by their keys, in order. -/
theorem flatMap_sortedItems {α β : Type} {dict : Dict Key α} {f : Key × α → List β} :
    (sortedItems dict).flatMap f =
      (orderBy itemKey dict.keys).flatMap fun k => ((dict.get k).map fun v => f (k, v)).getD [] := by
  have hkeys : orderBy itemKey dict.keys = (sortedItems dict).map Prod.fst := (map_orderBy Prod.fst itemKey _).symm
  rw [hkeys, List.flatMap_map]
  refine List.flatMap_congr fun e he => ?_
  rw [(Dict.mem_iff_get dict e.1 e.2).mp (mem_sortedItems.mp he)]
  rfl

theorem updates_perm (h : calls.Perm calls') : (updates calls key).Perm (updates calls' key) := h.filterMap _

theorem updates_nil_iff (h : calls.Perm calls') : updates calls key = [] ↔ updates calls' key = [] := by
  have hlen := (@updates_perm key calls calls' h).length_eq
  rw [← List.length_eq_zero_iff, ← List.length_eq_zero_iff, hlen]

/-- The series are the same, and so is their order. -/
theorem keys_order (h : calls.Perm calls') :
    orderBy itemKey (after calls).values.keys = orderBy itemKey (after calls').values.keys ∧
      orderBy itemKey (after calls).histograms.keys = orderBy itemKey (after calls').histograms.keys := by
  have horder : ∀ {ks ks' : List Key}, ks.Nodup → ks'.Nodup → (∀ k, k ∈ ks ↔ k ∈ ks') →
      orderBy itemKey ks = orderBy itemKey ks' := fun {ks ks'} hks hks' hmem =>
    orderBy_unique ((orderBy_perm itemKey ks').trans ((List.perm_ext_iff_of_nodup hks hks').mpr hmem).symm)
      (hks.map itemKey_injective) (orderBy_sorted itemKey ks')
  constructor
  · refine horder (after calls).values.distinct (after calls').values.distinct fun k => ?_
    show k ∈ (after calls).values.keys ↔ k ∈ (after calls').values.keys
    rw [Dict.mem_keys, Dict.mem_keys, after_values, after_values, value_isSome, value_isSome]
    simp only [(updates_perm h).mem_iff]
  · refine horder (after calls).histograms.distinct (after calls').histograms.distinct fun k => ?_
    show k ∈ (after calls).histograms.keys ↔ k ∈ (after calls').histograms.keys
    rw [Dict.mem_keys, Dict.mem_keys, after_histograms, after_histograms, observed_isSome, observed_isSome]
    simp only [(updates_perm h).mem_iff]

theorem counted_perm (h : calls.Perm calls') : (counted calls key).Perm (counted calls' key) :=
  (updates_perm h).filterMap _

/-- No counter has gone beyond the integers that floats have. -/
def CountsExactly (calls : List Call) : Prop := ∀ key, Vocabulary .counter key → (counted calls key).sum ≤ 2 ^ 53

theorem counter_order (h : calls.Perm calls') (hexact : CountsExactly calls) (hkey : Vocabulary .counter key) :
    (after calls).values.get key = (after calls').values.get key := by
  by_cases hu : updates calls key = []
  · rw [after_values, after_values, hu, (updates_nil_iff h).mp hu]
  · have hsum : (counted calls' key).sum = (counted calls key).sum := (counted_perm h).sum_eq.symm
    have hu' := mt (updates_nil_iff h).mpr hu
    rw [value_after (.inl hkey) hu, value_after (.inl hkey) hu', counter_exact hkey (hexact key hkey),
      counter_exact hkey (hsum.trans_le (hexact key hkey)), hsum]

theorem countsName_sum : ∀ m ∈ METRIC_DEFINITIONS, countsName (m.1 ++ "_sum").toList = false := by decide +kernel

theorem countsName_gauge : ∀ m ∈ METRIC_DEFINITIONS, m.2.kind = .gauge → countsName m.1.toList = false := by
  decide +kernel

theorem histogram_counts {obs obs' : List Rat} (hsum : countsName (name ++ "_sum").toList = false)
    (h : obs.Perm obs') :
    (histogramSamples fsum name ls obs).filter counts = (histogramSamples fsum name ls obs').filter counts := by
  have hlast : ∀ value, counts (sampleOf (name ++ "_sum") ls value) = false := fun _ => hsum
  unfold histogramSamples
  simp only [List.filter_append, List.filter_cons, hlast, h.countP_eq, h.length_eq, Bool.false_eq_true, if_false]

theorem vocabulary_of_name {kind : Kind} {m : String × MetricDefinition} (hm : m ∈ METRIC_DEFINITIONS)
    (hkey : Vocabulary kind key) (hname : key.1 = m.1) : m.2.kind = kind := by
  obtain ⟨d, hd, hkind, -⟩ := hkey
  rw [hname, definition_of_mem hm] at hd
  rw [Option.some.inj hd, hkind]

theorem metric_counts (h : calls.Perm calls') (hexact : CountsExactly calls) {m : String × MetricDefinition}
    (hm : m ∈ METRIC_DEFINITIONS) :
    (metricSamples fsum (after calls) m.1 m.2).filter counts =
      (metricSamples fsum (after calls') m.1 m.2).filter counts := by
  have hvocabulary := inVocabulary_after calls
  unfold metricSamples
  cases hkind : m.2.kind with
  | counter =>
    refine congrArg (List.filter counts) ?_
    dsimp only
    rw [flatMap_sortedItems, flatMap_sortedItems, (keys_order h).1]
    refine List.flatMap_congr fun k hk => ?_
    dsimp only
    by_cases hname : k.1 = m.1
    · have hmem : k ∈ (after calls).values.keys := by
        rw [← (keys_order h).1] at hk
        exact (orderBy_perm itemKey _).subset hk
      rcases hvocabulary.values k hmem with hkey | hkey
      · rw [counter_order h hexact hkey]
      · cases hkind.symm.trans (vocabulary_of_name hm hkey hname)
    · simp only [if_neg hname]
      cases (after calls).values.get k <;> cases (after calls').values.get k <;> rfl
  | histogram =>
    dsimp only
    rw [List.filter_flatMap, List.filter_flatMap, flatMap_sortedItems, flatMap_sortedItems, (keys_order h).2]
    refine List.flatMap_congr fun k hk => ?_
    dsimp only [Function.comp]
    by_cases hname : k.1 = m.1
    · have hmem : k ∈ (after calls).histograms.keys := by
        rw [← (keys_order h).2] at hk
        exact (orderBy_perm itemKey _).subset hk
      have hkey := hvocabulary.histograms k hmem
      rw [histogram_after hkey, histogram_after hkey]
      simp only [updates_nil_iff h, if_pos hname]
      split
      · rfl
      · exact histogram_counts fsum (countsName_sum m hm) ((updates_perm h).map _)
    · simp only [if_neg hname]
      cases (after calls).histograms.get k <;> cases (after calls').histograms.get k <;> rfl
  | gauge =>
    have hnone : ∀ items : List (Key × Binary64), (items.flatMap fun e =>
        if e.1.1 = m.1 then [sampleOf m.1 e.1.2 (formatNumber e.2)] else []).filter counts = [] := by
      intro items
      rw [List.filter_eq_nil_iff]
      intro s hs
      obtain ⟨e, -, hs⟩ := List.mem_flatMap.mp hs
      split at hs
      · rw [List.mem_singleton.mp hs]
        have hname : counts (sampleOf m.1 e.1.2 (formatNumber e.2)) = false := countsName_gauge m hm hkind
        simp [hname]
      · cases hs
    exact (hnone _).trans (hnone _).symm

/-- **What is counted does not depend on the order of the calls.** -/
theorem scrape_order_free (h : calls.Perm calls') (hexact : CountsExactly calls) :
    (Exposition.read (renderPrometheus fsum (after calls))).map (·.filter counts) =
      (Exposition.read (renderPrometheus fsum (after calls'))).map (·.filter counts) := by
  rw [read_render fsum (inVocabulary_after calls), read_render fsum (inVocabulary_after calls'), Option.map_some,
    Option.map_some, samples, samples, List.filter_flatMap, List.filter_flatMap]
  exact congrArg some (List.flatMap_congr fun m hm => metric_counts fsum h hexact hm)

end

/-- A run is over, and an acquisition took half a second. -/
def twoCalls : List Call :=
  [.counter "bidscope_runs_total" (some (.ofList [("outcome", "completed")])) 1,
    .observe "bidscope_acquisition_duration_seconds" (some (1 / 2)) (some (.ofList [("source", "ccgp")]))]

theorem twoCalls_exact : CountsExactly twoCalls := by
  intro key _
  have hall : allCounted twoCalls = [1] := by decide +kernel
  have hsum := (counted_sublist twoCalls key).sum_le_sum (by simp [hall])
  rw [hall] at hsum
  exact hsum.trans (by decide)

theorem scrape_order_free_two :
    (Exposition.read (renderPrometheus List.sum (after twoCalls))).map (·.filter counts) =
      (Exposition.read (renderPrometheus List.sum (after twoCalls.reverse))).map (·.filter counts) :=
  scrape_order_free List.sum twoCalls.reverse_perm.symm twoCalls_exact

end BidScope.L14
