import Mathlib.Analysis.SpecialFunctions.Log.Base
import Mathlib.Tactic.FieldSimp
import Mathlib.Tactic.Ring
import BidScope.L11Evaluation.Ranking

/-!
# The metrics are lawful

**Law (`metrics_law`, `MetricsLaw`).** On every input a metric either rejects
the input with a `ValueError` or returns; no division is by zero and no index
out of range. Scores lie in the unit interval, F1 is the known quotient of the
counts, the ranking metrics are as `Ranking` has them for every discount, and
P50 and P95 lie in this order between the bounds of the sample.

* `scores_ok`, `average_unit`: one confusion table, and the mean over labels.
* `interpolate_mono`: a percentile rises with its fraction.
* `logDiscount`: the discount that the code uses.
-/
namespace BidScope.L11

open Gains

/-! ## Classification -/

section Field

variable {𝕜 : Type} [Field 𝕜] [LinearOrder 𝕜]

/-- A guarded division is a division. -/
theorem divideOrZero_eq (a b : 𝕜) : divideOrZero a b = .ok (a / b) := by
  rw [divideOrZero, divide]
  by_cases h : b = 0
  · rw [if_neg (not_not_intro h), h, div_zero]
  · rw [if_pos h, if_neg h]

end Field

structure Scores.InUnit (s : Scores) : Prop where
  precision : L11.InUnit s.precision
  recallScore : L11.InUnit s.recallScore
  f1 : L11.InUnit s.f1

/-- F1 by the counts. -/
def Confusion.F1 (c : Confusion) (s : Scores) : Prop :=
  0 < 2 * c.truePositive + c.falsePositive + c.falseNegative →
    s.f1 = 2 * c.truePositive / (2 * c.truePositive + c.falsePositive + c.falseNegative)

theorem unit_ratio (a b : Nat) : InUnit ((a : Rat) / (a + b)) := by
  refine ⟨by positivity, div_le_one_of_le₀ ?_ (by positivity)⟩
  exact le_add_of_nonneg_right (Nat.cast_nonneg b)

theorem unit_f1 {p r : Rat} (hp : InUnit p) (hr : InUnit r) :
    InUnit (2 * p * r / (p + r)) := by
  obtain ⟨hp0, hp1⟩ := hp
  obtain ⟨hr0, hr1⟩ := hr
  refine ⟨by positivity, div_le_one_of_le₀ ?_ (by positivity)⟩
  have h1 : p * r ≤ p := mul_le_of_le_one_right hp0 hr1
  have h2 : p * r ≤ r := mul_le_of_le_one_left hr0 hp1
  linarith

theorem f1_of_counts (t p n : Nat) (h : 0 < 2 * t + p + n) :
    2 * ((t : Rat) / (t + p)) * (t / (t + n)) / (t / (t + p) + t / (t + n)) =
      2 * t / (2 * t + p + n) := by
  rcases Nat.eq_zero_or_pos t with rfl | ht
  · simp
  · have ht' : (0 : Rat) < t := Nat.cast_pos.mpr ht
    have hp : (0 : Rat) ≤ p := Nat.cast_nonneg p
    have hn : (0 : Rat) ≤ n := Nat.cast_nonneg n
    have h1 : (t : Rat) + p ≠ 0 := by positivity
    have h2 : (t : Rat) + n ≠ 0 := by positivity
    have h3 : (2 * t + p + n : Rat) ≠ 0 := by positivity
    have hsum : (t : Rat) / (t + p) + t / (t + n) = t * (2 * t + p + n) / ((t + p) * (t + n)) := by
      field_simp
      ring
    rw [hsum]
    field_simp

theorem scores_ok (c : Confusion) : ∃ s, c.scores = .ok s ∧ s.InUnit ∧ c.F1 s := by
  have hp := unit_ratio c.truePositive c.falsePositive
  have hr := unit_ratio c.truePositive c.falseNegative
  refine ⟨⟨_, _, _⟩, ?_, ⟨hp, hr, unit_f1 hp hr⟩, f1_of_counts _ _ _⟩
  simp only [Confusion.scores, divideOrZero_eq]
  rfl

theorem mapM_bools : ∀ bools : List Bool, (bools.map Value.bool).mapM Value.bool? = some bools
  | [] => rfl
  | b :: bools => by
    rw [List.map_cons, List.mapM_cons, mapM_bools bools]
    rfl

theorem eq_of_mapM_bool : ∀ {values : List Value} {bools : List Bool},
    values.mapM Value.bool? = some bools → values = bools.map .bool
  | [], bools, h => by
    cases h
    rfl
  | v :: values, bools, h => by
    rw [List.mapM_cons] at h
    obtain ⟨b, hb, h⟩ := Option.bind_eq_some_iff.mp h
    obtain ⟨bs, hbs, h⟩ := Option.bind_eq_some_iff.mp h
    cases h
    cases v with
    | bool b' =>
      cases hb
      rw [List.map_cons, ← eq_of_mapM_bool hbs]
    | other => cases hb

theorem validate_bools (bools : List Bool) (name : String) :
    validateBooleanSequence (bools.map .bool) name = .ok bools := by
  rw [validateBooleanSequence, mapM_bools]

/-- What the check of a sequence comes to. -/
theorem validate_cases (values : List Value) (name : String) :
    (∃ message, validateBooleanSequence values name = .error (.value message)) ∨
      ∃ bools : List Bool, values = bools.map .bool := by
  unfold validateBooleanSequence
  cases h : values.mapM Value.bool? with
  | none => exact Or.inl ⟨_, rfl⟩
  | some bools => exact Or.inr ⟨bools, eq_of_mapM_bool h⟩

/-- What the binary metrics are computed from. -/
def BinaryInput (actual predicted : List Value) (xs ys : List Bool) : Prop :=
  actual = xs.map .bool ∧ predicted = ys.map .bool ∧ xs.length = ys.length

theorem binary_ok {actual predicted : List Value} {xs ys : List Bool}
    (h : BinaryInput actual predicted xs ys) :
    ∃ s, binaryClassificationMetrics actual predicted = .ok s ∧ s.InUnit ∧
      (confusion (xs.zip ys)).F1 s := by
  obtain ⟨rfl, rfl, hlen⟩ := h
  obtain ⟨s, hs, hlaw⟩ := scores_ok (confusion (xs.zip ys))
  refine ⟨s, ?_, hlaw⟩
  rw [binaryClassificationMetrics, List.length_map, List.length_map, if_neg (not_not_intro hlen),
    validate_bools, validate_bools]
  exact hs

theorem binary_rejects {actual predicted : List Value}
    (h : ¬ ∃ xs ys, BinaryInput actual predicted xs ys) :
    ∃ message, binaryClassificationMetrics actual predicted = .error (.value message) := by
  unfold binaryClassificationMetrics
  by_cases hlen : actual.length ≠ predicted.length
  · rw [if_pos hlen]
    exact ⟨_, rfl⟩
  · rw [if_neg hlen]
    rcases validate_cases actual "actual" with ⟨message, ha⟩ | ⟨xs, rfl⟩
    · exact ⟨message, by rw [ha]; rfl⟩
    · rcases validate_cases predicted "predicted" with ⟨message, hp⟩ | ⟨ys, rfl⟩
      · exact ⟨message, by rw [validate_bools, hp]; rfl⟩
      · exact absurd ⟨xs, ys, rfl, rfl, by simpa using hlen⟩ h

theorem mapM_ok {α β : Type} {f : α → Except MetricError β} {g : α → β} :
    ∀ {l : List α}, (∀ a ∈ l, f a = .ok (g a)) → l.mapM f = .ok (l.map g)
  | [], _ => rfl
  | a :: l, h => by
    rw [List.mapM_cons, h a (List.mem_cons_self ..),
      mapM_ok fun b hb => h b (List.mem_cons_of_mem _ hb)]
    rfl

theorem sum_unit : ∀ {values : List Rat}, (∀ v ∈ values, InUnit v) →
    0 ≤ values.sum ∧ values.sum ≤ values.length
  | [], _ => by simp
  | v :: values, h => by
    have hv := h v (List.mem_cons_self ..)
    have hrest := sum_unit fun w hw => h w (List.mem_cons_of_mem v hw)
    rw [List.sum_cons, List.length_cons, Nat.cast_add, Nat.cast_one]
    exact ⟨add_nonneg hv.1 hrest.1, by linarith [hv.2, hrest.2]⟩

theorem average_unit {values : List Rat} (h : ∀ v ∈ values, InUnit v) :
    ∃ q, average values = .ok q ∧ InUnit q := by
  unfold average
  by_cases hne : values ≠ []
  · have hlen : (values.length : Rat) ≠ 0 := by simpa using hne
    rw [if_pos hne, divide, if_neg hlen]
    obtain ⟨h0, h1⟩ := sum_unit h
    exact ⟨_, rfl, div_nonneg h0 (Nat.cast_nonneg _), div_le_one_of_le₀ h1 (Nat.cast_nonneg _)⟩
  · rw [if_neg hne]
    exact ⟨0, rfl, le_refl 0, zero_le_one⟩

theorem accuracy_unit (actual predicted : List String) :
    ∃ q, accuracyOf actual predicted = .ok q ∧ InUnit q := by
  have hle : (actual.zip predicted).countP (fun e => e.1 == e.2) ≤ actual.length := by
    refine Nat.le_trans List.countP_le_length ?_
    rw [List.length_zip]
    exact Nat.min_le_left ..
  unfold accuracyOf
  by_cases hne : actual ≠ []
  · have hzero : (actual.length : Rat) ≠ 0 := by simpa using hne
    rw [if_pos hne, divide, if_neg hzero]
    exact ⟨_, rfl, by positivity, div_le_one_of_le₀ (Nat.cast_le.mpr hle) (Nat.cast_nonneg _)⟩
  · rw [if_neg hne]
    exact ⟨0, rfl, le_refl 0, zero_le_one⟩

theorem multiclass_rejects (actual predicted : List String)
    (hlen : actual.length ≠ predicted.length) :
    ∃ message, multiclassClassificationMetrics actual predicted = .error (.value message) := by
  rw [multiclassClassificationMetrics, if_pos hlen]
  exact ⟨_, rfl⟩

theorem multiclass_ok (actual predicted : List String) (hlen : actual.length = predicted.length) :
    ∃ m, multiclassClassificationMetrics actual predicted = .ok m ∧
      m.perLabel.map Prod.fst = labelsOf actual predicted ∧
        (∀ e ∈ m.perLabel, e.2.InUnit ∧ (labelConfusion actual predicted e.1).F1 e.2) ∧
          m.macroScores.InUnit ∧ InUnit m.accuracy := by
  choose g hg hunit hf1 using fun label => scores_ok (labelConfusion actual predicted label)
  rw [multiclassClassificationMetrics, if_neg (not_not_intro hlen)]
  have hper : ((labelsOf actual predicted).mapM fun label => do
      return (label, ← (labelConfusion actual predicted label).scores)) =
        (.ok ((labelsOf actual predicted).map fun label => (label, g label)) :
          Except MetricError (List (String × Scores))) :=
    mapM_ok fun label _ => by rw [hg label]; rfl
  generalize hp : ((labelsOf actual predicted).map fun label => (label, g label)) = per at hper
  have hmem : ∀ e ∈ per, e.2.InUnit ∧ (labelConfusion actual predicted e.1).F1 e.2 := by
    intro e he
    rw [← hp] at he
    obtain ⟨label, -, rfl⟩ := List.mem_map.mp he
    exact ⟨hunit label, hf1 label⟩
  have havg : ∀ key : Scores → Rat, (∀ s : Scores, s.InUnit → InUnit (key s)) →
      ∃ q, average (per.map fun e => key e.2) = .ok q ∧ InUnit q := by
    intro key hkey
    refine average_unit fun v hv => ?_
    obtain ⟨e, he, rfl⟩ := List.mem_map.mp hv
    exact hkey _ (hmem e he).1
  obtain ⟨p, hpq, hpu⟩ := havg Scores.precision fun s h => h.precision
  obtain ⟨r, hrq, hru⟩ := havg Scores.recallScore fun s h => h.recallScore
  obtain ⟨f, hfq, hfu⟩ := havg Scores.f1 fun s h => h.f1
  obtain ⟨q, hq, hqu⟩ := accuracy_unit actual predicted
  refine ⟨⟨per, ⟨p, r, f⟩, q⟩, ?_, ?_, hmem, ⟨hpu, hru, hfu⟩, hqu⟩
  · rw [hper]
    simp only [bind, Except.bind, pure, Except.pure, hpq, hrq, hfq, hq]
  · rw [← hp, List.map_map]
    exact List.map_id _

/-! ## Latencies -/

/-- The value at a position between two indices. -/
def interpolate (values : List Rat) (position : Rat) : Rat :=
  values.getD ⌊position⌋₊ 0 +
    (values.getD ⌈position⌉₊ 0 - values.getD ⌊position⌋₊ 0) * (position - ⌊position⌋₊)

variable {values : List Rat} {p q : Rat}

theorem getD_of_lt {i : Nat} (h : i < values.length) : values.getD i 0 = values[i] := by
  rw [List.getD_eq_getElem?_getD, List.getElem?_eq_getElem h, Option.getD_some]

theorem valueAt_ok {i : Nat} (h : i < values.length) : valueAt values i = .ok (values.getD i 0) := by
  rw [valueAt, List.getElem?_eq_getElem h, getD_of_lt h]

theorem getD_mono (hs : values.Pairwise (· ≤ ·)) {i j : Nat} (hij : i ≤ j) (hj : j < values.length) :
    values.getD i 0 ≤ values.getD j 0 := by
  rw [getD_of_lt (Nat.lt_of_le_of_lt hij hj), getD_of_lt hj]
  rcases Nat.eq_or_lt_of_le hij with rfl | hlt
  · exact le_refl _
  · exact List.pairwise_iff_getElem.mp hs i j (by omega) hj hlt

/-- Positions within the list: the indices on both sides are too. -/
theorem ceil_lt (hq : q ≤ (values.length : Rat) - 1) (hne : values ≠ []) :
    ⌈q⌉₊ < values.length := by
  have hpos : 0 < values.length := List.length_pos_iff.mpr hne
  have hle : ⌈q⌉₊ ≤ values.length - 1 := by
    rw [Nat.ceil_le, Nat.cast_sub hpos, Nat.cast_one]
    exact hq
  omega

theorem percentile_ok {f : Rat} (hne : values ≠ []) (hf : f ≤ 1) :
    percentile values f = .ok (interpolate values (((values.length : Rat) - 1) * f)) := by
  have hlen : (1 : Rat) ≤ values.length := by
    exact_mod_cast List.length_pos_iff.mpr hne
  have hp : ((values.length : Rat) - 1) * f ≤ (values.length : Rat) - 1 :=
    mul_le_of_le_one_right (by linarith) hf
  have hceil := ceil_lt hp hne
  have hfloor := Nat.lt_of_le_of_lt (Nat.floor_le_ceil _) hceil
  unfold percentile interpolate
  generalize ((values.length : Rat) - 1) * f = position at hceil hfloor
  dsimp only
  by_cases heq : ⌊position⌋₊ = ⌈position⌉₊
  · rw [← heq, if_pos rfl, valueAt_ok hfloor, sub_self, zero_mul, add_zero]
  · rw [if_neg heq, valueAt_ok hfloor, valueAt_ok hceil]
    rfl

/-- An interpolated value lies between its neighbours. -/
theorem interpolate_between (hs : values.Pairwise (· ≤ ·)) (hne : values ≠ []) (h0 : 0 ≤ p)
    (hp : p ≤ (values.length : Rat) - 1) :
    values.getD ⌊p⌋₊ 0 ≤ interpolate values p ∧ interpolate values p ≤ values.getD ⌈p⌉₊ 0 := by
  have hmono := getD_mono hs (Nat.floor_le_ceil p) (ceil_lt hp hne)
  have hfloor : (⌊p⌋₊ : Rat) ≤ p := Nat.floor_le h0
  have hlt : p < ⌊p⌋₊ + 1 := Nat.lt_floor_add_one p
  have hlow : 0 ≤ (values.getD ⌈p⌉₊ 0 - values.getD ⌊p⌋₊ 0) * (p - ⌊p⌋₊) :=
    mul_nonneg (by linarith) (by linarith)
  have hhigh : (values.getD ⌈p⌉₊ 0 - values.getD ⌊p⌋₊ 0) * (p - ⌊p⌋₊) ≤
      values.getD ⌈p⌉₊ 0 - values.getD ⌊p⌋₊ 0 :=
    mul_le_of_le_one_right (by linarith) (by linarith)
  unfold interpolate
  constructor <;> linarith

theorem interpolate_mono (hs : values.Pairwise (· ≤ ·)) (hne : values ≠ []) (h0 : 0 ≤ p)
    (hpq : p ≤ q) (hq : q ≤ (values.length : Rat) - 1) :
    interpolate values p ≤ interpolate values q := by
  have hp := interpolate_between hs hne h0 (hpq.trans hq)
  have hq' := interpolate_between hs hne (h0.trans hpq) hq
  rcases Nat.eq_or_lt_of_le (Nat.floor_mono hpq) with heq | hlt
  · rcases Nat.eq_or_lt_of_le (Nat.floor_le_ceil p) with hint | hfrac
    · -- `p` is an index
      rw [← hint, heq] at hp
      exact hp.2.trans hq'.1
    · -- both lie between the same neighbours
      have hceil : ⌈q⌉₊ = ⌈p⌉₊ := by
        have h1 := Nat.ceil_le_floor_add_one q
        have h2 := Nat.ceil_mono hpq
        omega
      have hmono := getD_mono hs (Nat.floor_le_ceil q) (ceil_lt hq hne)
      have hle : (values.getD ⌈q⌉₊ 0 - values.getD ⌊q⌋₊ 0) * (p - ⌊q⌋₊) ≤
          (values.getD ⌈q⌉₊ 0 - values.getD ⌊q⌋₊ 0) * (q - ⌊q⌋₊) :=
        mul_le_mul_of_nonneg_left (by linarith) (by linarith)
      unfold interpolate
      rw [← hceil, heq]
      linarith
  · have hmid : ⌈p⌉₊ ≤ ⌊q⌋₊ := by
      have := Nat.ceil_le_floor_add_one p
      omega
    have hidx : ⌊q⌋₊ < values.length :=
      Nat.lt_of_le_of_lt (Nat.floor_le_ceil q) (ceil_lt hq hne)
    exact (hp.2.trans (getD_mono hs hmid hidx)).trans hq'.1

theorem latency_cases (v : Latency) (name : String) :
    (∃ message, validateNonnegativeFinite v name = .error (.value message)) ∨
      ∃ q, 0 ≤ q ∧ v = .number q := by
  cases v with
  | number q =>
    by_cases h : q < 0
    · exact Or.inl ⟨_, if_pos h⟩
    · exact Or.inr ⟨q, not_lt.mp h, rfl⟩
  | notFinite => exact Or.inl ⟨_, rfl⟩
  | notNumber => exact Or.inl ⟨_, rfl⟩

theorem mapM_numbers {qs : List Rat} (h : ∀ q ∈ qs, 0 ≤ q) :
    (qs.map Latency.number).mapM (validateNonnegativeFinite · "latency") = .ok qs := by
  have hmap : ∀ v ∈ qs.map Latency.number, validateNonnegativeFinite v "latency" =
      .ok (match v with | .number q => q | _ => 0) := by
    intro v hv
    obtain ⟨q, hq, rfl⟩ := List.mem_map.mp hv
    exact if_neg (not_lt.mpr (h q hq))
  rw [mapM_ok hmap, List.map_map]
  exact congrArg Except.ok (List.map_id _)

theorem mapM_rejects : ∀ {latencies : List Latency},
    (¬ ∃ qs : List Rat, latencies = qs.map .number ∧ ∀ q ∈ qs, 0 ≤ q) →
      ∃ message, latencies.mapM (validateNonnegativeFinite · "latency") = .error (.value message)
  | [], h => absurd ⟨[], rfl, fun q hq => by cases hq⟩ h
  | v :: latencies, h => by
    rw [List.mapM_cons]
    rcases latency_cases v "latency" with ⟨message, hv⟩ | ⟨q, hq, rfl⟩
    · exact ⟨message, by rw [hv]; rfl⟩
    · have hrest : ¬ ∃ qs : List Rat, latencies = qs.map .number ∧ ∀ q ∈ qs, 0 ≤ q := by
        rintro ⟨qs, rfl, hqs⟩
        refine h ⟨q :: qs, rfl, fun x hx => ?_⟩
        rcases List.mem_cons.mp hx with rfl | hx
        · exact hq
        · exact hqs x hx
      obtain ⟨message, hm⟩ := mapM_rejects hrest
      have hv : validateNonnegativeFinite (.number q) "latency" = .ok q := if_neg (not_lt.mpr hq)
      exact ⟨message, by rw [hv, hm]; rfl⟩

/-- P50 and P95 of a sorted sample. -/
theorem percentiles_of_sorted (hs : values.Pairwise (· ≤ ·)) (hne : values ≠ []) :
    ∃ p : Percentiles, percentile values (1 / 2) = .ok p.p50 ∧
      percentile values (19 / 20) = .ok p.p95 ∧ p.p50 ≤ p.p95 ∧
        (∀ low, (∀ q ∈ values, low ≤ q) → low ≤ p.p50) ∧
          ∀ high, (∀ q ∈ values, q ≤ high) → p.p95 ≤ high := by
  have hlen : (1 : Rat) ≤ values.length := by
    exact_mod_cast List.length_pos_iff.mpr hne
  have h50 : 0 ≤ ((values.length : Rat) - 1) * (1 / 2) := mul_nonneg (by linarith) (by norm_num)
  have h95 : ((values.length : Rat) - 1) * (19 / 20) ≤ (values.length : Rat) - 1 :=
    mul_le_of_le_one_right (by linarith) (by norm_num)
  have hle : ((values.length : Rat) - 1) * (1 / 2) ≤ ((values.length : Rat) - 1) * (19 / 20) :=
    mul_le_mul_of_nonneg_left (by norm_num) (by linarith)
  have hlow := interpolate_between hs hne h50 (hle.trans h95)
  have hhigh := interpolate_between hs hne (h50.trans hle) h95
  have hmem : ∀ i < values.length, values.getD i 0 ∈ values := by
    intro i hi
    rw [getD_of_lt hi]
    exact List.getElem_mem hi
  have hfloor := Nat.lt_of_le_of_lt (Nat.floor_le_ceil _) (ceil_lt (hle.trans h95) hne)
  refine ⟨⟨_, _⟩, percentile_ok hne (by norm_num), percentile_ok hne (by norm_num),
    interpolate_mono hs hne h50 hle h95, ?_, ?_⟩
  · intro low hl
    exact (hl _ (hmem _ hfloor)).trans hlow.1
  · intro high hh
    exact hhigh.2.trans (hh _ (hmem _ (ceil_lt h95 hne)))

theorem latency_ok {qs : List Rat} (hqs : ∀ q ∈ qs, 0 ≤ q) (hne : qs ≠ []) :
    ∃ p, percentileLatency (qs.map .number) = .ok p ∧ p.p50 ≤ p.p95 ∧
      (∀ low, (∀ q ∈ qs, low ≤ q) → low ≤ p.p50) ∧
        ∀ high, (∀ q ∈ qs, q ≤ high) → p.p95 ≤ high := by
  have hperm : (KeyOrder.orderBy (fun v : Rat => v) qs).Perm qs := KeyOrder.orderBy_perm _ qs
  have hsorted : KeyOrder.orderBy (fun v : Rat => v) qs ≠ [] := by
    intro he
    rw [he] at hperm
    exact hne (List.nil_perm.mp hperm)
  obtain ⟨p, h50, h95, hle, hlow, hhigh⟩ :=
    percentiles_of_sorted (KeyOrder.orderBy_sorted (fun v : Rat => v) qs) hsorted
  refine ⟨p, ?_, hle, ?_, ?_⟩
  · rw [percentileLatency, if_neg (by simpa using hne), mapM_numbers hqs]
    simp only [bind, Except.bind, pure, Except.pure, h50, h95]
  · exact fun low hl => hlow low fun q hq => hl q (hperm.mem_iff.mp hq)
  · exact fun high hh => hhigh high fun q hq => hh q (hperm.mem_iff.mp hq)

theorem latency_rejects {latencies : List Latency}
    (h : ¬ ∃ qs : List Rat, latencies = qs.map .number ∧ ∀ q ∈ qs, 0 ≤ q) :
    ∃ message, percentileLatency latencies = .error (.value message) := by
  have hne : latencies ≠ [] := by
    rintro rfl
    exact h ⟨[], rfl, fun q hq => by cases hq⟩
  obtain ⟨message, hm⟩ := mapM_rejects h
  exact ⟨message, by rw [percentileLatency, if_neg hne, hm]; rfl⟩

/-! ## The law -/

/-- What the metrics promise, for a discount of nDCG. -/
structure MetricsLaw {𝕜 : Type} [Field 𝕜] [LinearOrder 𝕜] (d : Discount 𝕜) : Prop where
  binary : ∀ actual predicted xs ys, BinaryInput actual predicted xs ys →
    ∃ s, binaryClassificationMetrics actual predicted = .ok s ∧ s.InUnit ∧
      (confusion (xs.zip ys)).F1 s
  binary_rejects : ∀ actual predicted, (¬ ∃ xs ys, BinaryInput actual predicted xs ys) →
    ∃ message, binaryClassificationMetrics actual predicted = .error (.value message)
  multiclass : ∀ actual predicted : List String, actual.length = predicted.length →
    ∃ m, multiclassClassificationMetrics actual predicted = .ok m ∧
      m.perLabel.map Prod.fst = labelsOf actual predicted ∧
        (∀ e ∈ m.perLabel, e.2.InUnit ∧ (labelConfusion actual predicted e.1).F1 e.2) ∧
          m.macroScores.InUnit ∧ InUnit m.accuracy
  multiclass_rejects : ∀ actual predicted : List String, actual.length ≠ predicted.length →
    ∃ message, multiclassClassificationMetrics actual predicted = .error (.value message)
  recall_unit : ∀ relevant ranked k, ∃ v, recallAtK relevant ranked k = .ok v ∧ InUnit v
  recall_mono : ∀ relevant ranked k k' v v', k ≤ k' → recallAtK relevant ranked k = .ok v →
    recallAtK relevant ranked k' = .ok v' → v ≤ v'
  ndcg_unit : ∀ relevant ranked k, ∃ v, ndcgAtK d relevant ranked k = .ok v ∧ InUnit v
  repeats : ∀ relevant ranked k,
    recallAtK relevant ranked k = recallAtK relevant (uniqueRanked ranked) k ∧
      ndcgAtK d relevant ranked k = ndcgAtK d relevant (uniqueRanked ranked) k
  ndcg_one : ∀ (relevant : Finset String) (ranked : List String) (k : Int), relevant ≠ ∅ → 0 < k →
    (ndcgAtK d relevant ranked k = .ok 1 ↔
      ∀ i < min relevant.card k.toNat, ∃ id ∈ relevant, (uniqueRanked ranked)[i]? = some id)
  ndcg_replace : ∀ (relevant : Finset String) (ranked : List String) (k : Int) (i : Nat)
    (id r : String) (v v' : 𝕜), ranked[i]? = some id → id ∉ relevant → r ∈ relevant →
      ndcgAtK d relevant ranked k = .ok v → ndcgAtK d relevant (ranked.set i r) k = .ok v' → v ≤ v'
  latency : ∀ qs : List Rat, (∀ q ∈ qs, 0 ≤ q) → qs ≠ [] →
    ∃ p, percentileLatency (qs.map .number) = .ok p ∧ p.p50 ≤ p.p95 ∧
      (∀ low, (∀ q ∈ qs, low ≤ q) → low ≤ p.p50) ∧
        ∀ high, (∀ q ∈ qs, q ≤ high) → p.p95 ≤ high
  latency_empty : percentileLatency [] = .ok ⟨0, 0⟩
  latency_rejects : ∀ latencies : List Latency,
    (¬ ∃ qs : List Rat, latencies = qs.map .number ∧ ∀ q ∈ qs, 0 ≤ q) →
      ∃ message, percentileLatency latencies = .error (.value message)

/-- **The metrics are lawful**, for every discount. -/
theorem metrics_law {𝕜 : Type} [Field 𝕜] [LinearOrder 𝕜] [IsStrictOrderedRing 𝕜]
    (d : Discount 𝕜) : MetricsLaw d where
  binary _ _ _ _ := binary_ok
  binary_rejects _ _ := binary_rejects
  multiclass := multiclass_ok
  multiclass_rejects := multiclass_rejects
  recall_unit := recall_unit
  recall_mono _ _ _ _ _ _ := recall_mono
  ndcg_unit := ndcg_unit d
  repeats relevant ranked k := by
    simp only [recallAtK, ndcgAtK, unique_unique, and_self]
  ndcg_one _ _ _ := ndcg_one_iff
  ndcg_replace _ _ _ _ _ _ _ _ := ndcg_replace
  latency _ := latency_ok
  latency_empty := rfl
  latency_rejects _ := latency_rejects

/-- `1.0 / math.log2(index + 2)`
mirrors evaluation/metrics.py:113 -/
noncomputable def logDiscount : Discount ℝ where
  weight i := 1 / Real.logb 2 (i + 2)
  pos i := by
    have hi : (0 : ℝ) ≤ i := Nat.cast_nonneg i
    exact one_div_pos.mpr (Real.logb_pos (by norm_num) (by linarith))
  falls i := by
    have hi : (0 : ℝ) ≤ i := Nat.cast_nonneg i
    refine one_div_lt_one_div_of_lt (Real.logb_pos (by norm_num) (by linarith)) ?_
    rw [Nat.cast_add, Nat.cast_one]
    exact Real.logb_lt_logb (by norm_num) (by linarith) (by linarith)

theorem metrics_law_log : MetricsLaw logDiscount := metrics_law logDiscount

end BidScope.L11
