import Mathlib.Algebra.Order.Ring.Rat
import BidScope.L11Evaluation.Metrics

/-!
# Recall and nDCG

Both metrics look at a ranking through its `flags`: the distinct results from
the first on, each relevant or not. Recall counts the flags that are set up to
the cut (`recall_eq`), nDCG is their gain over the gain of a ranking that
begins with all relevant results (`ndcg_eq`), which has the most hits at every
cut (`hits_le_ideal`).

* `recall_unit`, `recall_mono`; `ndcg_unit`: the bounds, and recall along `k`.
* `ndcg_one_iff`: nDCG is 1 for the rankings that begin with relevant results.
* `ndcg_replace`: a relevant result in the place of an irrelevant one.
* `unique_unique`: a ranking is scored as the list of its first occurrences.
-/
namespace BidScope.L11

open Gains

def InUnit {𝕜 : Type} [Field 𝕜] [LinearOrder 𝕜] (q : 𝕜) : Prop := 0 ≤ q ∧ q ≤ 1

/-- Which of the distinct results are relevant. -/
def flags (relevant : Finset String) (ranked : List String) : List Bool :=
  (uniqueRanked ranked).map fun id => decide (id ∈ relevant)

variable {relevant : Finset String} {ranked : List String} {k k' : Int} {n : Nat}

theorem unique_unique (ranked : List String) : uniqueRanked (uniqueRanked ranked) = uniqueRanked ranked :=
  firsts_of_nodup (nodup_firsts ranked []) fun _ _ h => by cases h

/-- The relevant ones among distinct ids. -/
theorem count_relevant {l : List String} (hd : l.Nodup) :
    (l.map fun id => decide (id ∈ relevant)).count true = (relevant ∩ l.toFinset).card := by
  have hfilter : (l.filter fun id => decide (id ∈ relevant)).toFinset = relevant ∩ l.toFinset := by
    ext id
    simp [and_comm]
  rw [← hfilter, List.toFinset_card_of_nodup (hd.filter _), List.count, List.countP_map,
    List.countP_eq_length_filter]
  congr 2
  funext id
  simp

theorem hits_flags (n : Nat) : hits (flags relevant ranked) n =
    (relevant ∩ ((uniqueRanked ranked).take n).toFinset).card := by
  have hnodup : ((uniqueRanked ranked).take n).Nodup :=
    (nodup_firsts ranked []).sublist (List.take_sublist ..)
  rw [hits, flags, ← List.map_take, count_relevant hnodup]

theorem hits_le_card (n : Nat) : hits (flags relevant ranked) n ≤ relevant.card := by
  rw [hits_flags]
  exact Finset.card_le_card Finset.inter_subset_left

/-! ## Recall -/

theorem recall_zero (h : relevant = ∅ ∨ k ≤ 0) : recallAtK relevant ranked k = .ok 0 := if_pos h

theorem recall_eq (h : ¬ (relevant = ∅ ∨ k ≤ 0)) :
    recallAtK relevant ranked k =
      .ok ((hits (flags relevant ranked) k.toNat : Rat) / relevant.card) := by
  have hcard : (relevant.card : Rat) ≠ 0 := by
    rw [Nat.cast_ne_zero, Finset.card_ne_zero, Finset.nonempty_iff_ne_empty]
    exact fun he => h (Or.inl he)
  rw [recallAtK, if_neg h, divide, if_neg hcard, hits_flags]

theorem recall_unit (relevant : Finset String) (ranked : List String) (k : Int) :
    ∃ v, recallAtK relevant ranked k = .ok v ∧ InUnit v := by
  by_cases h : relevant = ∅ ∨ k ≤ 0
  · exact ⟨0, recall_zero h, le_refl 0, zero_le_one⟩
  · refine ⟨_, recall_eq h, by positivity, div_le_one_of_le₀ ?_ (Nat.cast_nonneg _)⟩
    exact Nat.cast_le.mpr (hits_le_card _)

/-- A later cut finds no fewer. -/
theorem recall_mono {v v' : Rat} (hk : k ≤ k') (h : recallAtK relevant ranked k = .ok v)
    (h' : recallAtK relevant ranked k' = .ok v') : v ≤ v' := by
  by_cases hz : relevant = ∅ ∨ k ≤ 0
  · obtain ⟨w, hw, hunit⟩ := recall_unit relevant ranked k'
    rw [recall_zero hz] at h
    rw [hw] at h'
    cases h
    cases h'
    exact hunit.1
  · have hz' : ¬ (relevant = ∅ ∨ k' ≤ 0) := fun hc => hz (hc.imp_right fun h0 => by omega)
    rw [recall_eq hz] at h
    rw [recall_eq hz'] at h'
    cases h
    cases h'
    have hmono : hits (flags relevant ranked) k.toNat ≤ hits (flags relevant ranked) k'.toNat :=
      hits_mono _ (Int.toNat_le_toNat hk)
    exact div_le_div_of_nonneg_right (Nat.cast_le.mpr hmono) (Nat.cast_nonneg _)

/-! ## nDCG -/

section Ndcg

variable {𝕜 : Type} [Field 𝕜] [LinearOrder 𝕜] [IsStrictOrderedRing 𝕜] {d : Discount 𝕜}

omit [LinearOrder 𝕜] [IsStrictOrderedRing 𝕜] in
theorem dcg_eq (w : Nat → 𝕜) : ∀ (l : List String) (i : Nat),
    (((l.zipIdx i).filter fun e => e.1 ∈ relevant).map fun e => w e.2).sum =
      gainFrom w i (l.map fun id => decide (id ∈ relevant))
  | [], i => rfl
  | id :: l, i => by
    have ih := dcg_eq w l (i + 1)
    rw [List.zipIdx_cons, List.map_cons, gainFrom, ← ih]
    by_cases h : id ∈ relevant <;> simp [h]

omit [LinearOrder 𝕜] [IsStrictOrderedRing 𝕜] in
theorem ideal_eq (w : Nat → 𝕜) : ∀ (m i : Nat),
    ((List.range' i m).map w).sum = gainFrom w i (List.replicate m true)
  | 0, i => rfl
  | m + 1, i => by
    rw [List.range'_succ, List.map_cons, List.sum_cons, List.replicate_succ, gainFrom, if_pos rfl,
      ideal_eq w m (i + 1)]

/-- As many relevant results as fit above the cut. -/
def idealFlags (relevant : Finset String) (k : Int) : List Bool :=
  List.replicate (min relevant.card k.toNat) true

theorem ideal_pos (h : ¬ (relevant = ∅ ∨ k ≤ 0)) :
    0 < gainFrom d.weight 0 (idealFlags relevant k) := by
  rw [not_or, ← Ne.eq_def, ← Finset.nonempty_iff_ne_empty, ← Finset.card_pos] at h
  exact gain_replicate_pos d (by omega)

omit [IsStrictOrderedRing 𝕜] in
theorem ndcg_zero (h : relevant = ∅ ∨ k ≤ 0) : ndcgAtK d relevant ranked k = .ok 0 := if_pos h

theorem ndcg_eq (h : ¬ (relevant = ∅ ∨ k ≤ 0)) :
    ndcgAtK d relevant ranked k = .ok (gainFrom d.weight 0 ((flags relevant ranked).take k.toNat) /
      gainFrom d.weight 0 (idealFlags relevant k)) := by
  have hpos := ideal_pos (d := d) h
  rw [ndcgAtK, if_neg h]
  simp only [List.range_eq_range', ideal_eq, dcg_eq]
  rw [divideOrZero, if_pos (by exact hpos.ne'), divide, if_neg (by exact hpos.ne'), flags,
    ← List.map_take]
  rfl

theorem hits_le_ideal (j : Nat) :
    hits ((flags relevant ranked).take k.toNat) j ≤ hits (idealFlags relevant k) j := by
  have hj := hits_le (flags relevant ranked) (min j k.toNat)
  have hcard := @hits_le_card relevant ranked (min j k.toNat)
  rw [hits_take, idealFlags, hits_replicate]
  omega

theorem ndcg_unit (d : Discount 𝕜) (relevant : Finset String) (ranked : List String) (k : Int) :
    ∃ v, ndcgAtK d relevant ranked k = .ok v ∧ InUnit v := by
  by_cases h : relevant = ∅ ∨ k ≤ 0
  · exact ⟨0, ndcg_zero h, le_refl 0, zero_le_one⟩
  · have hpos := ideal_pos (d := d) h
    refine ⟨_, ndcg_eq h, div_nonneg (gain_nonneg d _ 0) hpos.le, ?_⟩
    exact div_le_one_of_le₀ (gain_le hits_le_ideal) hpos.le

/-- The rankings that score best. -/
theorem ndcg_one_iff (hne : relevant ≠ ∅) (hk : 0 < k) :
    ndcgAtK d relevant ranked k = .ok 1 ↔
      ∀ i < min relevant.card k.toNat, ∃ id ∈ relevant, (uniqueRanked ranked)[i]? = some id := by
  have h : ¬ (relevant = ∅ ∨ k ≤ 0) := by
    rintro (h | h)
    · exact hne h
    · omega
  have hpos := ideal_pos (d := d) h
  have hflag : ∀ i : Nat, ((flags relevant ranked)[i]? = some true ↔
      ∃ id ∈ relevant, (uniqueRanked ranked)[i]? = some id) := by
    intro i
    rw [flags, List.getElem?_map, Option.map_eq_some_iff]
    simp only [decide_eq_true_eq]
    exact exists_congr fun id => and_comm
  simp only [ndcg_eq h, Except.ok.injEq, div_eq_one_iff_eq hpos.ne', ← hflag, ← hits_eq_self]
  constructor
  · intro heq
    have hm := hits_eq_of_gain_le (d := d) (i := 0) hits_le_ideal heq.ge
      (min relevant.card k.toNat)
    rw [idealFlags, hits_replicate, hits_take, Nat.min_self,
      Nat.min_eq_left (Nat.min_le_right ..)] at hm
    exact hm
  · intro hm
    refine le_antisymm (gain_le hits_le_ideal) (gain_le fun j => ?_)
    -- every flag above the cut is set, so a shorter cut has only set flags too
    have hfirst := hits_eq_self.mp hm
    have hj : hits (flags relevant ranked) (min j (min relevant.card k.toNat)) =
        min j (min relevant.card k.toNat) := hits_eq_self.mpr fun i hi => hfirst i (by omega)
    have hmono := hits_mono (flags relevant ranked)
      (show min j (min relevant.card k.toNat) ≤ min j k.toNat by omega)
    rw [idealFlags, hits_replicate, hits_take]
    omega

/-- A relevant result in the place of an irrelevant one. -/
theorem ndcg_replace {i : Nat} {id r : String} {v v' : 𝕜} (hi : ranked[i]? = some id)
    (hid : id ∉ relevant) (hr : r ∈ relevant) (h : ndcgAtK d relevant ranked k = .ok v)
    (h' : ndcgAtK d relevant (ranked.set i r) k = .ok v') : v ≤ v' := by
  obtain ⟨hlt, hget⟩ := List.getElem?_eq_some_iff.mp hi
  have hsplit : ranked = ranked.take i ++ id :: ranked.drop (i + 1) := by
    rw [← hget, List.getElem_cons_drop, List.take_append_drop]
  have hset : ranked.set i r = ranked.take i ++ r :: ranked.drop (i + 1) := by
    rw [List.set_eq_take_append_cons_drop, if_pos hlt]
  have hhits : ∀ j, hits (flags relevant ranked) j ≤ hits (flags relevant (ranked.set i r)) j := by
    intro j
    have hle := hits_replace (p := fun id => decide (id ∈ relevant)) (decide_eq_false hid)
      (decide_eq_true hr) (ranked.drop (i + 1)) (ranked.take i) [] j
    rwa [← hsplit, ← hset] at hle
  by_cases hz : relevant = ∅ ∨ k ≤ 0
  · rw [ndcg_zero hz] at h h'
    cases h
    cases h'
    exact le_refl 0
  · rw [ndcg_eq hz] at h h'
    cases h
    cases h'
    refine div_le_div_of_nonneg_right (gain_le fun j => ?_) (ideal_pos hz).le
    rw [hits_take, hits_take]
    exact hhits _

end Ndcg

end BidScope.L11
