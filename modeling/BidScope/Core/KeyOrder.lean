import Mathlib.Data.List.Perm.Basic
import Mathlib.Data.List.Sort

/-!
# Rows ordered by a key

`orderBy key rows` is what `ORDER BY key` returns. When the keys are distinct
the result depends on the rows alone, not on the order they are stored in.

* `orderBy_perm`: the rows are kept, each once.
* `orderBy_unique`: with distinct keys any sorted arrangement is the result.
* `exists_keys`: keys assigned to rows in any order of storage can bring about
  every arrangement of them, so nothing but the content as a multiset is
  common to all assignments.
* `orderBy_stable`, `idxOf_orderBy`: ties keep the order of the rows, and the
  place of a row is the number of rows that come before it.
* `mem_take_orderBy`: the first rows, by how many have a lower key.
-/

universe u v

namespace KeyOrder

variable {α : Type u} {κ : Type v} [LinearOrder κ]

def orderBy (key : α → κ) (rows : List α) : List α :=
  rows.insertionSort fun a b => key a ≤ key b

theorem orderBy_perm (key : α → κ) (rows : List α) : (orderBy key rows).Perm rows :=
  List.perm_insertionSort _ rows

theorem orderBy_sorted (key : α → κ) (rows : List α) :
    (orderBy key rows).Pairwise fun a b => key a ≤ key b := by
  have htotal : Std.Total fun a b : α => key a ≤ key b := ⟨fun a b => le_total (key a) (key b)⟩
  have htrans : IsTrans α fun a b => key a ≤ key b := ⟨fun _ _ _ h₁ h₂ => le_trans h₁ h₂⟩
  exact List.pairwise_insertionSort _ rows

/-- Two sorted arrangements of rows with distinct keys are the same. -/
theorem sorted_unique {key : α → κ} :
    ∀ {l₁ l₂ : List α}, l₁.Perm l₂ → (l₁.map key).Nodup →
      l₁.Pairwise (fun a b => key a ≤ key b) → l₂.Pairwise (fun a b => key a ≤ key b) → l₁ = l₂
  | [], l₂, hp, _, _, _ => (List.nil_perm.mp hp).symm
  | a :: l₁, [], hp, _, _, _ => absurd hp.length_eq (by simp)
  | a :: l₁, b :: l₂, hp, hd, hs₁, hs₂ => by
    have hab : key a ≤ key b := by
      rcases List.mem_cons.mp (hp.symm.subset (List.mem_cons_self ..)) with rfl | hb
      · exact le_refl _
      · exact List.rel_of_pairwise_cons hs₁ hb
    have hba : key b ≤ key a := by
      rcases List.mem_cons.mp (hp.subset (List.mem_cons_self ..)) with rfl | ha
      · exact le_refl _
      · exact List.rel_of_pairwise_cons hs₂ ha
    have hkey : key b = key a := le_antisymm hba hab
    have heq : b = a := by
      rcases List.mem_cons.mp (hp.symm.subset (List.mem_cons_self ..)) with h | hb
      · exact h
      · have hmem : key a ∈ l₁.map key := by
          rw [← hkey]
          exact List.mem_map_of_mem hb
        exact absurd hmem (List.nodup_cons.mp hd).1
    subst heq
    rw [sorted_unique hp.cons_inv (List.nodup_cons.mp hd).2 hs₁.of_cons hs₂.of_cons]

theorem orderBy_unique {key : α → κ} {rows l : List α} (hp : l.Perm rows)
    (hd : (rows.map key).Nodup) (hs : l.Pairwise fun a b => key a ≤ key b) :
    orderBy key rows = l :=
  sorted_unique ((orderBy_perm key rows).trans hp.symm)
    (((orderBy_perm key rows).map key).nodup_iff.mpr hd) (orderBy_sorted key rows) hs

/-- A rearrangement of the images of a list comes from one of the list. -/
theorem exists_perm_map {β : Type v} {f : α → β} {l : List α} {m : List β}
    (h : (l.map f).Perm m) : ∃ l' : List α, l'.Perm l ∧ l'.map f = m := by
  generalize hl : l.map f = l₀ at h
  induction h generalizing l with
  | nil =>
    rw [List.map_eq_nil_iff] at hl
    exact ⟨[], by rw [hl], rfl⟩
  | cons x hp ih =>
    obtain ⟨a, t, rfl, rfl, ht⟩ := List.map_eq_cons_iff.mp hl
    obtain ⟨l', hl', hm⟩ := ih ht
    exact ⟨a :: l', hl'.cons a, by rw [List.map_cons, hm]⟩
  | swap x y t =>
    obtain ⟨a, s, rfl, rfl, hs⟩ := List.map_eq_cons_iff.mp hl
    obtain ⟨b, r, rfl, rfl, hr⟩ := List.map_eq_cons_iff.mp hs
    exact ⟨b :: a :: r, List.Perm.swap a b r, by rw [List.map_cons, List.map_cons, hr]⟩
  | trans h₁ h₂ ih₁ ih₂ =>
    obtain ⟨l₁, hp₁, hm₁⟩ := ih₁ hl
    obtain ⟨l₂, hp₂, hm₂⟩ := ih₂ hm₁
    exact ⟨l₂, hp₂.trans hp₁, hm₂⟩

/-- Rows stored in the order of `values` whose keys, all from `base` on, put
them in the order of `target`. -/
theorem exists_keys {β : Type v} {values target : List β} (h : target.Perm values) (base : Nat) :
    ∃ rows : List (Nat × β), rows.map Prod.snd = values ∧
      (orderBy Prod.fst rows).map Prod.snd = target ∧ (rows.map Prod.fst).Nodup ∧
      ∀ row ∈ rows, base ≤ row.1 ∧ row.1 < base + values.length := by
  -- number the rows in the order wanted, then store them in the order given
  have hsnd : ((List.range' base target.length).zip target).map Prod.snd = target :=
    List.map_snd_zip (by rw [List.length_range'])
  have hfst : ((List.range' base target.length).zip target).map Prod.fst =
      List.range' base target.length := List.map_fst_zip (by rw [List.length_range'])
  obtain ⟨rows, hperm, hval⟩ := exists_perm_map (f := Prod.snd)
    (l := (List.range' base target.length).zip target) (m := values) (by rw [hsnd]; exact h)
  have hkeys : (rows.map Prod.fst).Perm (List.range' base target.length) := by
    rw [← hfst]
    exact hperm.map Prod.fst
  have hnodup : (rows.map Prod.fst).Nodup := hkeys.nodup_iff.mpr List.nodup_range'
  refine ⟨rows, hval, ?_, hnodup, fun row hrow => ?_⟩
  · rw [orderBy_unique hperm.symm hnodup, hsnd]
    have hs : (((List.range' base target.length).zip target).map Prod.fst).Pairwise (· ≤ ·) := by
      rw [hfst]
      exact List.pairwise_le_range'
    exact List.pairwise_map.mp hs
  · have hmem := hkeys.subset (List.mem_map_of_mem hrow)
    have := List.mem_range'_1.mp hmem
    rw [h.length_eq] at this
    exact this

theorem map_orderBy {β : Type u} (f : α → β) (key : β → κ) (rows : List α) :
    (orderBy (fun a => key (f a)) rows).map f = orderBy key (rows.map f) :=
  List.map_insertionSort _ _ f rows fun _ _ _ _ => Iff.rfl

/-! ## Ties -/

theorem pair_asymm {a b : α} {l : List α} (hd : l.Nodup) (hab : [a, b].Sublist l) :
    ¬ [b, a].Sublist l := by
  intro hba
  induction l with
  | nil => cases hab
  | cons c l ih =>
    obtain ⟨hc, hd'⟩ := List.nodup_cons.mp hd
    cases hab with
    | cons _ hab =>
      cases hba with
      | cons _ hba => exact ih hd' hab hba
      | cons_cons _ hba => exact hc (hab.subset (by simp))
    | cons_cons _ hab =>
      cases hba with
      | cons _ hba => exact hc (hba.subset (by simp))
      | cons_cons _ hba => exact hc (hab.subset (by simp))

section Ties

variable [DecidableEq α]

/-- `a` comes before `b` in the order by `key`: ties keep the order of the rows. -/
def Before (key : α → κ) (rows : List α) (a b : α) : Prop :=
  key a < key b ∨ key a = key b ∧ rows.idxOf a < rows.idxOf b

instance (key : α → κ) (rows : List α) (a b : α) : Decidable (Before key rows a b) :=
  inferInstanceAs (Decidable (_ ∨ _))

theorem sublist_of_idxOf {a b : α} : ∀ {l : List α}, b ∈ l → l.idxOf a < l.idxOf b → [a, b].Sublist l
  | [], hb, _ => absurd hb (by simp)
  | c :: l, hb, h => by
    by_cases hac : c = a
    · subst hac
      have hne : b ≠ c := by
        rintro rfl
        simp at h
      have hbl : b ∈ l := (List.mem_cons.mp hb).resolve_left hne
      exact (List.singleton_sublist.mpr hbl).cons_cons c
    · have hbc : c ≠ b := by
        rintro rfl
        simp at h
      rw [List.idxOf_cons_ne _ hac, List.idxOf_cons_ne _ hbc] at h
      exact (sublist_of_idxOf ((List.mem_cons.mp hb).resolve_left (Ne.symm hbc)) (by omega)).cons c

/-- The order by a key is stable. -/
theorem orderBy_stable {key : α → κ} {rows : List α} (hd : rows.Nodup) :
    (orderBy key rows).Pairwise (Before key rows) := by
  have hdo : (orderBy key rows).Nodup := (orderBy_perm key rows).nodup_iff.mpr hd
  rw [List.pairwise_iff_forall_sublist]
  intro a b hab
  have hle : key a ≤ key b := List.pairwise_iff_forall_sublist.mp (orderBy_sorted key rows) hab
  rcases lt_or_eq_of_le hle with hlt | heq
  · exact .inl hlt
  · refine .inr ⟨heq, ?_⟩
    by_contra hnot
    have hne : b ≠ a := by
      rintro rfl
      exact absurd (hdo.sublist hab) (by simp)
    have hbmem : b ∈ rows := (orderBy_perm key rows).subset (hab.subset (by simp))
    have hamem : a ∈ rows := (orderBy_perm key rows).subset (hab.subset (by simp))
    have hidx : rows.idxOf b ≠ rows.idxOf a := fun he => hne ((List.idxOf_inj hbmem).mp he)
    have hba : [b, a].Sublist rows := sublist_of_idxOf hamem (by omega)
    exact pair_asymm hdo hab (List.pair_sublist_insertionSort (r := fun x y => key x ≤ key y) heq.ge hba)

/-- Where a list is ordered by `R`, the place of an element is the number of those before it. -/
theorem idxOf_eq_countP {R : α → α → Prop} [DecidableRel R] (hasymm : ∀ a b, R a b → ¬ R b a) {b : α} :
    ∀ {l : List α}, l.Pairwise R → b ∈ l → l.idxOf b = l.countP fun a => decide (R a b)
  | c :: l, h, hb => by
    obtain ⟨hc, hl⟩ := List.pairwise_cons.mp h
    by_cases hcb : c = b
    · subst hcb
      have hnone : ∀ a ∈ c :: l, ¬ decide (R a c) = true := by
        intro a ha
        rw [decide_eq_true_eq]
        rcases List.mem_cons.mp ha with rfl | ha
        · exact fun hr => hasymm _ _ hr hr
        · exact hasymm _ _ (hc a ha)
      rw [List.idxOf_cons_self, List.countP_eq_zero.mpr hnone]
    · have hbl : b ∈ l := (List.mem_cons.mp hb).resolve_left (Ne.symm hcb)
      rw [List.idxOf_cons_ne _ hcb, idxOf_eq_countP hasymm hl hbl,
        List.countP_cons_of_pos (p := fun a => decide (R a b)) (decide_eq_true (hc b hbl))]

theorem before_asymm {key : α → κ} {rows : List α} (a b : α) (h : Before key rows a b) :
    ¬ Before key rows b a := by
  rcases h with hlt | ⟨heq, hidx⟩
  · rintro (hlt' | ⟨heq', -⟩)
    · exact lt_asymm hlt hlt'
    · exact absurd heq' hlt.ne'
  · rintro (hlt' | ⟨-, hidx'⟩)
    · exact absurd heq hlt'.ne'
    · omega

/-- The place of a row is the number of rows that come before it. -/
theorem idxOf_orderBy {key : α → κ} {rows : List α} (hd : rows.Nodup) {b : α} (hb : b ∈ rows) :
    (orderBy key rows).idxOf b = rows.countP fun a => decide (Before key rows a b) := by
  rw [idxOf_eq_countP before_asymm (orderBy_stable hd) ((orderBy_perm key rows).symm.subset hb),
    (orderBy_perm key rows).countP_eq]

/-- With distinct keys the first `n` rows are those with fewer than `n` before them. -/
theorem mem_take_orderBy {key : α → κ} {rows : List α} (hd : (rows.map key).Nodup) {a : α}
    (ha : a ∈ rows) {n : Nat} :
    a ∈ (orderBy key rows).take n ↔ (rows.countP fun b => decide (key b < key a)) < n := by
  have hmem : a ∈ orderBy key rows := (orderBy_perm key rows).symm.subset ha
  have hbefore : (rows.countP fun b => decide (Before key rows b a)) =
      rows.countP fun b => decide (key b < key a) := by
    refine List.countP_congr fun b hb => ?_
    rw [decide_eq_true_eq, decide_eq_true_eq]
    constructor
    · rintro (hlt | ⟨heq, hidx⟩)
      · exact hlt
      · rw [List.inj_on_of_nodup_map hd hb ha heq] at hidx
        exact absurd hidx (lt_irrefl _)
    · exact Or.inl
  rw [List.mem_take_iff_idxOf_lt hmem, idxOf_orderBy hd.of_map ha, hbefore]
end Ties

end KeyOrder
