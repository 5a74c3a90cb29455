import Mathlib.Data.List.Forall2
import Mathlib.Data.Prod.Lex
import BidScope.Core.KeyOrder
import BidScope.Core.Ledger

/-!
# Parent and child tables

Trees flattened into tables: every child row names its parent by a key, and
the tree is rebuilt by selecting the children of a parent and ordering them.

* `filter_orderBy`: selecting from ordered rows is ordering the selected ones.
* `filter_children`: of the children of all parents, those that name one are
  its own.
* `select_children`: a query for the children of many parents, ordered by
  parent and ordinal, gives each parent its own children in order.
* `first_unique`: a row is found by its own key.
* `append_nodup`, `append_refs`: keys and references of tables that got new rows.
* `forall₂_map`, `forall₂_numbered`: rows written for a list, one each, read back.
-/

universe u v w

namespace Joins

open KeyOrder

section Order

variable {α : Type u} {κ : Type v} [LinearOrder κ] {key : α → κ} {rows : List α}

theorem orderBy_sorted_eq (hd : (rows.map key).Nodup)
    (hs : rows.Pairwise fun a b => key a ≤ key b) : orderBy key rows = rows :=
  orderBy_unique (List.Perm.refl rows) hd hs

theorem filter_orderBy (p : α → Bool) (hd : (rows.map key).Nodup) :
    (orderBy key rows).filter p = orderBy key (rows.filter p) := by
  have hsub : ((rows.filter p).map key).Nodup := hd.sublist (List.filter_sublist.map key)
  exact (orderBy_unique ((orderBy_perm key rows).filter p) hsub
    ((orderBy_sorted key rows).filter p)).symm

end Order

section Children

variable {α : Type u} {β : Type v} {κ : Type w} [DecidableEq κ] {key : α → κ} {parent : β → κ}
  {children : α → List β} {parents : List α}

theorem filter_no_children {k : κ} (hc : ∀ p ∈ parents, ∀ c ∈ children p, parent c = key p)
    (hk : k ∉ parents.map key) : (parents.flatMap children).filter (parent · = k) = [] := by
  rw [List.filter_eq_nil_iff]
  intro c hmem
  obtain ⟨p, hp, hcp⟩ := List.mem_flatMap.mp hmem
  rw [decide_eq_true_eq, hc p hp c hcp]
  intro heq
  exact hk (heq ▸ List.mem_map_of_mem hp)

theorem filter_children (hd : (parents.map key).Nodup)
    (hc : ∀ p ∈ parents, ∀ c ∈ children p, parent c = key p) {a : α} (ha : a ∈ parents) :
    (parents.flatMap children).filter (parent · = key a) = children a := by
  induction parents with
  | nil => cases ha
  | cons p ps ih =>
    have hall : ∀ c ∈ children p, parent c = key p := hc p (List.mem_cons_self ..)
    have hrest : ∀ q ∈ ps, ∀ c ∈ children q, parent c = key q :=
      fun q hq => hc q (List.mem_cons_of_mem _ hq)
    rw [List.map_cons, List.nodup_cons] at hd
    rw [List.flatMap_cons, List.filter_append]
    rcases List.mem_cons.mp ha with rfl | ha
    · rw [filter_no_children hrest hd.1, List.append_nil, List.filter_eq_self]
      intro c hcp
      rw [decide_eq_true_eq]
      exact hall c hcp
    · have hne : key p ≠ key a := fun heq => hd.1 (heq ▸ List.mem_map_of_mem ha)
      have hnone : (children p).filter (parent · = key a) = [] := by
        rw [List.filter_eq_nil_iff]
        intro c hcp
        rw [decide_eq_true_eq, hall c hcp]
        exact hne
      rw [hnone, List.nil_append]
      exact ih hd.2 hrest ha

/-- What is selected after a join is the join of what is selected. -/
theorem filter_join {α' γ δ : Type*} {rows : List α'} (on : α' → Option γ) (f : α' → γ → δ)
    (p : δ → Bool) (q : α' → Bool) (h : ∀ a c, p (f a c) = q a) :
    (rows.filterMap fun a => (on a).map (f a)).filter p =
      (rows.filter q).filterMap fun a => (on a).map (f a) := by
  induction rows with
  | nil => rfl
  | cons a rows ih =>
    cases hon : on a with
    | none => by_cases hq : q a = true <;> simp [hon, hq, ih]
    | some c => by_cases hq : q a = true <;> simp [hon, hq, ih, h]

/-- A row is found by its own key. -/
theorem first_unique {rows : List α} {a : α} (hd : (rows.map key).Nodup) (ha : a ∈ rows) :
    Ledger.first key rows (key a) = some a := by
  obtain ⟨b, hb⟩ : ∃ b, Ledger.first key rows (key a) = some b := Ledger.first_isSome ha
  obtain ⟨hmem, hkey⟩ := Ledger.first_mem hb
  rw [hb, List.inj_on_of_nodup_map hd hmem ha hkey]

/-- A row stays found when the table grows. -/
theorem first_grown {rows more : List α} {a : α} {k : κ}
    (h : Ledger.first key rows k = some a) : Ledger.first key (rows ++ more) k = some a := by
  unfold Ledger.first at *
  rw [List.find?_append, h]
  rfl

end Children

section Siblings

variable {α β : Type*} {key : α → Nat} {parents : List α} {children : α → List β}

/-- `ORDER BY parent, ordinal, id` -/
def siblingKey (parent ordinal id : Nat) : Nat ×ₗ Nat ×ₗ Nat := toLex (parent, toLex (ordinal, id))

theorem siblings_sorted {rows : List β} (parent ordinal id : β → Nat) {k s : Nat}
    (hp : ∀ c ∈ rows, parent c = k) (ho : rows.map ordinal = List.range' s rows.length) :
    rows.Pairwise fun a b =>
      siblingKey (parent a) (ordinal a) (id a) ≤ siblingKey (parent b) (ordinal b) (id b) := by
  have hlt : (rows.map ordinal).Pairwise (· < ·) := by
    rw [ho]
    exact List.pairwise_lt_range'
  refine (List.pairwise_map.mp hlt).imp_of_mem fun {a b} ha hb hab => ?_
  unfold siblingKey
  rw [hp a ha, hp b hb]
  exact Prod.Lex.le_iff.mpr (Or.inr ⟨rfl, Prod.Lex.le_iff.mpr (Or.inl hab)⟩)

theorem siblingKey_nodup {rows : List β} (parent ordinal id : β → Nat)
    (h : (rows.map id).Nodup) :
    (rows.map fun c => siblingKey (parent c) (ordinal c) (id c)).Nodup := by
  have hmap : (rows.map fun c => siblingKey (parent c) (ordinal c) (id c)).map
      (fun k => (ofLex (ofLex k).2).2) = rows.map id := by
    rw [List.map_map]
    rfl
  rw [← hmap] at h
  exact h.of_map

/-- The rows of `old` belong to other parents. -/
theorem select_children (parent ordinal id : β → Nat) {old : List β} {ids : List Nat} {s : Nat}
    {a : α} (hid : ((old ++ parents.flatMap children).map id).Nodup)
    (hold : ∀ c ∈ old, parent c ≠ key a) (hd : (parents.map key).Nodup)
    (hc : ∀ p ∈ parents, ∀ c ∈ children p, parent c = key p) (ha : a ∈ parents)
    (hin : key a ∈ ids) (ho : (children a).map ordinal = List.range' s (children a).length) :
    (orderBy (fun c => siblingKey (parent c) (ordinal c) (id c))
      ((old ++ parents.flatMap children).filter fun c => ids.contains (parent c))).filter
        (parent · = key a) = children a := by
  have hown : (old ++ parents.flatMap children).filter (parent · = key a) = children a := by
    have hnone : old.filter (parent · = key a) = [] := by
      rw [List.filter_eq_nil_iff]
      intro c hmem
      rw [decide_eq_true_eq]
      exact hold c hmem
    rw [List.filter_append, hnone, List.nil_append, filter_children hd hc ha]
  have hboth : ((old ++ parents.flatMap children).filter fun c => ids.contains (parent c)).filter
      (parent · = key a) = children a := by
    rw [List.filter_filter, ← hown]
    refine List.filter_congr fun c _ => ?_
    by_cases hk : parent c = key a
    · simp [hk, hin]
    · simp [hk]
  have hsub : (children a).Sublist (old ++ parents.flatMap children) := by
    rw [← hown]
    exact List.filter_sublist
  rw [filter_orderBy _ (siblingKey_nodup parent ordinal id
    (hid.sublist (List.filter_sublist.map id))), hboth]
  exact orderBy_sorted_eq (siblingKey_nodup parent ordinal id (hid.sublist (hsub.map id)))
    (siblings_sorted parent ordinal id (hc a ha) ho)

end Siblings

section Appended

variable {α β κ : Type*} {key : α → κ} {old new : List α}

/-- Keys of new rows, drawn out of distinct ones that no old row has. -/
theorem append_nodup {ids : List κ} (hold : (old.map key).Nodup) (hids : ids.Nodup)
    (hsub : (new.map key).Sublist ids) (hnew : ∀ id ∈ ids, id ∉ old.map key) :
    ((old ++ new).map key).Nodup := by
  rw [List.map_append, List.nodup_append]
  refine ⟨hold, hids.sublist hsub, fun a ha b hb hab => ?_⟩
  exact hnew b (hsub.subset hb) (hab ▸ ha)

/-- Old rows refer to old parents, new ones to new parents. -/
theorem append_refs {ref : β → κ} {children more : List β}
    (hold : ∀ b ∈ children, ref b ∈ old.map key) (hnew : ∀ b ∈ more, ref b ∈ new.map key) :
    ∀ b ∈ children ++ more, ref b ∈ (old ++ new).map key := by
  intro b hb
  rw [List.map_append]
  rcases List.mem_append.mp hb with hb | hb
  · exact List.mem_append_left _ (hold b hb)
  · exact List.mem_append_right _ (hnew b hb)

theorem flatMap_sublist {f g : α → List β} : ∀ {l : List α},
    (∀ a ∈ l, (f a).Sublist (g a)) → (l.flatMap f).Sublist (l.flatMap g)
  | [], _ => List.Sublist.refl _
  | a :: l, h => by
    rw [List.flatMap_cons, List.flatMap_cons]
    exact (h a (by simp)).append (flatMap_sublist fun b hb => h b (by simp [hb]))

end Appended

section Elementwise

variable {α β γ : Type*} {R S : α → β → Prop} {xs : List α} {ys : List β}

theorem forall₂_left (h : List.Forall₂ R xs ys) {x : α} (hx : x ∈ xs) : ∃ y ∈ ys, R x y := by
  induction h with
  | nil => cases hx
  | cons hab _ ih =>
    rcases List.mem_cons.mp hx with rfl | hx
    · exact ⟨_, List.mem_cons_self .., hab⟩
    · obtain ⟨y, hy, hr⟩ := ih hx
      exact ⟨y, List.mem_cons_of_mem _ hy, hr⟩

theorem forall₂_of_mem (h : List.Forall₂ R xs ys) (himp : ∀ x ∈ xs, ∀ y, R x y → S x y) :
    List.Forall₂ S xs ys := by
  induction h with
  | nil => exact .nil
  | cons hab _ ih =>
    exact .cons (himp _ (List.mem_cons_self ..) _ hab)
      (ih fun x hx => himp x (List.mem_cons_of_mem _ hx))

/-- Rows say what they were written for. -/
theorem forall₂_map {f : α → γ} {g : β → γ} (h : List.Forall₂ R xs ys)
    (hfg : ∀ x ∈ xs, ∀ y, R x y → f x = g y) : xs.map f = ys.map g := by
  have hsame : List.Forall₂ (· = ·) (xs.map f) (ys.map g) :=
    List.forall₂_map_left_iff.mpr (List.forall₂_map_right_iff.mpr (forall₂_of_mem h hfg))
  rwa [List.forall₂_eq_eq_eq] at hsame

theorem forall₂_flatMap {f : α → List γ} {g : β → List γ} (h : List.Forall₂ R xs ys)
    (hfg : ∀ x ∈ xs, ∀ y, R x y → f x = g y) : xs.flatMap f = ys.flatMap g := by
  rw [List.flatMap_def, List.flatMap_def, forall₂_map h hfg]

theorem forall₂_zipIdx {k : Nat}
    (h : List.Forall₂ (fun x (y : β × Nat) => R x y.1) xs (ys.zipIdx k)) : List.Forall₂ R xs ys := by
  have hmap : List.Forall₂ R xs ((ys.zipIdx k).map Prod.fst) := List.forall₂_map_right_iff.mpr h
  rwa [List.zipIdx_map_fst] at hmap

/-- Rows written in order are numbered in order. -/
theorem forall₂_numbered {T : α → β × Nat → Prop} {k : Nat} {number : α → Nat}
    (h : List.Forall₂ T xs (ys.zipIdx k)) (hn : ∀ x y, T x y → number x = y.2) :
    xs.map number = List.range' k xs.length := by
  have hlen : xs.length = ys.length := by rw [h.length_eq, List.length_zipIdx]
  rw [forall₂_map h fun x _ y hr => hn x y hr, List.zipIdx_map_snd, hlen]

end Elementwise

end Joins
