import Mathlib.Data.List.Nodup

/-!
# Append-only ledgers

A list of entries that only grows at its end, read by a key: `first` is the
entry that brought a key in, `last` the one that wrote it last.

* `first_snoc`, `last_snoc`: what one more entry changes.
* `first_isSome`, `last_isSome`: a key is found exactly when an entry has it.
* `nodup_snoc`: an entry with a new key keeps the keys distinct.
* `last_filterMap_iff`: of sources that file at most one entry each under their
  key, every one reads its own entry back exactly when sources with one key
  file the same.
-/

universe u v

namespace Ledger

variable {α : Type u} {κ : Type v} [DecidableEq κ] {key : α → κ} {log : List α} {a : α} {k : κ}

def first (key : α → κ) (log : List α) (k : κ) : Option α := log.find? (key · = k)

def last (key : α → κ) (log : List α) (k : κ) : Option α := (log.filter (key · = k)).getLast?

theorem first_mem (h : first key log k = some a) : a ∈ log ∧ key a = k := by
  refine ⟨List.mem_of_find?_eq_some h, ?_⟩
  simpa using List.find?_some h

theorem last_mem (h : last key log k = some a) : a ∈ log ∧ key a = k := by
  simpa using List.mem_filter.mp (List.mem_of_getLast? h)

theorem first_snoc : first key (log ++ [a]) k =
    (first key log k).or (if key a = k then some a else none) := by
  unfold first
  rw [List.find?_append]
  by_cases h : key a = k <;> simp [h]

theorem first_snoc_of_some {b : α} (h : first key log k = some b) :
    first key (log ++ [a]) k = some b := by
  rw [first_snoc, h]
  rfl

theorem first_snoc_new (h : ∀ b ∈ log, key b ≠ k) (ha : key a = k) :
    first key (log ++ [a]) k = some a := by
  have hnone : first key log k = none := by simpa [first] using h
  rw [first_snoc, hnone, if_pos ha]
  rfl

theorem last_snoc_self (ha : key a = k) : last key (log ++ [a]) k = some a := by
  unfold last
  rw [List.filter_append]
  simp [ha]

theorem last_snoc_ne (ha : key a ≠ k) : last key (log ++ [a]) k = last key log k := by
  unfold last
  rw [List.filter_append]
  simp [ha]

theorem first_isSome (h : a ∈ log) : ∃ b, first key log (key a) = some b := by
  refine Option.isSome_iff_exists.mp (List.find?_isSome.mpr ⟨a, h, ?_⟩)
  simp

theorem last_isSome (h : a ∈ log) : ∃ b, last key log (key a) = some b := by
  have hne : log.filter (key · = key a) ≠ [] :=
    List.ne_nil_of_mem (List.mem_filter.mpr ⟨h, by simp⟩)
  exact ⟨_, List.getLast?_eq_some_getLast hne⟩

theorem last_none (h : ∀ b ∈ log, key b ≠ k) : last key log k = none := by
  have hnil : log.filter (key · = k) = [] := List.filter_eq_nil_iff.mpr (by simpa using h)
  unfold last
  rw [hnil]
  rfl

theorem last_eq_none_iff : last key log k = none ↔ ∀ b ∈ log, key b ≠ k := by
  refine ⟨fun h b hb hk => ?_, last_none⟩
  obtain ⟨c, hc⟩ : ∃ c, last key log (key b) = some c := last_isSome hb
  rw [hk, h] at hc
  cases hc

omit [DecidableEq κ] in
/-- An entry with a new key keeps the keys distinct. -/
theorem nodup_snoc (hd : (log.map key).Nodup) (hnew : ∀ b ∈ log, key b ≠ key a) :
    ((log ++ [a]).map key).Nodup := by
  rw [List.map_append, List.map_singleton, List.nodup_append]
  refine ⟨hd, List.nodup_singleton _, fun k hk k' hk' hsame => ?_⟩
  obtain ⟨b, hb, rfl⟩ := List.mem_map.mp hk
  exact hnew b hb (hsame.trans (List.mem_singleton.mp hk'))

theorem last_filterMap_iff {σ : Type*} (sources : List σ) {entry : σ → Option α} {source : σ → κ}
    (hkey : ∀ x a, entry x = some a → key a = source x) :
    (∀ x ∈ sources, last key (sources.filterMap entry) (source x) = entry x) ↔
      ∀ x ∈ sources, ∀ y ∈ sources, source x = source y → entry x = entry y := by
  constructor
  · intro h x hx y hy hxy
    rw [← h x hx, ← h y hy, hxy]
  · intro h x hx
    cases hentry : entry x with
    | none =>
      refine last_none fun a ha hk => ?_
      obtain ⟨y, hy, hya⟩ := List.mem_filterMap.mp ha
      have hsame := h x hx y hy (by rw [← hk, hkey y a hya])
      rw [hentry, hya] at hsame
      cases hsame
    | some a =>
      have ha : a ∈ sources.filterMap entry := List.mem_filterMap.mpr ⟨x, hx, hentry⟩
      obtain ⟨b, hb⟩ : ∃ b, last key (sources.filterMap entry) (key a) = some b := last_isSome ha
      rw [hkey x a hentry] at hb
      obtain ⟨hmem, hk⟩ := last_mem hb
      obtain ⟨y, hy, hyb⟩ := List.mem_filterMap.mp hmem
      have hsame := h x hx y hy (by rw [← hk, hkey y b hyb])
      rw [hb, ← hyb, ← hsame, hentry]

end Ledger
