import BidScope.L3Runs.Executor

/-!
# The event cursor on a contiguous log

A log is `Contiguous` when its sequences are exactly `0 .. n-1`. On such a log
the reconcile procedure has a short meaning, which is all the later modules
use of it:
* `nextEventSeq_eq`: a new attempt's base is the length of the log.
* `reconcile_ok`: accepted with base `o` and count `n`, the log has `o + n`
  rows and those from `o` on are the first `n` events.
* `reconcile_accepts`, `reconcile_trailing`: a log whose slice is a prefix of
  the events is accepted, and one ahead of them is rejected.
* `appendEvents_contiguous`: appending at the end keeps a log contiguous and
  adds exactly the new events.
-/
namespace BidScope.L3

open BidScope.L1 BidScope.L2

def Contiguous (log : Log) : Prop := log.map (·.seq) = List.range log.length

section
variable {V : Type} [PyDetail V]

abbrev fps (events : List (NodeEventOf V)) : List Fingerprint := events.map fingerprint

abbrev rowFps (log : List (EventRow V)) : List Fingerprint := log.map (·.fingerprint)

end

variable {log : Log}

theorem contiguous_nil : Contiguous [] := rfl

theorem Contiguous.seq (hc : Contiguous log) {i : Nat} {r : RunEvent} (h : log[i]? = some r) :
    r.seq = i := by
  have hm : (log.map (·.seq))[i]? = some r.seq := by simp [h]
  rw [hc, List.getElem?_range] at hm
  · exact (Option.some.inj hm).symm
  · exact (List.getElem?_eq_some_iff.mp h).1

theorem Contiguous.mem_seq (hc : Contiguous log) {q : Nat} :
    (∃ r ∈ log, r.seq = q) ↔ q < log.length := by
  have h : q ∈ log.map (·.seq) ↔ q ∈ List.range log.length := by rw [hc]
  simpa using h

theorem Contiguous.bySeq (hc : Contiguous log) {o q : Nat} (h : o ≤ q) :
    bySeq (eventRows log o none) q = log[q]? := by
  rw [L3.bySeq, eventRows, List.find?_filter]
  cases hq : log[q]? with
  | none =>
    rw [List.find?_eq_none]
    intro r hr
    have hlt : r.seq < log.length := hc.mem_seq.mp ⟨r, hr, rfl⟩
    have hge := List.getElem?_eq_none_iff.mp hq
    simp only [Option.all_none, Bool.and_true, decide_eq_true_eq, beq_iff_eq, not_and]
    omega
  | some r =>
    obtain ⟨hlt, hget⟩ := List.getElem?_eq_some_iff.mp hq
    rw [List.find?_eq_some_iff_getElem]
    refine ⟨by simp [hc.seq hq, h], q, hlt, hget, ?_⟩
    intro j hj
    have hseq := hc.seq (List.getElem?_eq_getElem (Nat.lt_trans hj hlt))
    have hne : (log[j].seq == q) = false := by
      rw [hseq, beq_eq_false_iff_ne]
      omega
    simp [hne]

theorem Contiguous.maxEventSeq (hc : Contiguous log) (o : Nat) :
    maxEventSeq (eventRows log o none) = if o < log.length then some (log.length - 1) else none := by
  have hmem : ∀ q, q ∈ (eventRows log o none).map (·.seq) ↔ o ≤ q ∧ q < log.length := by
    intro q
    rw [← hc.mem_seq]
    simp only [eventRows, List.mem_map, List.mem_filter, Option.all_none, Bool.and_true,
      decide_eq_true_eq]
    constructor
    · intro hrow
      obtain ⟨r, ⟨hr, ho⟩, rfl⟩ := hrow
      exact ⟨ho, r, hr, rfl⟩
    · intro hrow
      obtain ⟨ho, r, hr, rfl⟩ := hrow
      exact ⟨r, ⟨hr, ho⟩, rfl⟩
  unfold L3.maxEventSeq
  split
  · rw [List.max?_eq_some_iff]
    refine ⟨(hmem _).mpr (by omega), fun q hq => ?_⟩
    have := (hmem q).mp hq
    omega
  · rw [List.max?_eq_none_iff, List.eq_nil_iff_forall_not_mem]
    intro q hq
    have := (hmem q).mp hq
    omega

theorem eventRows_zero {V : Type} (log : List (EventRow V)) : eventRows log 0 none = log := by simp [eventRows]

/-- A fresh attempt starts where the log ends. -/
theorem nextEventSeq_eq (hc : Contiguous log) : nextEventSeq log = log.length := by
  have hm := hc.maxEventSeq 0
  rw [eventRows_zero] at hm
  unfold nextEventSeq
  rw [hm]
  split
  · rename_i m h
    split at h
    · cases h
      omega
    · cases h
  · rename_i h
    split at h
    · cases h
    · omega

/-- The slice of the log from `o` on. -/
theorem eventRows_eq_drop (hc : Contiguous log) (o : Nat) : eventRows log o none = log.drop o := by
  have hsplit : log = log.take o ++ log.drop o := (List.take_append_drop o log).symm
  have hlow : ∀ r ∈ log.take o, ¬ o ≤ r.seq := by
    intro r hr
    obtain ⟨i, hi, hget⟩ := List.mem_take_iff_getElem.mp hr
    have := hc.seq (List.getElem?_eq_some_iff.mpr ⟨by omega, hget⟩)
    omega
  have hhigh : ∀ r ∈ log.drop o, o ≤ r.seq := by
    intro r hr
    obtain ⟨i, hi, hget⟩ := List.mem_drop_iff_getElem.mp hr
    have := hc.seq (List.getElem?_eq_some_iff.mpr ⟨_, hget⟩)
    omega
  rw [eventRows]
  conv_lhs => rw [hsplit]
  rw [List.filter_append, List.filter_eq_nil_iff.mpr, List.filter_eq_self.mpr, List.nil_append]
  · intro r hr
    simpa using hhigh r hr
  · intro r hr
    simpa using hlow r hr

/-! ## Reconciling -/

/-- What a successful scan from `q` on has matched. -/
theorem scan_ok (hc : Contiguous log) {o : Nat} {complete : Bool} :
    ∀ (events : List NodeEvent) (q n : Nat), o ≤ q →
      scan (eventRows log o none) complete q events = .ok n →
        n ≤ events.length ∧ (n < events.length → log.length ≤ q + n ∧ complete = false) ∧
          rowFps ((log.drop q).take n) = fps (events.take n) ∧ (0 < n → q + n ≤ log.length)
  | [], q, n, _, h => by
    cases h
    simp
  | e :: es, q, n, hq, h => by
    unfold scan at h
    rw [hc.bySeq hq] at h
    cases hrow : log[q]? with
    | none =>
      rw [hrow] at h
      have hlen := List.getElem?_eq_none_iff.mp hrow
      cases complete with
      | true => cases h
      | false =>
        cases h
        simp [hlen]
    | some row =>
      rw [hrow] at h
      obtain ⟨hlt, hget⟩ := List.getElem?_eq_some_iff.mp hrow
      simp only at h
      split at h
      · cases h
      · rename_i hfp
        split at h
        · cases h
        · rename_i m hm
          cases h
          obtain ⟨h1, h2, h3, h4⟩ := scan_ok hc es (q + 1) m (by omega) hm
          refine ⟨by simpa using h1, ?_, ?_, fun _ => ?_⟩
          · intro hlt'
            have := h2 (by simpa using hlt')
            exact ⟨by omega, this.2⟩
          · rw [List.drop_eq_getElem_cons hlt, hget]
            simp only [not_not] at hfp
            simp only [rowFps, fps] at h3 ⊢
            rw [List.take_succ_cons, List.take_succ_cons, List.map_cons, List.map_cons, h3, hfp]
          · rcases Nat.eq_zero_or_pos m with rfl | hpos
            · omega
            · have := h4 hpos
              omega

/-- No sequence of a contiguous log is missing. -/
theorem no_missing (hc : Contiguous log) (o : Nat) :
    (maxEventSeq (eventRows log o none)).bind (fun m =>
      (List.range' o (m + 1 - o)).find? fun seq => (bySeq (eventRows log o none) seq).isNone) =
        none := by
  rw [hc.maxEventSeq]
  split
  · simp only [Option.bind_some, List.find?_eq_none]
    intro q hq
    obtain ⟨h1, h2⟩ := List.mem_range'_1.mp hq
    rw [hc.bySeq h1]
    have : q < log.length := by omega
    simp [this]
  · rfl

/-- The rejection of a log ahead of the events. -/
theorem trailing_iff (hc : Contiguous log) (o k : Nat) :
    (maxEventSeq (eventRows log o none)).any (o + k ≤ ·) = true ↔ o + k < log.length := by
  rw [hc.maxEventSeq]
  split
  · simp only [Option.any_some, decide_eq_true_eq]
    omega
  · simp only [Option.any_none, Bool.false_eq_true, false_iff]
    omega

/-- **What reconciliation accepts.** The log has exactly the matched rows of
the attempt, and they are its first events. -/
theorem reconcile_ok (hc : Contiguous log) {events : List NodeEvent} {o n o' : Nat}
    {complete : Bool} (ho : o ≤ log.length)
    (h : reconcileEventCursor events log (some o) complete = .ok (n, o')) :
    o' = o ∧ n ≤ events.length ∧ log.length = o + n ∧
      rowFps (log.drop o) = fps (events.take n) ∧ (complete = true → n = events.length) := by
  simp only [reconcileEventCursor, no_missing hc] at h
  split at h
  · cases h
  · rename_i m hm
    split at h
    · cases h
    · rename_i htrail
      cases h
      rw [trailing_iff hc] at htrail
      obtain ⟨h1, h2, h3, h4⟩ := scan_ok hc events o n (Nat.le_refl _) hm
      have hlen : log.length = o + n := by
        rcases Nat.lt_or_ge n events.length with hlt | hge
        · have := (h2 hlt).1
          rcases Nat.eq_zero_or_pos n with rfl | hpos
          · omega
          · have := h4 hpos
            omega
        · rcases Nat.eq_zero_or_pos n with rfl | hpos
          · omega
          · have := h4 hpos
            omega
      refine ⟨rfl, h1, hlen, ?_, ?_⟩
      · rw [← h3, List.take_of_length_le (by rw [List.length_drop]; omega)]
      · intro hcomp
        by_contra hne
        have := (h2 (by omega)).2
        rw [this] at hcomp
        cases hcomp

theorem scan_accepts (hc : Contiguous log) {o : Nat} :
    ∀ (events : List NodeEvent) (q : Nat), o ≤ q →
      rowFps ((log.drop q).take events.length) = fps (events.take (log.drop q).length) →
        scan (eventRows log o none) false q events = .ok (min events.length (log.drop q).length)
  | [], q, _, _ => by simp [scan]
  | e :: es, q, hq, h => by
    unfold scan
    rw [hc.bySeq hq]
    rcases Nat.lt_or_ge q log.length with hlt | hge
    · have hd := List.drop_eq_getElem_cons hlt
      rw [List.getElem?_eq_getElem hlt]
      simp only [hd, List.length_cons, List.take_succ_cons, rowFps, fps, List.map_cons,
        List.cons.injEq] at h
      have ih := scan_accepts (o := o) hc es (q + 1) (by omega) h.2
      simp only [h.1, ne_eq, not_true_eq_false, if_false, ih, hd, List.length_cons]
      congr 1
      omega
    · rw [List.getElem?_eq_none_iff.mpr hge]
      simp [List.drop_eq_nil_of_le hge]

/-- A log whose slice is a prefix of the events is accepted. -/
theorem reconcile_accepts (hc : Contiguous log) {events : List NodeEvent} {o n : Nat}
    (hn : n ≤ events.length) (hlen : log.length = o + n)
    (hfp : rowFps (log.drop o) = fps (events.take n)) :
    reconcileEventCursor events log (some o) false = .ok (n, o) := by
  have hd : (log.drop o).length = n := by rw [List.length_drop]; omega
  have hs := scan_accepts hc events o (Nat.le_refl _)
    (by rw [List.take_of_length_le (by omega), hd]; exact hfp)
  rw [hd, Nat.min_eq_right hn] at hs
  have ht : ¬ (maxEventSeq (eventRows log o none)).any (o + events.length ≤ ·) = true := by
    rw [trailing_iff hc]
    omega
  simp only [reconcileEventCursor, no_missing hc, hs, if_neg ht]

/-- A log ahead of the events is rejected. -/
theorem reconcile_trailing (hc : Contiguous log) {events : List NodeEvent} {o : Nat}
    {complete : Bool} (h : o + events.length < log.length) (r : Nat × Nat) :
    reconcileEventCursor events log (some o) complete ≠ .ok r := by
  intro hr
  obtain ⟨n, o'⟩ := r
  obtain ⟨-, hle, hlen, -⟩ := reconcile_ok hc (by omega) hr
  omega

theorem reconcileLegacy_nil (log : Log) :
    reconcileEventCursor [] log none false = .ok (0, 0) ↔ log = [] := by
  simp only [reconcileEventCursor, reconcileLegacy, maxEventSeq]
  cases log with
  | nil => simp
  | cons r rest => simp

/-! ## Appending -/

theorem eventRowsOf_spec {V : Type} [PyDetail V] (o : Nat) : ∀ (events : List (NodeEventOf V)) (i : Nat),
    (eventRowsOf o i events).length = events.length ∧
      rowFps (eventRowsOf o i events) = fps events ∧
        (eventRowsOf o i events).map (·.seq) = List.range' (o + i) events.length
  | [], _ => ⟨rfl, rfl, rfl⟩
  | e :: es, i => by
    obtain ⟨h1, h2, h3⟩ := eventRowsOf_spec o es (i + 1)
    refine ⟨by simp [eventRowsOf, h1], ?_, ?_⟩
    · simp only [rowFps, fps] at h2 ⊢
      rw [eventRowsOf, List.map_cons, List.map_cons, h2]
      rfl
    · rw [eventRowsOf, List.map_cons, h3, List.length_cons, List.range'_succ]
      rfl

/-- Appending the events from `start` on, where the log ends: it succeeds, the
log stays contiguous and gains exactly those events. -/
theorem appendEvents_contiguous (hc : Contiguous log) (events : List NodeEvent) {start o : Nat}
    (hlen : log.length = o + start) :
    ∃ rows, appendEvents log events start o = some (log ++ rows) ∧ Contiguous (log ++ rows) ∧
      rows.length = events.length - start ∧ rowFps rows = fps (events.drop start) := by
  obtain ⟨h1, h2, h3⟩ := eventRowsOf_spec o (events.drop start) start
  refine ⟨eventRowsOf o start (events.drop start), ?_, ?_, by rw [h1, List.length_drop], h2⟩
  · have hfresh : ¬ (eventRowsOf o start (events.drop start)).any
        (fun r => log.any (·.seq == r.seq)) = true := by
      simp only [List.any_eq_true, beq_iff_eq, not_exists, not_and]
      intro r hr r' hr' heq
      have hm : r.seq ∈ (eventRowsOf o start (events.drop start)).map (·.seq) :=
        List.mem_map_of_mem hr
      rw [h3] at hm
      have hlow := (List.mem_range'_1.mp hm).1
      have hlt := hc.mem_seq.mp ⟨r', hr', heq⟩
      omega
    simp only [appendEvents, if_neg hfresh]
  · unfold Contiguous at hc ⊢
    rw [List.map_append, hc, h3, List.length_append, h1, List.range_eq_range', List.range_eq_range',
      ← hlen, ← List.range'_append_1, Nat.zero_add]

end BidScope.L3
