import Mathlib.Data.List.Sort
import BidScope.L3Runs.Cursor

/-!
# What the reconciliation accepts

`_reconcile_event_cursor` of `graph/executor.py` on any log with distinct
sequences, contiguous or not, and any events a checkpoint can hold: their details
are dicts of any values, compared as `==` compares them.

**Acceptance (`reconcile_accepts_iff`).** It returns `(matched, base)` exactly
when log and checkpoint are `Consistent`: the rows from `base` on have no gap
and are, in their order, the first `matched` events; they are all of them when
the history has to be complete or the checkpoint has no base, which is then 0.
Otherwise it raises. The log is only read, and appending the other events makes
the slice from `base` on equal to the events.

* `GapFree`, `slice`: the rows from a base on, and that they leave no gap.
* `missing_iff`, `scan_iff`, `trailing_iff_slice`: the three checks, each in
  terms of the slice.
* `reconcileIn_run`: the code's sessions, one by one, compute
  `reconcileEventCursor` and leave the log as it is.
-/
namespace BidScope.L3

open BidScope.L1

/-- The log with details of any values. -/
abbrev EventLog := List (EventRow PyValue)

/-- An event as the dict a checkpoint holds it as; a key may be absent. -/
structure EventDict where
  node : Option String := none
  event : Option String := none
  status : Option String := none
  timestamp : Option String := none
  message : Option String := none
  details : Option (List (String × PyValue)) := none

/-- The values that `event.get` reads.
mirrors graph/executor.py:310-326 -/
def EventDict.read (d : EventDict) : NodeEventOf PyValue where
  node := d.node.getD ""
  event := d.event.getD ""
  status := d.status.getD ""
  timestamp := d.timestamp.getD ""
  message := d.message
  details := d.details.getD []

/-! ## The sessions of the code -/

/-- What a call does to the log, step by step. -/
abbrev Sessions := ExceptT String (StateM EventLog)

def eventRowsIn (seqStart : Nat) (seqEnd : Option Nat) : Sessions EventLog := do
  return eventRows (← get) seqStart seqEnd

def maxEventSeqIn : Sessions (Option Nat) := do
  return maxEventSeq (← get)

/-- The first of the expected sequences that no row has. -/
def missingSeq (rows : EventLog) (offset : Nat) : Option Nat :=
  (maxEventSeq rows).bind fun m =>
    (List.range' offset (m + 1 - offset)).find? fun seq => (bySeq rows seq).isNone

/-- The branch of a checkpoint without an attempt base, session by session.
mirrors graph/executor.py:344-373 -/
def reconcileLegacyIn (checkpointEvents : List EventDict) : Sessions (Nat × Nat) := do
  if checkpointEvents.isEmpty then
    if (← maxEventSeqIn).isSome then
      throw "legacy checkpoint has no events but relational history is non-empty"
    return (0, 0)
  let rows ← eventRowsIn 0 (some (checkpointEvents.length - 1))
  legacyScan rows 0 (checkpointEvents.map EventDict.read)
  let maximum ← maxEventSeqIn
  if maximum.any (checkpointEvents.length ≤ ·) then
    throw ("legacy relational event history has trailing sequence " ++
      toString checkpointEvents.length)
  return (checkpointEvents.length, 0)

/-- mirrors graph/executor.py:329-414 -/
def reconcileIn (checkpointEvents : List EventDict) (eventSeqOffset : Option Nat)
    (requireComplete : Bool) : Sessions (Nat × Nat) := do
  match eventSeqOffset with
  | none => reconcileLegacyIn checkpointEvents
  | some offset =>
    let rows ← eventRowsIn offset none
    match missingSeq rows offset with
    | some missing =>
      throw ("relational event history skips expected sequence " ++ toString missing)
    | none =>
      let matched ← scan rows requireComplete offset (checkpointEvents.map EventDict.read)
      if (maxEventSeq rows).any (offset + checkpointEvents.length ≤ ·) then
        throw ("relational event history has trailing sequence " ++
          toString (offset + checkpointEvents.length))
      return (matched, offset)

theorem eventRowsIn_run (seqStart : Nat) (seqEnd : Option Nat) (log : EventLog) :
    (eventRowsIn seqStart seqEnd).run.run log = (.ok (eventRows log seqStart seqEnd), log) := rfl

theorem maxEventSeqIn_run (log : EventLog) :
    maxEventSeqIn.run.run log = (.ok (maxEventSeq log), log) := rfl

variable {α β : Type}

theorem run_ok {x : Sessions α} {f : α → Sessions β} {a : α} {log log' : EventLog}
    (h : x.run.run log = (.ok a, log')) : (x >>= f).run.run log = (f a).run.run log' := by
  rw [ExceptT.run_bind, StateT.run_bind, h]
  rfl

theorem run_error {x : Sessions α} {f : α → Sessions β} {e : String} {log log' : EventLog}
    (h : x.run.run log = (.error e, log')) : (x >>= f).run.run log = (.error e, log') := by
  rw [ExceptT.run_bind, StateT.run_bind, h]
  rfl

theorem lift_run (x : Except String α) (log : EventLog) :
    (liftM x : Sessions α).run.run log = (x, log) := rfl

theorem reconcileLegacyIn_run (events : List EventDict) (log : EventLog) :
    (reconcileLegacyIn events).run.run log =
      (reconcileLegacy (events.map EventDict.read) log, log) := by
  unfold reconcileLegacyIn reconcileLegacy
  rw [List.length_map, List.isEmpty_map]
  cases events with
  | nil =>
    rw [List.isEmpty_nil, if_pos rfl, if_pos rfl, run_ok (maxEventSeqIn_run log)]
    split <;> rfl
  | cons e es =>
    rw [List.isEmpty_cons, if_neg Bool.false_ne_true, if_neg Bool.false_ne_true,
      run_ok (eventRowsIn_run _ _ log)]
    cases legacyScan (eventRows log 0 (some ((e :: es).length - 1))) 0
        ((e :: es).map EventDict.read) with
    | error e => exact run_error (lift_run _ log)
    | ok u =>
      rw [run_ok (lift_run _ log), run_ok (maxEventSeqIn_run log)]
      dsimp only
      split <;> rfl

/-- The branch of a checkpoint with a base. -/
theorem reconcileEventCursor_some (events : List (NodeEventOf PyValue)) (log : EventLog) (o : Nat)
    (complete : Bool) :
    reconcileEventCursor events log (some o) complete =
      match missingSeq (eventRows log o none) o with
      | some missing =>
        .error ("relational event history skips expected sequence " ++ toString missing)
      | none =>
        match scan (eventRows log o none) complete o events with
        | .error e => .error e
        | .ok matched =>
          if (maxEventSeq (eventRows log o none)).any (o + events.length ≤ ·) then
            .error ("relational event history has trailing sequence " ++
              toString (o + events.length))
          else .ok (matched, o) := rfl

/-- **Nothing is written**, and the sessions compute the cursor. -/
theorem reconcileIn_run (events : List EventDict) (offset : Option Nat) (complete : Bool)
    (log : EventLog) :
    (reconcileIn events offset complete).run.run log =
      (reconcileEventCursor (events.map EventDict.read) log offset complete, log) := by
  cases offset with
  | none => exact reconcileLegacyIn_run events log
  | some o =>
    rw [reconcileEventCursor_some, reconcileIn, run_ok (eventRowsIn_run _ _ log), List.length_map]
    cases missingSeq (eventRows log o none) o with
    | some missing => rfl
    | none =>
      dsimp only
      cases scan (eventRows log o none) complete o (events.map EventDict.read) with
      | error e => exact run_error (lift_run _ log)
      | ok n =>
        rw [run_ok (lift_run _ log)]
        dsimp only
        split <;> rfl

/-! ## The rows from a base on -/

/-- The rows from `base` on, by sequence. -/
def slice (log : EventLog) (base : Nat) : EventLog :=
  (eventRows log base none).mergeSort (·.seq ≤ ·.seq)

def GapFree (rows : EventLog) (base : Nat) : Prop :=
  rows.map (·.seq) = List.range' base rows.length

instance (rows : EventLog) (base : Nat) : Decidable (GapFree rows base) := by
  unfold GapFree
  infer_instance

variable {log rows S : EventLog} {o q n k : Nat} {r : EventRow PyValue} {complete : Bool}
  {events : List (NodeEventOf PyValue)}

theorem mem_slice : r ∈ slice log o ↔ r ∈ log ∧ o ≤ r.seq := by
  simp [slice, eventRows]

theorem slice_nil : slice [] o = [] := by simp [slice, eventRows]

/-- The sequences of a slice rise. -/
theorem slice_rises (hseq : (log.map (·.seq)).Nodup) :
    ((slice log o).map (·.seq)).Pairwise (· < ·) := by
  have hperm : (slice log o).Perm (eventRows log o none) := List.mergeSort_perm _ _
  have hsub : ((eventRows log o none).map (·.seq)).Sublist (log.map (·.seq)) :=
    List.filter_sublist.map _
  have hnodup : ((slice log o).map (·.seq)).Nodup :=
    (hperm.map _).nodup_iff.mpr (hseq.sublist hsub)
  have hsorted : (slice log o).Pairwise fun a b => a.seq ≤ b.seq := by
    have h : ((eventRows log o none).mergeSort fun a b => decide (a.seq ≤ b.seq)).Pairwise
        fun a b => decide (a.seq ≤ b.seq) = true :=
      List.pairwise_mergeSort (fun a b c => by simpa using Nat.le_trans)
        (fun a b => by simpa using Nat.le_total a.seq b.seq) _
    simpa [slice] using h
  rw [List.pairwise_map]
  rw [List.nodup_iff_pairwise_ne, List.pairwise_map] at hnodup
  exact hsorted.imp₂ (fun a b hle hne => by omega) hnodup

/-- A rising list without a hole from `o` on is the numbers from `o` on. -/
theorem eq_range' : ∀ {l : List Nat} {o : Nat}, l.Pairwise (· < ·) →
    (∀ x ∈ l, ∀ q, o ≤ q → q ≤ x → q ∈ l) → (∀ x ∈ l, o ≤ x) → l = List.range' o l.length
  | [], _, _, _, _ => rfl
  | a :: l, o, hl, hdown, hge => by
    rw [List.pairwise_cons] at hl
    have ha : o = a := by
      have hoa := hge a (List.mem_cons_self ..)
      rcases List.mem_cons.mp (hdown a (List.mem_cons_self ..) o (Nat.le_refl o) hoa) with h | h
      · exact h
      · have := hl.1 o h
        omega
    subst ha
    have hrest : l = List.range' (o + 1) l.length := by
      refine eq_range' hl.2 ?_ fun x hx => hl.1 x hx
      intro x hx q hq hqx
      rcases List.mem_cons.mp (hdown x (List.mem_cons_of_mem _ hx) q (by omega) hqx) with h | h
      · omega
      · exact h
    rw [List.length_cons, List.range'_succ, ← hrest]

/-- Being free of gaps, without the order. -/
theorem gapFree_iff (hseq : (log.map (·.seq)).Nodup) :
    GapFree (slice log o) o ↔
      ∀ r ∈ log, ∀ q, o ≤ q → q ≤ r.seq → ∃ r' ∈ log, r'.seq = q := by
  constructor
  · intro h r hr q hq hqr
    have hm : r.seq ∈ (slice log o).map (·.seq) :=
      List.mem_map_of_mem (mem_slice.mpr ⟨hr, by omega⟩)
    rw [h, List.mem_range'_1] at hm
    have hq' : q ∈ (slice log o).map (·.seq) := by
      rw [h, List.mem_range'_1]
      omega
    obtain ⟨r', hr', rfl⟩ := List.mem_map.mp hq'
    exact ⟨r', (mem_slice.mp hr').1, rfl⟩
  · intro h
    have hlen : (slice log o).length = ((slice log o).map (·.seq)).length := by simp
    rw [GapFree, hlen]
    refine eq_range' (slice_rises hseq) ?_ ?_
    · intro x hx q hq hqx
      obtain ⟨r, hr, rfl⟩ := List.mem_map.mp hx
      obtain ⟨r', hr', rfl⟩ := h r (mem_slice.mp hr).1 q hq hqx
      exact List.mem_map_of_mem (mem_slice.mpr ⟨hr', hq⟩)
    · intro x hx
      obtain ⟨r, hr, rfl⟩ := List.mem_map.mp hx
      exact (mem_slice.mp hr).2

theorem bySeq_eq_some (hseq : (rows.map (·.seq)).Nodup) :
    bySeq rows q = some r ↔ r ∈ rows ∧ r.seq = q := by
  constructor
  · intro h
    exact ⟨List.mem_of_find?_eq_some h, by simpa using List.find?_some h⟩
  · rintro ⟨hr, rfl⟩
    cases hf : bySeq rows r.seq with
    | none => exact absurd (List.find?_eq_none.mp hf r hr) (by simp)
    | some r' =>
      have hr' : r' ∈ rows := List.mem_of_find?_eq_some hf
      have hs : r'.seq = r.seq := by simpa using List.find?_some hf
      rw [List.inj_on_of_nodup_map hseq hr' hr hs]

theorem bySeq_isSome : (bySeq rows q).isSome ↔ ∃ r ∈ rows, r.seq = q := by
  simp [bySeq]

/-- Without gaps `by_seq` is a lookup by position. -/
theorem GapFree.bySeq (h : GapFree rows o) (i : Nat) : bySeq rows (o + i) = rows[i]? := by
  have hnodup : (rows.map (·.seq)).Nodup := h ▸ List.nodup_range' ..
  cases hi : rows[i]? with
  | some r =>
    have hlt := (List.getElem?_eq_some_iff.mp hi).1
    have hr : (List.range' o rows.length)[i]? = some r.seq := by
      rw [← h, List.getElem?_map, hi, Option.map_some]
    rw [List.getElem?_range' hlt, Nat.one_mul, Option.some.injEq] at hr
    exact (bySeq_eq_some hnodup).mpr ⟨List.mem_of_getElem? hi, hr.symm⟩
  | none =>
    have hlen := List.getElem?_eq_none_iff.mp hi
    rw [L3.bySeq, List.find?_eq_none]
    intro r hr hrq
    have hm : r.seq ∈ rows.map (·.seq) := List.mem_map_of_mem hr
    rw [h, List.mem_range'_1] at hm
    have : r.seq = o + i := by simpa using hrq
    omega

theorem bySeq_perm {rows' : EventLog} (hp : rows.Perm rows')
    (hseq : (rows.map (·.seq)).Nodup) : bySeq rows q = bySeq rows' q := by
  refine Option.ext fun r => ?_
  rw [bySeq_eq_some hseq, bySeq_eq_some ((hp.map _).nodup_iff.mp hseq), hp.mem_iff]

theorem bySeq_slice (hseq : (log.map (·.seq)).Nodup) (hgap : GapFree (slice log o) o) (i : Nat) :
    bySeq (eventRows log o none) (o + i) = (slice log o)[i]? := by
  rw [← hgap.bySeq]
  exact bySeq_perm (List.mergeSort_perm _ _).symm (hseq.sublist (List.filter_sublist.map _))

/-! ## The three checks -/

/-- The search for a gap. -/
theorem missing_iff (hseq : (log.map (·.seq)).Nodup) :
    missingSeq (eventRows log o none) o = none ↔ GapFree (slice log o) o := by
  have hmem : ∀ r, r ∈ eventRows log o none ↔ r ∈ log ∧ o ≤ r.seq := by simp [eventRows]
  rw [gapFree_iff hseq, missingSeq]
  cases hmax : maxEventSeq (eventRows log o none) with
  | none =>
    have hnil : eventRows log o none = [] := by
      simpa [maxEventSeq, List.max?_eq_none_iff] using hmax
    simp only [Option.bind_none, true_iff]
    intro r hr q hq hqr
    have : r ∈ eventRows log o none := (hmem r).mpr ⟨hr, by omega⟩
    rw [hnil] at this
    cases this
  | some m =>
    obtain ⟨hm, hle⟩ := List.max?_eq_some_iff.mp hmax
    obtain ⟨top, htop, rfl⟩ := List.mem_map.mp hm
    simp only [Option.bind_some, List.find?_eq_none, List.mem_range'_1, Bool.not_eq_true,
      Option.isNone_eq_false_iff, bySeq_isSome]
    constructor
    · intro h r hr q hq hqr
      have hrtop : r.seq ≤ top.seq :=
        hle _ (List.mem_map_of_mem ((hmem r).mpr ⟨hr, by omega⟩))
      obtain ⟨r', hr', rfl⟩ := h q ⟨hq, by omega⟩
      exact ⟨r', ((hmem r').mp hr').1, rfl⟩
    · intro h q hq
      obtain ⟨r', hr', rfl⟩ := h top ((hmem top).mp htop).1 q hq.1 (by omega)
      exact ⟨r', (hmem r').mpr ⟨hr', hq.1⟩, rfl⟩

/-- The comparison of the events with rows that are found by position. -/
theorem scan_iff : ∀ {events : List (NodeEventOf PyValue)} {S : EventLog} {seq k : Nat},
    (∀ i < events.length, bySeq rows (seq + i) = S[i]?) →
      (scan rows complete seq events = .ok k ↔
        k = min S.length events.length ∧ rowFps (S.take k) = fps (events.take k) ∧
          (complete = true → events.length ≤ S.length))
  | [], S, seq, k, _ => by
    simp only [scan, Except.ok.injEq, List.length_nil, Nat.min_zero, Nat.zero_le, implies_true,
      and_true]
    constructor
    · rintro rfl
      simp
    · rintro ⟨rfl, -⟩
      rfl
  | e :: es, [], seq, k, h => by
    have hrow : bySeq rows seq = none := h 0 (Nat.succ_pos _)
    rw [scan, hrow]
    cases complete with
    | true => simp
    | false =>
      simp only [Bool.false_eq_true, if_false, Except.ok.injEq, List.length_nil, Nat.zero_min,
        false_implies, and_true]
      constructor
      · rintro rfl
        simp
      · rintro ⟨rfl, -⟩
        rfl
  | e :: es, row :: S, seq, k, h => by
    have hrow : bySeq rows seq = some row := h 0 (Nat.succ_pos _)
    have hrest : ∀ i < es.length, bySeq rows (seq + 1 + i) = S[i]? := by
      intro i hi
      have := h (i + 1) (Nat.succ_lt_succ hi)
      rwa [List.getElem?_cons_succ, show seq + (i + 1) = seq + 1 + i by omega] at this
    rw [scan, hrow]
    simp only [List.length_cons, Nat.add_min_add_right, Nat.add_le_add_iff_right]
    by_cases hfp : row.fingerprint = fingerprint e
    · rw [if_neg (not_not_intro hfp)]
      have ih := fun m => scan_iff (k := m) hrest
      cases k with
      | zero =>
        constructor
        · intro hk
          split at hk <;> cases hk
        · rintro ⟨hk, -⟩
          omega
      | succ k =>
        simp only [List.take_succ_cons, rowFps, fps, List.map_cons, hfp, List.cons.injEq, true_and,
          Nat.add_right_cancel_iff]
        rw [← ih k]
        cases scan rows complete (seq + 1) es <;> simp
    · rw [if_pos hfp]
      constructor
      · intro hk
        cases hk
      · rintro ⟨rfl, hfps, -⟩
        simp only [List.take_succ_cons, rowFps, fps, List.map_cons, List.cons.injEq] at hfps
        exact absurd hfps.1 hfp

theorem max_any {l : List Nat} : l.max?.any (n ≤ ·) = true ↔ ∃ m ∈ l, n ≤ m := by
  cases hmax : l.max? with
  | none =>
    rw [List.max?_eq_none_iff.mp hmax]
    simp
  | some m =>
    obtain ⟨hm, hle⟩ := List.max?_eq_some_iff.mp hmax
    simp only [Option.any_some, decide_eq_true_eq]
    constructor
    · exact fun h => ⟨m, hm, h⟩
    · rintro ⟨x, hx, hnx⟩
      exact Nat.le_trans hnx (hle x hx)

/-- The search for rows behind the events. -/
theorem trailing_iff_slice (hgap : GapFree (slice log o) o) :
    (maxEventSeq (eventRows log o none)).any (o + n ≤ ·) = true ↔ n < (slice log o).length := by
  have hmem : ∀ q, q ∈ (eventRows log o none).map (·.seq) ↔ q ∈ (slice log o).map (·.seq) := by
    intro q
    simp [slice]
  rw [maxEventSeq, max_any]
  simp only [hmem]
  rw [hgap]
  simp only [List.mem_range'_1]
  constructor
  · rintro ⟨m, hm, hle⟩
    omega
  · intro h
    exact ⟨o + n, by omega, Nat.le_refl _⟩

/-! ## What is accepted -/

/-- Log and checkpoint fit together: the rows from `base` on are the first
`matched` events. -/
structure Consistent (log : EventLog) (events : List (NodeEventOf PyValue)) (offset : Option Nat)
    (requireComplete : Bool) (matched base : Nat) : Prop where
  base_eq : base = offset.getD 0
  gapFree : GapFree (slice log base) base
  agrees : rowFps (slice log base) <+: fps events
  matched_eq : matched = (slice log base).length
  complete : requireComplete = true ∨ offset = none → rowFps (slice log base) = fps events

variable {base : Nat}

/-- Rows found by position that the scan runs through to their end. -/
theorem scan_slice (hS : ∀ i < events.length, bySeq rows (o + i) = S[i]?)
    (hlen : S.length ≤ events.length) :
    scan rows complete o events = .ok k ↔
      k = S.length ∧ rowFps S <+: fps events ∧ (complete = true → rowFps S = fps events) := by
  have hfull : rowFps S <+: fps events → (events.length ≤ S.length ↔ rowFps S = fps events) := by
    intro hp
    constructor
    · intro hle
      exact hp.eq_of_length (by simp; omega)
    · intro he
      have := congrArg List.length he
      simp only [rowFps, fps, List.length_map] at this
      omega
  rw [scan_iff hS, Nat.min_eq_left hlen]
  refine and_congr_right ?_
  rintro rfl
  have hp : rowFps (S.take S.length) = fps (events.take S.length) ↔ rowFps S <+: fps events := by
    rw [List.take_length, List.prefix_iff_eq_take, rowFps, fps, List.length_map, List.map_take]
  rw [hp]
  exact and_congr_right fun h => imp_congr_right fun _ => hfull h

theorem reconcile_some_iff (hseq : (log.map (·.seq)).Nodup) :
    reconcileEventCursor events log (some o) complete = .ok (k, base) ↔
      Consistent log events (some o) complete k base := by
  rw [reconcileEventCursor_some]
  constructor
  · intro h
    split at h
    · cases h
    · rename_i hmiss
      have hgap := (missing_iff hseq).mp hmiss
      split at h
      · cases h
      · rename_i n hscan
        split at h
        · cases h
        · rename_i htrail
          rw [trailing_iff_slice hgap] at htrail
          cases h
          obtain ⟨hk, hp, hc⟩ :=
            (scan_slice (fun i _ => bySeq_slice hseq hgap i) (by omega)).mp hscan
          exact ⟨rfl, hgap, hp, hk, fun h => hc (h.resolve_right (Option.some_ne_none o))⟩
  · rintro ⟨hb, hgap, hp, hk, hc⟩
    rw [Option.getD_some] at hb
    subst hb
    have hle : (slice log base).length ≤ events.length := by simpa using hp.length_le
    have hscan : scan _ complete base events = .ok k :=
      (scan_slice (fun i _ => bySeq_slice hseq hgap i) hle).mpr ⟨hk, hp, fun h => hc (Or.inl h)⟩
    have htrail : ¬ (maxEventSeq (eventRows log base none)).any (base + events.length ≤ ·) = true := by
      rw [trailing_iff_slice hgap]
      omega
    rw [(missing_iff hseq).mpr hgap]
    simp only [hscan, if_neg htrail]

/-- A legacy checkpoint is scanned for all of its events. -/
theorem legacyScan_iff : ∀ {events : List (NodeEventOf PyValue)} {i : Nat},
    legacyScan rows i events = .ok () ↔ scan rows true i events = .ok events.length
  | [], _ => by simp [legacyScan, scan]
  | e :: es, i => by
    rw [legacyScan, scan]
    cases bySeq rows i with
    | none => simp
    | some row =>
      dsimp only
      by_cases hfp : row.fingerprint = fingerprint e
      · rw [if_neg (not_not_intro hfp), if_neg (not_not_intro hfp), legacyScan_iff, List.length_cons]
        cases scan rows true (i + 1) es <;> simp
      · rw [if_pos hfp, if_pos hfp]
        simp

theorem scan_found : ∀ {events : List (NodeEventOf PyValue)} {q k : Nat}, scan rows true q events = .ok k →
    ∀ i < events.length, ∃ r ∈ rows, r.seq = q + i
  | [], _, _, _, i, hi => absurd hi (Nat.not_lt_zero i)
  | e :: es, q, k, h, i, hi => by
    rw [scan] at h
    cases hrow : bySeq rows q with
    | none =>
      rw [hrow] at h
      cases h
    | some row =>
      rw [hrow] at h
      dsimp only at h
      split at h
      · cases h
      · cases i with
        | zero => exact bySeq_isSome.mp (by rw [Nat.add_zero, hrow]; rfl)
        | succ i =>
          split at h
          · cases h
          · rename_i n hn
            obtain ⟨r, hr, hs⟩ := scan_found hn i (Nat.lt_of_succ_lt_succ hi)
            exact ⟨r, hr, by omega⟩

/-- The rows that a legacy checkpoint is compared with. -/
theorem bySeq_cut (hi : q < n) : bySeq (eventRows log 0 (some (n - 1))) q =
    bySeq (eventRows log 0 none) q := by
  simp only [bySeq, eventRows, List.find?_filter]
  congr 1
  funext r
  by_cases hr : r.seq = q
  · have : q ≤ n - 1 := by omega
    simp [hr, this]
  · simp [hr]

theorem reconcileLegacy_iff (hne : events ≠ []) :
    reconcileLegacy events log = .ok (k, base) ↔
      (k = events.length ∧ base = 0) ∧
        scan (eventRows log 0 (some (events.length - 1))) true 0 events = .ok events.length ∧
          ¬ (maxEventSeq (eventRows log 0 none)).any (0 + events.length ≤ ·) = true := by
  rw [reconcileLegacy, if_neg (mt List.isEmpty_iff.mp hne), ← legacyScan_iff, eventRows_zero, Nat.zero_add]
  cases legacyScan (eventRows log 0 (some (events.length - 1))) 0 events with
  | error e => simp
  | ok u =>
    dsimp only
    by_cases htrail : (maxEventSeq log).any (events.length ≤ ·) = true
    · simp [htrail]
    · rw [if_neg htrail]
      simp only [Except.ok.injEq, Prod.mk.injEq, htrail, Bool.false_eq_true,
        not_false_eq_true, and_true]
      exact and_congr eq_comm eq_comm

/-- Every event of a legacy checkpoint has a row, and no row lies behind them. -/
theorem legacy_gapFree (hseq : (log.map (·.seq)).Nodup)
    (hscan : scan (eventRows log 0 (some (events.length - 1))) true 0 events = .ok k)
    (htrail : ¬ (maxEventSeq (eventRows log 0 none)).any (0 + events.length ≤ ·) = true) :
    GapFree (slice log 0) 0 := by
  rw [gapFree_iff hseq]
  intro r hr q _ hqr
  have hlt : r.seq < events.length := by
    by_contra hge
    rw [maxEventSeq, max_any, eventRows_zero] at htrail
    exact htrail ⟨r.seq, List.mem_map_of_mem hr, by omega⟩
  obtain ⟨r', hr', hs⟩ := scan_found hscan q (by omega)
  exact ⟨r', (List.mem_filter.mp hr').1, by omega⟩

theorem reconcile_none_iff (hseq : (log.map (·.seq)).Nodup) :
    reconcileEventCursor events log none complete = .ok (k, base) ↔
      Consistent log events none complete k base := by
  rw [reconcileEventCursor]
  rcases eq_or_ne events [] with rfl | hne
  · rw [reconcileLegacy, List.isEmpty_nil, if_pos rfl]
    constructor
    · intro h
      split at h
      · cases h
      · rename_i hmax
        have hlog : log = [] := by simpa [maxEventSeq] using hmax
        cases h
        subst hlog
        exact ⟨rfl, by rw [slice_nil]; rfl, by rw [slice_nil]; exact List.nil_prefix,
          by rw [slice_nil]; rfl, fun _ => by rw [slice_nil]; rfl⟩
    · rintro ⟨hb, -, hp, hk, -⟩
      have hnil : slice log 0 = [] := by
        rw [hb, Option.getD_none] at hp
        simpa using List.prefix_nil.mp hp
      have hlog : log = [] := by
        rw [List.eq_nil_iff_forall_not_mem]
        intro r hr
        have hm : r ∈ slice log 0 := mem_slice.mpr ⟨hr, Nat.zero_le _⟩
        rw [hnil] at hm
        cases hm
      subst hb hk hlog
      rw [Option.getD_none, slice_nil]
      rfl
  · rw [reconcileLegacy_iff hne]
    have hrows : GapFree (slice log 0) 0 → ∀ i < events.length,
        bySeq (eventRows log 0 (some (events.length - 1))) (0 + i) = (slice log 0)[i]? := by
      intro hgap i hi
      rw [bySeq_cut (by omega), bySeq_slice hseq hgap]
    constructor
    · rintro ⟨⟨rfl, rfl⟩, hscan, htrail⟩
      have hgap := legacy_gapFree hseq hscan htrail
      rw [trailing_iff_slice hgap] at htrail
      obtain ⟨hk, hp, hc⟩ := (scan_slice (hrows hgap) (by omega)).mp hscan
      exact ⟨rfl, hgap, hp, hk, fun _ => hc rfl⟩
    · rintro ⟨hb, hgap, hp, hk, hc⟩
      rw [Option.getD_none] at hb
      subst hb
      have hfull := hc (Or.inr rfl)
      have hlen : (slice log 0).length = events.length := by
        simpa using congrArg List.length hfull
      refine ⟨⟨by omega, rfl⟩, ?_, ?_⟩
      · rw [scan_slice (hrows hgap) (by omega)]
        exact ⟨hlen.symm, hp, fun _ => hfull⟩
      · rw [trailing_iff_slice hgap]
        omega

theorem reconcile_ok_iff (hseq : (log.map (·.seq)).Nodup) (offset : Option Nat) :
    reconcileEventCursor events log offset complete = .ok (k, base) ↔
      Consistent log events offset complete k base := by
  cases offset with
  | none => exact reconcile_none_iff hseq
  | some o => exact reconcile_some_iff hseq

/-! ## Appending the rest -/

/-- A slice is the only way to line its rows up. -/
theorem slice_eq (hseq : (log.map (·.seq)).Nodup) (hp : S.Perm (eventRows log o none))
    (hgap : GapFree S o) : slice log o = S := by
  have hrises : ∀ {l : EventLog}, (l.map (·.seq)).Pairwise (· < ·) →
      l.Pairwise fun a b => a.seq < b.seq := List.pairwise_map.mp
  refine List.Perm.eq_of_pairwise (fun a b _ _ hab hba => by omega) (hrises (slice_rises hseq))
    (hrises ?_) ((List.mergeSort_perm _ _).trans hp.symm)
  rw [hgap]
  exact List.pairwise_lt_range'

/-- Appending the other events completes the slice. -/
theorem Consistent.append {offset : Option Nat} (hseq : (log.map (·.seq)).Nodup)
    (h : Consistent log events offset complete k base) :
    ∃ log', appendEvents log events k base = some log' ∧ GapFree (slice log' base) base ∧
      rowFps (slice log' base) = fps events := by
  obtain ⟨-, hgap, hp, hk, -⟩ := h
  obtain ⟨hlen, hfps, hseqs⟩ := eventRowsOf_spec base (events.drop k) k
  generalize hnew : eventRowsOf base k (events.drop k) = new at hlen hfps hseqs
  have hlow : ∀ r ∈ log, r.seq < base + k := by
    intro r hr
    by_contra hge
    have hm : r.seq ∈ (slice log base).map (·.seq) :=
      List.mem_map_of_mem (mem_slice.mpr ⟨hr, by omega⟩)
    rw [hgap, List.mem_range'_1] at hm
    omega
  have hhigh : ∀ r ∈ new, base + k ≤ r.seq := by
    intro r hr
    have hm : r.seq ∈ new.map (·.seq) := List.mem_map_of_mem hr
    rw [hseqs] at hm
    exact (List.mem_range'_1.mp hm).1
  have happend : appendEvents log events k base = some (log ++ new) := by
    simp only [appendEvents, hnew]
    rw [if_neg]
    simp only [List.any_eq_true, beq_iff_eq, not_exists, not_and]
    intro r hr r' hr' heq
    have := hlow r' hr'
    have := hhigh r hr
    omega
  have hnodup : ((log ++ new).map (·.seq)).Nodup := by
    rw [List.map_append, List.nodup_append]
    refine ⟨hseq, by rw [hseqs]; exact List.nodup_range' .., ?_⟩
    intro a ha b hb
    obtain ⟨r, hr, rfl⟩ := List.mem_map.mp ha
    obtain ⟨r', hr', rfl⟩ := List.mem_map.mp hb
    have := hlow r hr
    have := hhigh r' hr'
    omega
  have hrows : eventRows (log ++ new) base none = eventRows log base none ++ new := by
    have hself : eventRows new base none = new := by
      refine List.filter_eq_self.mpr fun r hr => ?_
      have := hhigh r hr
      simp only [Option.all_none, Bool.and_true, decide_eq_true_eq]
      omega
    conv_rhs => rw [← hself]
    exact List.filter_append ..
  have hall : GapFree (slice log base ++ new) base := by
    rw [GapFree, List.map_append, hgap, hseqs, List.length_append, hlen, ← hk,
      List.range'_append_1]
  have hslice : slice (log ++ new) base = slice log base ++ new := by
    refine slice_eq hnodup ?_ hall
    rw [hrows]
    exact (List.mergeSort_perm _ _).append_right new
  refine ⟨log ++ new, happend, by rw [hslice]; exact hall, ?_⟩
  have htake : fps events = rowFps (slice log base) ++ fps (events.drop k) := by
    rw [List.prefix_iff_eq_take.mp hp, rowFps, List.length_map, ← hk, fps, fps, List.map_drop,
      List.take_append_drop]
  rw [hslice, htake, rowFps, List.map_append, ← hfps]

/-- **Reconciliation accepts exactly the consistent logs.** -/
theorem reconcile_accepts_iff (log : EventLog) (hseq : (log.map (·.seq)).Nodup)
    (checkpointEvents : List EventDict) (offset : Option Nat) (requireComplete : Bool) :
    ∃ result, (reconcileIn checkpointEvents offset requireComplete).run.run log = (result, log) ∧
      (∀ matched base, result = .ok (matched, base) ↔
        Consistent log (checkpointEvents.map EventDict.read) offset requireComplete matched base) ∧
      ((¬ ∃ matched base, Consistent log (checkpointEvents.map EventDict.read) offset
          requireComplete matched base) → ∃ message, result = .error message) ∧
      ∀ matched base, result = .ok (matched, base) →
        ∃ log', appendEvents log (checkpointEvents.map EventDict.read) matched base = some log' ∧
          GapFree (slice log' base) base ∧
            rowFps (slice log' base) = fps (checkpointEvents.map EventDict.read) := by
  refine ⟨_, reconcileIn_run checkpointEvents offset requireComplete log,
    fun matched base => reconcile_ok_iff hseq offset, ?_, ?_⟩
  · intro hnone
    cases hr : reconcileEventCursor (checkpointEvents.map EventDict.read) log offset
        requireComplete with
    | error message => exact ⟨message, rfl⟩
    | ok r => exact absurd ⟨r.1, r.2, (reconcile_ok_iff hseq offset).mp hr⟩ hnone
  · intro matched base hr
    exact ((reconcile_ok_iff hseq offset).mp hr).append hseq

/-- A second attempt whose first event has reached the log, where its details came
back in another order. -/
def secondAttempt : EventLog :=
  [⟨0, "parse_intent", "transient_error", "error", none, []⟩,
    ⟨1, "parse_intent", "intent_parsed", "ok", none, [("model", .str "m"), ("cached", .int 1)]⟩]

def secondAttemptEvents : List EventDict :=
  [{ node := some "parse_intent", event := some "intent_parsed", status := some "ok",
     details := some [("cached", .bool true), ("model", .str "m")] },
    { node := some "validate_intent", event := some "intent_valid", status := some "ok" }]

theorem reconcile_accepts_second :
    ∃ result, (reconcileIn secondAttemptEvents (some 1) false).run.run secondAttempt =
        (result, secondAttempt) ∧
      (∀ matched base, result = .ok (matched, base) ↔
        Consistent secondAttempt (secondAttemptEvents.map EventDict.read) (some 1) false matched
          base) ∧
      ((¬ ∃ matched base, Consistent secondAttempt (secondAttemptEvents.map EventDict.read)
          (some 1) false matched base) → ∃ message, result = .error message) ∧
      ∀ matched base, result = .ok (matched, base) →
        ∃ log', appendEvents secondAttempt (secondAttemptEvents.map EventDict.read) matched base =
            some log' ∧
          GapFree (slice log' base) base ∧
            rowFps (slice log' base) = fps (secondAttemptEvents.map EventDict.read) :=
  reconcile_accepts_iff secondAttempt (by decide) secondAttemptEvents (some 1) false

example : reconcileEventCursor (secondAttemptEvents.map EventDict.read) secondAttempt (some 1)
    false = .ok (1, 1) := by decide +kernel

end BidScope.L3
