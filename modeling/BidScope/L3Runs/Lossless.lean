import BidScope.L3Runs.Stream

/-!
# The event stream loses nothing

What a client of `feed` is sent, over every interleaving of the run with the
route's two reads and every number of connections.

**Lossless (`stream_lossless`).** In every run whose steps are all
`Undisturbed`, a connection sends increasing sequences behind its start, has
sent every such event committed before the terminal status it reports, and
sends nothing the client had received before. The two conditions are what the
route does not check:
* no event is committed between the read of the events and a terminal status
  that the next read finds (`event_lost`);
* a client that has received events does not come back with the id of the
  terminal frame, which the route reads as the start (`resent`).

The invariant `ConnOK` says what a connection holds in terms of the log: what
it has sent and what it has read are the log behind `start` as it stood when
last read, and the cursor stands behind the last event sent.
-/
namespace BidScope.L3

open BidScope.L1 BidScope.L2

/-- Rows behind the sequence `n`. -/
def offsetOf (n : Int) : Nat := (n + 1).toNat

/-- What the route relies on and does not check. -/
def Undisturbed (s : FState) : FEv → Prop
  | .check _ => ∀ c ∈ s.conn, (terminalStatus s.run.row).isSome →
      ∀ r ∈ (s.run.store.log.take s.settled).drop c.seen, (r.seq : Int) ≤ c.start
  | .reconnect => s.lastId = some "terminal" → s.received = []
  | _ => True

instance (s : FState) (ev : FEv) : Decidable (Undisturbed s ev) := by
  unfold Undisturbed
  split <;> infer_instance

/-! ## The log behind a sequence -/

variable {log log' : Log}

theorem Contiguous.pairwise (hc : Contiguous log) : log.Pairwise fun a b => a.seq < b.seq := by
  have h : (log.map (·.seq)).Pairwise (· < ·) := by
    rw [hc]
    exact List.pairwise_lt_range
  rwa [List.pairwise_map] at h

theorem Contiguous.filter_lt (hc : Contiguous log) (n : Int) :
    (log.filter fun r => n < r.seq) = log.drop (offsetOf n) := by
  rw [← eventRows_eq_drop hc, eventRows]
  refine List.filter_congr fun r _ => ?_
  have hiff : n < (r.seq : Int) ↔ offsetOf n ≤ r.seq := by
    unfold offsetOf
    omega
  simp [hiff]

/-- `list_events` reads the rest of the log. -/
theorem listEvents_eq (hc : Contiguous log) (n : Int) : listEvents log n = log.drop (offsetOf n) := by
  rw [listEvents, hc.filter_lt]
  refine List.mergeSort_of_pairwise (List.Pairwise.imp ?_ (hc.pairwise.drop))
  intro a b hab
  simpa using Nat.le_of_lt hab

theorem mem_drop_seq (hc : Contiguous log) {k : Nat} {r : RunEvent} (h : r ∈ log.drop k) :
    k ≤ r.seq := by
  obtain ⟨i, hi, hget⟩ := List.mem_drop_iff_getElem.mp h
  have := hc.seq (List.getElem?_eq_some_iff.mpr ⟨_, hget⟩)
  omega

/-- A prefix of the log stays as it is when the log grows. -/
theorem take_of_appended {k : Nat} (h : log <+: log') (hk : k ≤ log.length) :
    log'.take k = log.take k := by
  obtain ⟨rows, rfl⟩ := h
  exact List.take_append_of_le_length hk

/-! ## The invariant -/

structure ConnOK (s : FState) (c : Conn) : Prop where
  seen : c.seen ≤ s.run.store.log.length
  slice : c.rows ++ c.batch = (s.run.store.log.take c.seen).drop (offsetOf c.start)
  cursor : offsetOf c.afterSeq = offsetOf c.start + c.rows.length
  closed : ∀ status n, c.phase = .closed status n → n ≤ s.run.store.log.length ∧
    ∀ r ∈ s.run.store.log.take n, c.start < r.seq → r ∈ c.rows
  earlier : ∀ q ∈ c.earlier, (q : Int) ≤ c.start
  got : c.got ≤ c.sent.length
  received : s.received = c.earlier ++ ((c.sent.take c.got).filterMap Frame.row).map (·.seq)

/-- The last id is that of the greatest sequence received, or of a terminal
frame. -/
def LastId (s : FState) : Prop :=
  match s.lastId with
  | none => s.received = []
  | some id => id = "terminal" ∨ ∃ q, id = toString q ∧ ∀ r ∈ s.received, r ≤ q

structure FInv (s : FState) : Prop where
  run : LogInv s.run
  settled : s.settled ≤ s.run.store.log.length
  conn : ∀ c, s.conn = some c → ConnOK s c
  last : LastId s

variable {lib : Lib} {runId userRequest : String} {s s' : FState} {c c' : Conn}

/-- What a connection sends stands behind its start. -/
theorem ConnOK.row_gt (h : ConnOK s c) (hc : Contiguous s.run.store.log) {r : RunEvent}
    (hr : r ∈ c.rows) : r ∈ s.run.store.log ∧ c.start < r.seq := by
  have hm : r ∈ (s.run.store.log.take c.seen).drop (offsetOf c.start) := by
    rw [← h.slice]
    exact List.mem_append_left _ hr
  rw [List.drop_take] at hm
  have hd := List.mem_of_mem_take hm
  have := mem_drop_seq hc hd
  unfold offsetOf at this
  exact ⟨List.mem_of_mem_drop hd, by omega⟩

theorem ConnOK.increasing (h : ConnOK s c) (hc : Contiguous s.run.store.log) :
    c.rows.Pairwise fun a b => a.seq < b.seq := by
  have hp : (c.rows ++ c.batch).Pairwise fun a b => a.seq < b.seq := by
    rw [h.slice]
    exact (hc.pairwise.take).drop
  exact (List.pairwise_append.mp hp).1

/-- A connection just opened has read nothing. -/
theorem connOK_open {start : Int} (hle : ∀ q ∈ s.received, (q : Int) ≤ start) :
    ConnOK s { start, earlier := s.received } where
  seen := Nat.zero_le _
  slice := by simp [Conn.rows, Conn.batch]
  cursor := rfl
  closed status n hp := by cases hp
  earlier := hle
  got := Nat.le_refl _
  received := by simp

/-- A step of the run leaves what was read as it is. -/
theorem connOK_run {run : SState} {settled : Nat} (h : ConnOK s c)
    (hlog : s.run.store.log <+: run.store.log) : ConnOK { s with run, settled } c where
  seen := Nat.le_trans h.seen hlog.length_le
  slice := by rw [take_of_appended hlog h.seen]; exact h.slice
  cursor := h.cursor
  closed status n hp := by
    obtain ⟨hn, hall⟩ := h.closed status n hp
    refine ⟨Nat.le_trans hn hlog.length_le, ?_⟩
    rw [take_of_appended hlog hn]
    exact hall
  earlier := h.earlier
  got := h.got
  received := h.received

theorem rows_append (sent : List Frame) (f : Frame) :
    (sent ++ [f]).filterMap Frame.row = sent.filterMap Frame.row ++ f.row.toList := by
  cases f <;> simp [Frame.row]

/-- Frames sent behind those delivered. -/
theorem sent_got (h : ConnOK s c) (frames : List Frame) : c.got ≤ (c.sent ++ frames).length := by
  rw [List.length_append]
  exact Nat.le_trans h.got (Nat.le_add_right _ _)

theorem sent_received (h : ConnOK s c) (frames : List Frame) :
    s.received =
      c.earlier ++ (((c.sent ++ frames).take c.got).filterMap Frame.row).map (·.seq) := by
  rw [List.take_append_of_le_length h.got]
  exact h.received

theorem connOK_list (h : ConnOK s c) (hc : Contiguous s.run.store.log) (hp : c.phase = .listing) :
    ConnOK s { c with phase := .sending (listEvents s.run.store.log c.afterSeq)
                      seen := s.run.store.log.length } := by
  refine ⟨Nat.le_refl _, ?_, h.cursor, fun status n hp' => (by cases hp'), h.earlier,
    h.got, h.received⟩
  have hsent : c.rows <+: s.run.store.log.drop (offsetOf c.start) := by
    have hs := h.slice
    simp only [Conn.batch, hp, List.append_nil] at hs
    rw [hs, List.drop_take]
    exact List.take_prefix _ _
  show c.rows ++ listEvents s.run.store.log c.afterSeq = _
  rw [listEvents_eq hc, h.cursor, List.take_length, ← List.drop_drop]
  obtain ⟨rest, hrest⟩ := hsent
  rw [← hrest, List.drop_left]

theorem connOK_yield (h : ConnOK s c) (hc : Contiguous s.run.store.log) {r : RunEvent}
    {rest : List RunEvent} (hp : c.phase = .sending (r :: rest)) :
    ConnOK s { c with phase := .sending rest, afterSeq := r.seq, sent := c.sent ++ [.event r] } := by
  have hs := h.slice
  simp only [Conn.batch, hp] at hs
  have hrows : (c.sent ++ [Frame.event r]).filterMap Frame.row = c.rows ++ [r] := rows_append _ _
  -- the event yielded is the row of the log behind those sent
  have hseq : r.seq = offsetOf c.start + c.rows.length := by
    have hget : ((s.run.store.log.take c.seen).drop (offsetOf c.start))[c.rows.length]? = some r := by
      rw [← hs, List.getElem?_append_right (Nat.le_refl _), Nat.sub_self]
      rfl
    rw [List.drop_take, List.getElem?_take] at hget
    split at hget
    · rw [List.getElem?_drop] at hget
      exact hc.seq hget
    · cases hget
  refine ⟨h.seen, ?_, ?_, fun status n hp' => (by cases hp'), h.earlier, sent_got h _, sent_received h _⟩
  · show (c.sent ++ [Frame.event r]).filterMap Frame.row ++ rest = _
    rw [hrows, ← hs, List.append_assoc]
    rfl
  · show offsetOf (r.seq : Int) = offsetOf c.start + ((c.sent ++ [Frame.event r]).filterMap
      Frame.row).length
    rw [hrows, List.length_append, hseq]
    simp only [offsetOf, List.length_singleton]
    omega

/-- An emptied batch: every event read has been sent. -/
theorem ConnOK.sent_all (h : ConnOK s c) (hp : c.phase = .sending []) :
    c.rows = (s.run.store.log.take c.seen).drop (offsetOf c.start) := by
  have hs := h.slice
  simpa only [Conn.batch, hp, List.append_nil] using hs

theorem connOK_again (h : ConnOK s c) (hp : c.phase = .sending []) {comments : List Frame}
    (hcom : comments.filterMap Frame.row = []) :
    ConnOK s { c with phase := .listing, sent := c.sent ++ comments } := by
  have hrows : (c.sent ++ comments).filterMap Frame.row = c.rows := by
    rw [List.filterMap_append, hcom, List.append_nil]
    rfl
  refine ⟨h.seen, ?_, ?_, fun status n hp' => (by cases hp'), h.earlier, sent_got h _,
    sent_received h _⟩
  · show (c.sent ++ comments).filterMap Frame.row ++ [] = _
    rw [hrows, List.append_nil]
    exact h.sent_all hp
  · show offsetOf c.afterSeq = offsetOf c.start + ((c.sent ++ comments).filterMap Frame.row).length
    rw [hrows]
    exact h.cursor

/-- The terminal frame: nothing behind the start was committed between the
read of the events and the status. -/
theorem connOK_close (h : ConnOK s c) (hc : Contiguous s.run.store.log) {status : RunStatus}
    (hset : s.settled ≤ s.run.store.log.length) (hp : c.phase = .sending [])
    (hquiet : ∀ r ∈ (s.run.store.log.take s.settled).drop c.seen, (r.seq : Int) ≤ c.start) :
    ConnOK s { c with phase := .closed status s.settled, sent := c.sent ++ [.terminal status] } := by
  have hrows : (c.sent ++ [Frame.terminal status]).filterMap Frame.row = c.rows := by
    rw [rows_append]
    exact List.append_nil _
  refine ⟨h.seen, ?_, ?_, fun st n hp' => ?_, h.earlier, sent_got h _, sent_received h _⟩
  · show (c.sent ++ [Frame.terminal status]).filterMap Frame.row ++ [] = _
    rw [hrows, List.append_nil]
    exact h.sent_all hp
  · show offsetOf c.afterSeq =
      offsetOf c.start + ((c.sent ++ [Frame.terminal status]).filterMap Frame.row).length
    rw [hrows]
    exact h.cursor
  · cases hp'
    refine ⟨hset, fun r hr hstart => ?_⟩
    have hgt : c.start < r.seq := hstart
    show r ∈ (c.sent ++ [Frame.terminal status]).filterMap Frame.row
    rw [hrows, h.sent_all hp]
    obtain ⟨i, hi, hget⟩ := List.mem_take_iff_getElem.mp hr
    have hseq : r.seq = i := hc.seq (List.getElem?_eq_some_iff.mpr ⟨by omega, hget⟩)
    have hlt : i < c.seen := by
      by_contra hge
      -- otherwise the event came after the read
      have hm : r ∈ (s.run.store.log.take s.settled).drop c.seen := by
        rw [List.mem_drop_iff_getElem]
        refine ⟨i - c.seen, by rw [List.length_take]; omega, ?_⟩
        simp only [List.getElem_take, Nat.add_sub_cancel' (Nat.le_of_not_lt hge)]
        exact hget
      have := hquiet r hm
      omega
    rw [List.mem_drop_iff_getElem]
    refine ⟨i - offsetOf c.start, ?_, ?_⟩
    · rw [List.length_take]
      unfold offsetOf
      omega
    · have hoff : offsetOf c.start ≤ i := by
        unfold offsetOf
        omega
      simp only [List.getElem_take, Nat.add_sub_cancel' hoff]
      exact hget

/-! ## One step -/

theorem ConnOK.frame {conn : Option Conn} (h : ConnOK s c) : ConnOK { s with conn } c :=
  ⟨h.seen, h.slice, h.cursor, h.closed, h.earlier, h.got, h.received⟩

theorem connOK_route {ev : FEv} (h : ConnOK s c) (hc : Contiguous s.run.store.log)
    (hset : s.settled ≤ s.run.store.log.length) (hconn : s.conn = some c)
    (hG : Undisturbed s ev) (hs : CStep s c ev c') : ConnOK s c' := by
  cases hs with
  | list hp => exact connOK_list h hc hp
  | yield hp => exact connOK_yield h hc hp
  | close heartbeat hp hst =>
    exact connOK_close h hc hset hp (hG c hconn (by rw [hst]; rfl))
  | again heartbeat hp hcom => exact connOK_again h hp hcom

/-- Where a client that reconnects starts: behind all it has received. -/
theorem reconnect_start {id : String} (h : LastId s) (hl : s.lastId = some id)
    (hG : Undisturbed s .reconnect) :
    ∀ q ∈ s.received, (q : Int) ≤ parseLastEventId none (some id) none := by
  intro q hq
  simp only [LastId, hl] at h
  rcases h with rfl | ⟨n, rfl, hn⟩
  · rw [hG hl] at hq
    cases hq
  · rw [parseLastEventId_seq]
    exact_mod_cast hn q hq

theorem connOK_deliver {f : Frame} {last : Option String} (h : ConnOK s c)
    (hf : c.sent[c.got]? = some f) :
    ConnOK { s with conn := some { c with got := c.got + 1 }
                    received := s.received ++ (f.row.map (·.seq)).toList
                    lastId := last }
      { c with got := c.got + 1 } := by
  refine ⟨h.seen, h.slice, h.cursor, h.closed, h.earlier,
    (List.getElem?_eq_some_iff.mp hf).1, ?_⟩
  show s.received ++ (f.row.map (·.seq)).toList = _
  rw [List.take_add_one, hf, Option.toList_some, rows_append, List.map_append, ← List.append_assoc, ← h.received]
  cases f.row <;> rfl

/-- What the client has received stands before the frame delivered. -/
theorem received_lt (h : ConnOK s c) (hc : Contiguous s.run.store.log) {r : RunEvent}
    (hf : c.sent[c.got]? = some (.event r)) : ∀ q ∈ s.received, q ≤ r.seq := by
  intro q hq
  have hrows : (c.sent.take c.got).filterMap Frame.row ++ [r] <+: c.rows := by
    have hpre := (List.take_prefix (c.got + 1) c.sent).filterMap Frame.row
    rwa [List.take_add_one, hf, Option.toList_some, rows_append] at hpre
  rw [h.received, List.mem_append] at hq
  rcases hq with hq | hq
  · have hle := h.earlier q hq
    have hgt := (h.row_gt hc (hrows.subset (List.mem_append_right _ (List.mem_singleton_self r)))).2
    omega
  · obtain ⟨r', hr', rfl⟩ := List.mem_map.mp hq
    have hp := (h.increasing hc).sublist hrows.sublist
    exact Nat.le_of_lt ((List.pairwise_append.mp hp).2.2 r' hr' r (List.mem_singleton_self r))

theorem lastId_deliver {f : Frame} (h : ConnOK s c) (hc : Contiguous s.run.store.log)
    (hl : LastId s) (hf : c.sent[c.got]? = some f) :
    LastId { s with conn := some { c with got := c.got + 1 }
                    received := s.received ++ (f.row.map (·.seq)).toList
                    lastId := f.id.or s.lastId } := by
  cases f with
  | event r =>
    refine Or.inr ⟨r.seq, rfl, fun q hq => ?_⟩
    rcases List.mem_append.mp hq with hq | hq
    · exact received_lt h hc hf q hq
    · exact Nat.le_of_eq (List.mem_singleton.mp hq)
  | terminal status => exact Or.inl rfl
  | comment text =>
    have hsame : s.received ++ ((Frame.comment text).row.map (·.seq)).toList = s.received :=
      List.append_nil _
    rw [hsame]
    exact hl

theorem finv_step {ev : FEv} (h : FInv s) (hG : Undisturbed s ev)
    (hs : FStep lib runId userRequest s ev s') : FInv s' := by
  have hc := h.run.store.log
  cases hs with
  | @run ev run hrun =>
    obtain ⟨hlog, -⟩ := log_appends hrun
    refine ⟨logInv_step h.run hrun, ?_, fun c hconn => connOK_run (h.conn c hconn) hlog, h.last⟩
    show (if run.row = s.run.row then s.settled else run.store.log.length) ≤ run.store.log.length
    split
    · exact Nat.le_trans h.settled hlog.length_le
    · exact Nat.le_refl _
  | connect n hl =>
    have hnone : s.received = [] := by
      have := h.last
      rwa [LastId, hl] at this
    refine ⟨h.run, h.settled, fun c hconn => ?_, h.last⟩
    cases hconn
    refine connOK_open fun q hq => ?_
    rw [hnone] at hq
    cases hq
  | @reconnect id hl =>
    refine ⟨h.run, h.settled, fun c hconn => ?_, h.last⟩
    cases hconn
    exact connOK_open (reconnect_start h.last hl hG)
  | deliver hconn hf =>
    have hok := h.conn _ hconn
    refine ⟨h.run, h.settled, fun c' hc' => ?_, lastId_deliver hok hc h.last hf⟩
    cases hc'
    exact connOK_deliver hok hf
  | route hconn hs =>
    refine ⟨h.run, h.settled, fun c' hc' => ?_, h.last⟩
    cases hc'
    exact (connOK_route (h.conn _ hconn) hc h.settled hconn hG hs).frame

theorem finv_inductive : ((feed lib runId userRequest).restrict Undisturbed).Inductive FInv where
  init := by
    intro s heq
    subst heq
    have hrun : (service lib runId userRequest).Inductive LogInv := logInv_inductive
    exact ⟨hrun.init _ rfl, Nat.le_refl _, fun c hc => (by cases hc), rfl⟩
  step _ _ _ h hs := finv_step h hs.1 (fstep_cases hs.2)

/-! ## The promise of the stream -/

/-- What the stream promises of a connection. -/
structure Lossless (s : FState) (c : Conn) : Prop where
  increasing : c.rows.Pairwise fun a b => a.seq < b.seq
  stored : ∀ r ∈ c.rows, r ∈ s.run.store.log ∧ c.start < r.seq
  complete : ∀ status n, c.phase = .closed status n →
    ∀ r ∈ s.run.store.log.take n, c.start < r.seq → r ∈ c.rows
  once : ∀ r ∈ c.rows, r.seq ∉ c.earlier

/-- **A lossless stream.** In every run without an event between the last two
reads, and without a client that comes back with the id of the terminal
frame. -/
theorem stream_lossless (lib : Lib) (runId userRequest : String) (s : FState)
    (hr : ((feed lib runId userRequest).restrict Undisturbed).Reachable s) (c : Conn)
    (hc : s.conn = some c) : Lossless s c := by
  have h := finv_inductive.reachable s hr
  have hlog := h.run.store.log
  have hok := h.conn c hc
  refine ⟨hok.increasing hlog, fun r hr' => hok.row_gt hlog hr',
    fun status n hp => (hok.closed status n hp).2, fun r hr' hmem => ?_⟩
  have := hok.earlier r.seq hmem
  have := (hok.row_gt hlog hr').2
  omega

/-- The condition on the status read is exact: an event it forbids is lost. -/
theorem lost_of_disturbed (h : FInv s) (hconn : s.conn = some c) {status : RunStatus}
    (hp : c.phase = .sending []) {r : RunEvent}
    (hr : r ∈ (s.run.store.log.take s.settled).drop c.seen) (hgt : c.start < r.seq) :
    ¬ Lossless s
      { c with phase := .closed status s.settled, sent := c.sent ++ [.terminal status] } := by
  intro hl
  have hc := h.run.store.log
  have hsent : r ∈ (c.sent ++ [Frame.terminal status]).filterMap Frame.row :=
    hl.complete status s.settled rfl r (List.mem_of_mem_drop hr) hgt
  rw [rows_append, Frame.row, Option.toList_none, List.append_nil] at hsent
  have hrow : r ∈ c.rows := hsent
  rw [(h.conn c hconn).sent_all hp] at hrow
  have hlt : r.seq < c.seen := by
    obtain ⟨i, hi, hget⟩ := List.mem_take_iff_getElem.mp (List.mem_of_mem_drop hrow)
    have := hc.seq (List.getElem?_eq_some_iff.mpr ⟨by omega, hget⟩)
    omega
  rw [List.drop_take] at hr
  have := mem_drop_seq hc (List.mem_of_mem_take hr)
  omega

/-- A worker up to the append of `parse_intent`'s event. -/
def parsed : List FEv :=
  ([.start 0, .work 0 .lock, .work 0 .activate, .work 0 .load, .work 0 (.exec .reconcile),
    .work 0 .guard, .work 0 (.exec .write), .work 0 (.exec (.superstep demoPorts)),
    .work 0 .guard, .work 0 (.exec .write), .work 0 (.exec .emit),
    .work 0 (.exec (.superstep demoPorts))] : List SEv).map FEv.run

def appendEv : FEv := .run (.work 0 (.exec .emit))

def failEv : FEv := .run (.work 0 .repair)

abbrev demoFeed : FState → FEv → Option FState := fstep asciiLib "run-1" "road works"

/-- The connection is lost behind the first event and taken up again before the
second is there. -/
def resumedEvs : List FEv :=
  parsed ++ [appendEv, .connect (-1), .list, .yield, .deliver, .check true, .reconnect,
    .run (.work 0 (.exec (.superstep demoPorts))), appendEv, .list, .yield, .deliver, failEv,
    .check false, .deliver]

def guardedFeed (s : FState) (ev : FEv) : Option FState :=
  if Undisturbed s ev then demoFeed s ev else none

def resumedFeed : FState := (LTS.exec guardedFeed {} resumedEvs).get (by decide +kernel)

def resumedConn : Conn := resumedFeed.conn.get (by decide +kernel)

theorem stream_lossless_resumed :
    resumedFeed.received = [0, 1] ∧ resumedConn.start = 0 ∧ resumedConn.rows.map (·.seq) = [1] ∧
      resumedConn.phase = .closed .retryable 2 ∧ Lossless resumedFeed resumedConn :=
  ⟨by decide +kernel, by decide +kernel, by decide +kernel, by decide +kernel,
    stream_lossless asciiLib "run-1" "road works" resumedFeed
      (LTS.reachable_of_execGuarded resumedEvs (by rfl) _) resumedConn
      (Option.some_get (by decide +kernel)).symm⟩

/-- The event and the final status are committed between the two reads. -/
def lostEvs : List FEv := parsed ++ [.connect (-1), .list, appendEv, failEv, .check false]

def lostFeed : FState := (LTS.exec demoFeed {} lostEvs).get (by decide +kernel)

def lostConn : Conn := lostFeed.conn.get (by decide +kernel)

/-- The client receives the whole stream and comes back. -/
def resentEvs : List FEv :=
  parsed ++ [appendEv, failEv, .connect (-1), .list, .yield, .deliver, .check false, .deliver,
    .reconnect, .list, .yield]

def resentFeed : FState := (LTS.exec demoFeed {} resentEvs).get (by decide +kernel)

def resentConn : Conn := resentFeed.conn.get (by decide +kernel)

/-- The stream loses an event, and sends one again. -/
theorem event_lost_and_resent :
    ((feed asciiLib "run-1" "road works").Reachable lostFeed ∧ lostFeed.conn = some lostConn ∧
        ¬ Lossless lostFeed lostConn) ∧
      (feed asciiLib "run-1" "road works").Reachable resentFeed ∧
        resentFeed.conn = some resentConn ∧ ¬ Lossless resentFeed resentConn := by
  refine ⟨⟨LTS.reachable_of_exec lostEvs (by rfl) _, (Option.some_get _).symm, fun h => ?_⟩,
    LTS.reachable_of_exec resentEvs (by rfl) _, (Option.some_get _).symm, fun h => ?_⟩
  · have hlen : (lostFeed.run.store.log.take 1).length = 1 := by decide +kernel
    have hsent : lostConn.rows = [] := by decide +kernel
    have hclosed : lostConn.phase = .closed .retryable 1 := by decide +kernel
    have hstart : lostConn.start = -1 := by decide +kernel
    obtain ⟨r, hr⟩ := List.length_eq_one_iff.mp hlen
    have hmem : r ∈ lostFeed.run.store.log.take 1 := by
      rw [hr]
      exact List.mem_singleton_self r
    have hlost := h.complete .retryable 1 hclosed r hmem (by rw [hstart]; omega)
    rw [hsent] at hlost
    cases hlost
  · have hrows : resentConn.rows.map (·.seq) = [0] := by decide +kernel
    have hearlier : resentConn.earlier = [0] := by decide +kernel
    have hzero : 0 ∈ resentConn.rows.map (·.seq) := by
      rw [hrows]
      exact List.mem_singleton_self 0
    obtain ⟨r, hr, hseq⟩ := List.mem_map.mp hzero
    refine h.once r hr ?_
    rw [hseq, hearlier]
    exact List.mem_singleton_self 0

end BidScope.L3
