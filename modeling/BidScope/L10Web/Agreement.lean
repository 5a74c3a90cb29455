import BidScope.L10Web.Wire

/-!
# Server and client agree on the events the client knows

**Agreement (`client_agrees_iff`).** On the stream of any events the nodes can
emit, with comments anywhere between them and cut into any chunks, the client
makes one call for each event, in order and with its payload, and then one for
the terminal status, exactly when the name of every event is in
`RUN_EVENT_TYPES`. Of the names the nodes use five are; the others are dropped
(`plan_dropped`).

The client's reader does not see the chunks (`Framing.feed_encoded`); what is
left is that it cuts off the frames that were encoded (`cut_message`), and what
it does with each (`dispatch_event`, `dispatch_comment`, `dispatch_terminal`).
-/
namespace BidScope.L10

open BidScope.L1 BidScope.L2 BidScope.L3

variable {l t rest : List Char} {i : Nat}

theorem OneLine.append {a b : List Char} (ha : OneLine a) (hb : OneLine b) : OneLine (a ++ b) := by
  intro c hc
  rcases List.mem_append.mp hc with h | h
  · exact ha c h
  · exact hb c h

theorem OneLine.tail {c : Char} (h : OneLine (c :: l)) : OneLine l :=
  fun d hd => h d (List.mem_cons_of_mem _ hd)

theorem oneLine_comment (h : OneLine t) : OneLine (':' :: ' ' :: t) := by
  intro c hc
  rcases List.mem_cons.mp hc with rfl | hc
  · decide
  · rcases List.mem_cons.mp hc with rfl | hc
    · decide
    · exact h c hc

theorem oneLine_fieldLine {name : String} (hn : OneLine name.toList) (h : OneLine t) :
    OneLine (fieldLine name t) := by
  exact hn.append (oneLine_comment h)

theorem oneLine_dumps (v : Json Int) : OneLine (Json.dumps v) := by
  intro c hc
  have hp := Json.dumps_printable v c hc
  constructor
  · rintro rfl
    exact absurd hp (by decide)
  · rintro rfl
    exact absurd hp (by decide)

/-! ## Lines -/

theorem splitLinesGo_line : ∀ (l line : List Char), OneLine l →
    splitLinesGo false line (l ++ '\r' :: '\n' :: rest) =
      (line.reverse ++ l) :: splitLinesGo false [] rest
  | [], line, _ => by
    rw [List.nil_append, List.append_nil, splitLinesGo, if_neg (by simp), if_pos (Or.inr rfl)]
    rfl
  | c :: l, line, h => by
    have hc := h c (List.mem_cons_self ..)
    rw [List.cons_append, splitLinesGo, if_neg (by simp), if_neg (by simp [hc.1, hc.2]),
      splitLinesGo_line l (c :: line) h.tail]
    simp

theorem splitLinesGo_last : ∀ (l line : List Char), OneLine l →
    splitLinesGo false line l = [line.reverse ++ l]
  | [], line, _ => by rw [splitLinesGo, List.append_nil]
  | c :: l, line, h => by
    have hc := h c (List.mem_cons_self ..)
    rw [splitLinesGo, if_neg (by simp), if_neg (by simp [hc.1, hc.2]),
      splitLinesGo_last l (c :: line) h.tail]
    simp

/-- No frame ends within a line that another follows. -/
theorem frameEndFrom_line {c : Char} (hc : c ≠ '\n' ∧ c ≠ '\r') : ∀ (l : List Char) (i : Nat),
    OneLine l → frameEndFrom i (l ++ '\r' :: '\n' :: c :: rest) =
      frameEndFrom (i + l.length + 2) (c :: rest)
  | [], i, _ => by
    have h1 : ¬ ('\r' = '\n' ∧ ('\n' :: c :: rest).head? = some '\n') := by simp
    have h2 : ¬ ('\r' = '\r' ∧ ('\n' :: c :: rest).take 3 = ['\n', '\r', '\n']) := by
      simp [hc.2]
    have h3 : ¬ ('\n' = '\n' ∧ (c :: rest).head? = some '\n') := by simp [hc.1]
    rw [List.nil_append, frameEndFrom, if_neg h1, if_neg h2, frameEndFrom, if_neg h3,
      if_neg (by simp)]
    rfl
  | d :: l, i, h => by
    have hd := h d (List.mem_cons_self ..)
    rw [List.cons_append, frameEndFrom, if_neg (by simp [hd.1]), if_neg (by simp [hd.2]),
      frameEndFrom_line hc l (i + 1) h.tail, List.length_cons]
    congr 1
    omega

theorem frameEndFrom_next {tail : List Char} (hl : OneLine l)
    (ht : ∃ c t, tail = c :: t ∧ c ≠ '\n' ∧ c ≠ '\r') :
    frameEndFrom i (l ++ '\r' :: '\n' :: tail) = frameEndFrom (i + l.length + 2) tail := by
  obtain ⟨c, t, rfl, hc⟩ := ht
  exact frameEndFrom_line hc l i hl

theorem frameEndFrom_last : ∀ (l : List Char) (i : Nat), OneLine l →
    frameEndFrom i (l ++ crlf ++ crlf ++ rest) = some (i + l.length + 4)
  | [], i, _ => by
    simp [crlf, frameEndFrom]
  | d :: l, i, h => by
    have hd := h d (List.mem_cons_self ..)
    rw [List.cons_append, List.cons_append, List.cons_append, frameEndFrom,
      if_neg (by simp [hd.1]), if_neg (by simp [hd.2]), frameEndFrom_last l (i + 1) h.tail,
      List.length_cons]
    congr 1
    omega

/-- A frame that ends behind its two line ends is cut off without them. -/
theorem cut_body {body : List Char}
    (h : findSseFrameEnd (body ++ crlf ++ crlf ++ rest) = some (body.length + 4)) :
    sseCutter.cut (body ++ crlf ++ crlf ++ rest) = some (body, rest) := by
  have hcut : sseCutter.cut (body ++ crlf ++ crlf ++ rest) =
      (findSseFrameEnd (body ++ crlf ++ crlf ++ rest)).map
        (splitSseFrame (body ++ crlf ++ crlf ++ rest)) := rfl
  have hlen : (body ++ crlf ++ crlf).length = body.length + 4 := by simp [crlf]
  have hget : (body ++ crlf ++ crlf ++ rest)[body.length + 4 - 4]? = some '\r' := by
    rw [Nat.add_sub_cancel, List.append_assoc, List.append_assoc,
      List.getElem?_append_right (Nat.le_refl _), Nat.sub_self]
    rfl
  rw [hcut, h, Option.map_some, splitSseFrame, if_pos ⟨by omega, hget⟩, Nat.add_sub_cancel, ← hlen,
    List.drop_left, List.append_assoc, List.append_assoc, List.take_left]

/-! ## One frame -/

/-- The lines of a message with an id, an event and data. -/
def threeLines (id event data : List Char) : List Char :=
  fieldLine "id" id ++ crlf ++ fieldLine "event" event ++ crlf ++ fieldLine "data" data

/-- A frame as the client cuts it off. -/
def body : Frame → List Char
  | .event r => threeLines (toString r.seq).toList r.event.toList (Json.dumps (eventPayload r))
  | .terminal status =>
    threeLines "terminal".toList "terminal".toList (Json.dumps (terminalPayload status))
  | .comment t => ':' :: ' ' :: t.toList

theorem cut_three {id event data : List Char} (hi : OneLine id) (he : OneLine event)
    (hd : OneLine data) :
    sseCutter.cut (threeLines id event data ++ crlf ++ crlf ++ rest) =
      some (threeLines id event data, rest) := by
  have h1 : OneLine (fieldLine "id" id) := oneLine_fieldLine (by decide) hi
  have h2 : OneLine (fieldLine "event" event) := oneLine_fieldLine (by decide) he
  have h3 : OneLine (fieldLine "data" data) := oneLine_fieldLine (by decide) hd
  refine cut_body ?_
  have htext : threeLines id event data ++ crlf ++ crlf ++ rest =
      fieldLine "id" id ++ '\r' :: '\n' :: (fieldLine "event" event ++ '\r' :: '\n' ::
        (fieldLine "data" data ++ crlf ++ crlf ++ rest)) := by
    simp [threeLines, crlf]
  have hlen : (threeLines id event data).length =
      0 + (fieldLine "id" id).length + 2 + (fieldLine "event" event).length + 2 +
        (fieldLine "data" data).length := by
    simp [threeLines, crlf]
    omega
  have hdata : ∃ c t, fieldLine "data" data ++ crlf ++ crlf ++ rest = c :: t ∧ c ≠ '\n' ∧ c ≠ '\r' :=
    ⟨'d', _, rfl, by decide⟩
  have hevent : ∃ c t, fieldLine "event" event ++ '\r' :: '\n' ::
      (fieldLine "data" data ++ crlf ++ crlf ++ rest) = c :: t ∧ c ≠ '\n' ∧ c ≠ '\r' :=
    ⟨'e', _, rfl, by decide⟩
  rw [findSseFrameEnd, htext, frameEndFrom_next h1 hevent, frameEndFrom_next h2 hdata,
    frameEndFrom_last _ _ h3, hlen]

theorem splitLines_three {id event data : List Char} (hi : OneLine id) (he : OneLine event)
    (hd : OneLine data) :
    splitLines (threeLines id event data) =
      [fieldLine "id" id, fieldLine "event" event, fieldLine "data" data] := by
  have htext : threeLines id event data =
      fieldLine "id" id ++ '\r' :: '\n' :: (fieldLine "event" event ++ '\r' :: '\n' ::
        fieldLine "data" data) := by
    simp [threeLines, crlf]
  rw [splitLines, htext, splitLinesGo_line _ _ (oneLine_fieldLine (by decide) hi),
    splitLinesGo_line _ _ (oneLine_fieldLine (by decide) he),
    splitLinesGo_last _ _ (oneLine_fieldLine (by decide) hd)]
  rfl

theorem readLine_field (acc : Fields) (name v : List Char) (hne : name ≠ []) (hc : ':' ∉ name) :
    readLine acc (name ++ ':' :: ' ' :: v) =
      { eventType := if name = "event".toList then v else acc.eventType
        data := if name = "data".toList then acc.data ++ [v] else acc.data } := by
  have htake : (name ++ ':' :: ' ' :: v).takeWhile (· ≠ ':') = name := by
    rw [List.takeWhile_append_of_pos]
    · simp
    · intro c hmem
      simpa using fun h : c = ':' => hc (h ▸ hmem)
  have hdrop : (name ++ ':' :: ' ' :: v).dropWhile (· ≠ ':') = ':' :: ' ' :: v := by
    rw [List.dropWhile_append_of_pos]
    · simp
    · intro c hmem
      simpa using fun h : c = ':' => hc (h ▸ hmem)
  have hskip : ¬ (name ++ ':' :: ' ' :: v = [] ∨ (name ++ ':' :: ' ' :: v).head? = some ':') := by
    cases name with
    | nil => exact absurd rfl hne
    | cons c cs =>
      have : c ≠ ':' := fun h => hc (h ▸ List.mem_cons_self ..)
      simp [this]
  rw [readLine, if_neg hskip, htake, hdrop]
  rfl

theorem readLine_id (acc : Fields) (v : List Char) : readLine acc (fieldLine "id" v) = acc := by
  rw [fieldLine, readLine_field _ _ _ (by decide) (by decide), if_neg (by decide),
    if_neg (by decide)]

theorem readLine_event (acc : Fields) (v : List Char) :
    readLine acc (fieldLine "event" v) = { acc with eventType := v } := by
  rw [fieldLine, readLine_field _ _ _ (by decide) (by decide), if_pos rfl, if_neg (by decide)]

theorem readLine_data (acc : Fields) (v : List Char) :
    readLine acc (fieldLine "data" v) = { acc with data := acc.data ++ [v] } := by
  rw [fieldLine, readLine_field _ _ _ (by decide) (by decide), if_neg (by decide), if_pos rfl]

/-- What the lines of a message amount to. -/
theorem fields_three (id event data : List Char) :
    [fieldLine "id" id, fieldLine "event" event, fieldLine "data" data].foldl readLine {} =
      { eventType := event, data := [data] } := by
  rw [List.foldl_cons, readLine_id, List.foldl_cons, readLine_event, List.foldl_cons, readLine_data]
  rfl

/-- A message whose data is written JSON. -/
theorem dispatch_three {id event : List Char} (v : Json Int) (hi : OneLine id)
    (he : OneLine event) :
    dispatchSseFrame (threeLines id event (Json.dumps v)) =
      if event = "terminal".toList then
        match (v.map Json.Number.int).get "status" with
        | some (.str status) => (some (.terminal status), true)
        | _ => (none, false)
      else if event ≠ "message".toList ∧ event ∉ RUN_EVENT_TYPES.map (·.toList) then (none, false)
      else (some (.event (v.map Json.Number.int)), false) := by
  rw [dispatchSseFrame, splitLines_three hi he (oneLine_dumps v), fields_three]
  have hone : ['\n'].intercalate [Json.dumps v] = Json.dumps v := by simp [List.intercalate]
  rw [dispatchFields, if_neg (List.cons_ne_nil _ _)]
  refine ite_congr rfl (fun _ => ?_) fun _ => ite_congr rfl (fun _ => rfl) fun _ => ?_
  · rw [hone, Json.parse_dumps]
    rfl
  · rw [hone, Json.parse_dumps]
    rfl

theorem dispatch_comment {t : List Char} (h : OneLine t) :
    dispatchSseFrame (':' :: ' ' :: t) = (none, false) := by
  have hs : splitLines (':' :: ' ' :: t) = [':' :: ' ' :: t] := splitLinesGo_last _ _ (oneLine_comment h)
  rw [dispatchSseFrame, hs]
  rfl

/-! ## The events of the nodes -/

/-- A frame the route can send before the terminal one. -/
inductive Sendable (lib : Lib) : Frame → Prop where
  | event {r : RunEvent} (h : Emitted lib r) : Sendable lib (.event r)
  | comment {t : String} (h : OneLine t.toList) : Sendable lib (.comment t)

/-- The payload as the client reads it. -/
def eventCall (r : RunEvent) : Call := .event ((eventPayload r).map Json.Number.int)

def terminalCall (status : RunStatus) : Call := .terminal (Json.units (statusValue status))

variable {lib : Lib} {r : RunEvent}

/-- No name of a node breaks a line or means something else to the client. -/
theorem names_plain : ∀ name ∈ NODE_EVENTS,
    OneLine name.toList ∧ name.toList ≠ "terminal".toList ∧ name.toList ≠ "message".toList := by
  decide

theorem oneLine_toString (n : Nat) : OneLine (toString n).toList := by
  intro c hc
  have hd : c.isDigit = true := Nat.isDigit_of_mem_toDigits (by decide) (by decide)
    (show c ∈ Nat.toDigits 10 n from Nat.toList_repr ▸ hc)
  exact ⟨Json.ne_of_isDigit hd (by decide), Json.ne_of_isDigit hd (by decide)⟩

theorem dispatch_event (h : Emitted lib r) :
    dispatchSseFrame (body (.event r)) =
      (if r.event ∈ RUN_EVENT_TYPES then some (eventCall r) else none, false) := by
  obtain ⟨hline, hterm, hmsg⟩ := names_plain r.event (emitted_named h)
  have hmem : r.event.toList ∈ RUN_EVENT_TYPES.map (·.toList) ↔ r.event ∈ RUN_EVENT_TYPES := by
    rw [List.mem_map]
    constructor
    · rintro ⟨name, hn, he⟩
      rwa [← String.toList_inj.mp he]
    · exact fun hn => ⟨r.event, hn, rfl⟩
  rw [body, dispatch_three _ (oneLine_toString r.seq) hline, if_neg hterm]
  by_cases ht : r.event ∈ RUN_EVENT_TYPES
  · rw [if_neg (fun hc => hc.2 (hmem.mpr ht)), if_pos ht]
    rfl
  · rw [if_pos ⟨hmsg, fun hc => ht (hmem.mp hc)⟩, if_neg ht]

theorem dispatch_terminal (status : RunStatus) :
    dispatchSseFrame (body (.terminal status)) = (some (terminalCall status), true) := by
  have hget : (((terminalPayload status).map Json.Number.int).get "status") =
      some (.str (Json.units (statusValue status))) := by
    have hne : Json.units "terminal" ≠ Json.units "status" := by decide
    simp [terminalPayload, text, Json.map, Json.mapFields, Json.get, hne]
  rw [body, dispatch_three _ (by decide) (by decide), if_pos rfl, hget]
  rfl

theorem cut_message {encode : SseMessage → List Char} (hsse : SseFormat encode) {f : Frame}
    (h : Sendable lib f ∨ ∃ status, f = .terminal status) :
    sseCutter.cut (encode (message f) ++ rest) = some (body f, rest) := by
  have hthree : ∀ id event : List Char, ∀ v : Json Int, OneLine id → OneLine event →
      sseCutter.cut (encode { id := some id, event := some event, data := some (Json.dumps v) } ++
        rest) = some (threeLines id event (Json.dumps v), rest) := by
    intro id event v hi he
    rw [hsse.message id event _ hi he (oneLine_dumps v)]
    exact cut_three hi he (oneLine_dumps v)
  rcases h with h | ⟨status, rfl⟩
  · cases h with
    | event he => exact hthree _ _ _ (oneLine_toString _) (names_plain _ (emitted_named he)).1
    | @comment t ht =>
      have hline : OneLine (':' :: ' ' :: t.toList) := oneLine_comment ht
      rw [message, hsse.comment _ ht]
      refine cut_body ?_
      rw [findSseFrameEnd, frameEndFrom_last _ _ hline, Nat.zero_add]
  · exact hthree _ _ _ (by decide) (by decide)

/-! ## Every stream -/

/-- The handler on one frame before the terminal one. -/
theorem dispatchOn_frame {f : Frame} (h : Sendable lib f) (calls : List Call) :
    dispatchOn calls (body f) =
      (calls ++ (f.row.toList.filter (·.event ∈ RUN_EVENT_TYPES)).map eventCall, false) := by
  cases h with
  | @event r he =>
    rw [dispatchOn, dispatch_event he]
    by_cases ht : r.event ∈ RUN_EVENT_TYPES
    · simp [Frame.row, ht]
    · simp [Frame.row, ht]
  | comment ht =>
    rw [dispatchOn, body, dispatch_comment ht]
    rfl

/-- The calls on the frames, and then on the terminal one. -/
theorem handleAll_frames (status : RunStatus) : ∀ (frames : List Frame) (calls : List Call),
    (∀ f ∈ frames, Sendable lib f) →
      Framing.handleAll dispatchOn calls (frames.map body ++ [body (.terminal status)]) =
        (calls ++ ((frames.filterMap Frame.row).filter (·.event ∈ RUN_EVENT_TYPES)).map eventCall ++
          [terminalCall status], true)
  | [], calls, _ => by
    rw [List.map_nil, List.nil_append, Framing.handleAll, dispatchOn, dispatch_terminal]
    simp
  | f :: frames, calls, h => by
    have hf := dispatchOn_frame (h f (List.mem_cons_self ..)) calls
    have ih := handleAll_frames status frames
      (calls ++ (f.row.toList.filter (·.event ∈ RUN_EVENT_TYPES)).map eventCall)
      fun g hg => h g (List.mem_cons_of_mem _ hg)
    have hrows : (f :: frames).filterMap Frame.row = f.row.toList ++ frames.filterMap Frame.row := by
      cases hr : f.row <;> simp [hr]
    rw [List.map_cons, List.cons_append, Framing.handleAll, hf]
    simp only [ih, hrows, List.filter_append, List.map_append, List.append_assoc]

/-- The calls of the client on a whole stream: the events it knows. -/
theorem consume_stream {encode : SseMessage → List Char} (hsse : SseFormat encode)
    {frames : List Frame} (hf : ∀ f ∈ frames, Sendable lib f) (status : RunStatus)
    {chunks : List (List Char)}
    (hwire : chunks.flatten = (frames ++ [Frame.terminal status]).flatMap fun f => encode (message f)) :
    consumeEventStream chunks =
      ((frames.filterMap Frame.row).filter (·.event ∈ RUN_EVENT_TYPES)).map eventCall ++
        [terminalCall status] := by
  have hcut : ∀ f ∈ frames ++ [Frame.terminal status], ∀ rest,
      sseCutter.cut (encode (message f) ++ rest) = some (body f, rest) := by
    intro f hm rest
    have hkind : Sendable lib f ∨ ∃ status, f = .terminal status := by
      rcases List.mem_append.mp hm with hm | hm
      · exact Or.inl (hf f hm)
      · exact Or.inr ⟨status, List.mem_singleton.mp hm⟩
    exact cut_message hsse hkind
  have hread : chunks.foldl (Framing.feed sseCutter dispatchOn) ⟨[], [], false⟩ = _ :=
    Framing.feed_encoded hcut hwire
  rw [List.map_append, List.map_singleton, handleAll_frames status frames [] hf] at hread
  rw [consumeEventStream, hread]
  simp

/-- **Server and client agree** on the events whose names the client lists. -/
theorem client_agrees_iff (lib : Lib) (encode : SseMessage → List Char) (hsse : SseFormat encode)
    (frames : List Frame) (hf : ∀ f ∈ frames, Sendable lib f) (status : RunStatus)
    (chunks : List (List Char))
    (hwire : chunks.flatten = (frames ++ [Frame.terminal status]).flatMap fun f => encode (message f)) :
    consumeEventStream chunks =
        (frames.filterMap Frame.row).map eventCall ++ [terminalCall status] ↔
      ∀ r ∈ frames.filterMap Frame.row, r.event ∈ RUN_EVENT_TYPES := by
  rw [consume_stream hsse hf status hwire, List.append_left_inj]
  constructor
  · intro h r hr
    have hlen := congrArg List.length h
    rw [List.length_map, List.length_map, List.length_filter_eq_length_iff] at hlen
    simpa using hlen r hr
  · intro h
    rw [List.filter_eq_self.mpr]
    intro r hr
    simpa using h r hr

/-- The documented encoding, on the fields that are set. -/
def plainEncode (m : SseMessage) : List Char :=
  (m.comment.map fun t => ':' :: ' ' :: t ++ crlf).getD [] ++
    (m.id.map fun v => fieldLine "id" v ++ crlf).getD [] ++
    (m.event.map fun v => fieldLine "event" v ++ crlf).getD [] ++
    (m.data.map fun v => fieldLine "data" v ++ crlf).getD [] ++ crlf

theorem plainEncode_format : SseFormat plainEncode where
  message id event data _ _ _ := by simp [plainEncode]
  comment t _ := by simp [plainEncode]

/-- What the demo parser makes of a request. -/
def parsedIntent : SearchIntent where
  topics := ["roads"]
  regions := ["north"]
  confidence := 1
  confidenceRange := SearchIntent.sure
  dateRange := SearchIntent.anyDates
  budgetRange := SearchIntent.anyBudget

/-- The state before a node that reads the parsed intent. -/
def parsedState : RunState where
  searchIntent := some parsedIntent

def parsedRow : RunEvent := ⟨0, "parse_intent", "intent_parsed", "ok", none, []⟩

def planRow : RunEvent := ⟨1, "build_retrieval_plan", "plan_built", "ok", none, []⟩

theorem emitted_parsed : Emitted asciiLib parsedRow :=
  ⟨demoPorts, {}, .parseIntent, _, _, rfl, List.mem_singleton_self _, rfl⟩

theorem emitted_plan : Emitted asciiLib planRow :=
  ⟨demoPorts, parsedState, .buildRetrievalPlan, _, _, rfl, List.mem_singleton_self _, rfl⟩

/-- A stream whose only event is known, in two chunks. -/
def knownFrames : List Frame := [.comment "heartbeat", .event parsedRow]

theorem knownFrames_sendable : ∀ f ∈ knownFrames, Sendable asciiLib f := by
  intro f hf
  simp only [knownFrames, List.mem_cons, List.not_mem_nil, or_false] at hf
  rcases hf with rfl | rfl
  · exact .comment (by decide)
  · exact .event emitted_parsed

def knownWire : List Char :=
  (knownFrames ++ [Frame.terminal .awaitingConfirmation]).flatMap fun f => plainEncode (message f)

theorem client_agrees_known :
    consumeEventStream [knownWire.take 20, knownWire.drop 20] =
        [eventCall parsedRow, terminalCall .awaitingConfirmation] ↔
      ∀ r ∈ knownFrames.filterMap Frame.row, r.event ∈ RUN_EVENT_TYPES :=
  client_agrees_iff asciiLib plainEncode plainEncode_format knownFrames knownFrames_sendable
    .awaitingConfirmation [knownWire.take 20, knownWire.drop 20]
    (by simp [knownWire, List.take_append_drop])

/-- The client drops the event of `build_retrieval_plan`. -/
theorem plan_dropped :
    Sendable asciiLib (.event planRow) ∧
      consumeEventStream [plainEncode (message (.event planRow)) ++
          plainEncode (message (.terminal .completed))] ≠
        [eventCall planRow, terminalCall .completed] := by
  have hs : ∀ f ∈ [Frame.event planRow], Sendable asciiLib f := by
    intro f hf
    rw [List.mem_singleton.mp hf]
    exact .event emitted_plan
  have hcalls : consumeEventStream [plainEncode (message (.event planRow)) ++
      plainEncode (message (.terminal .completed))] = _ :=
    consume_stream plainEncode_format hs .completed (by simp)
  refine ⟨.event emitted_plan, fun h => ?_⟩
  have hlen : ((List.filterMap Frame.row [Frame.event planRow]).filter
      (·.event ∈ RUN_EVENT_TYPES)).length = 0 := by decide
  rw [h] at hcalls
  have := congrArg List.length hcalls
  rw [List.length_append, List.length_map, hlen] at this
  cases this

end BidScope.L10
