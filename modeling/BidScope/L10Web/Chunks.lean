import BidScope.Core.Canonical
import BidScope.L10Web.Agreement

/-!
# The client does not see the chunks

`consumeEventStream` of `web/src/api/client.ts` on the bytes of a response: the
decoder of the browser is a parameter, correct on the text of the stream
(`TextDecoder.Correct`), and an `SseFrame` is any list of lines, each ended by
LF or CRLF, with the blank line that ends the frame ended as its last line.

**Chunking (`chunking_irrelevant`).** The calls depend on the bytes and not on
how they are cut into chunks, and on a stream of frames they are those of the
frames, each once and in order, up to the first terminal one.

* `cut_frame`: what is cut off the buffer is the next frame, whatever is behind
  it.
* `splitLines_body`: the lines of a frame are the lines it was written from.
-/
namespace BidScope.L10

variable {rest : List Char} {i : Nat}

/-! ## Frames of lines -/

inductive LineEnd where
  | lf
  | crlf
  deriving DecidableEq

def LineEnd.text : LineEnd → List Char
  | .lf => ['\n']
  | .crlf => L10.crlf

/-- A line that is not blank, and how it ends. -/
structure Line where
  text : List Char
  ending : LineEnd
  nonempty : text ≠ []
  oneLine : OneLine text

/-- A frame: its lines before the last, and the last one, whose end the blank
line repeats. -/
structure SseFrame where
  init : List Line
  last : Line

def Line.encode (l : Line) : List Char := l.text ++ l.ending.text

/-- A frame without its two last line ends. -/
def SseFrame.body (f : SseFrame) : List Char := f.init.flatMap Line.encode ++ f.last.text

def SseFrame.encode (f : SseFrame) : List Char :=
  f.body ++ f.last.ending.text ++ f.last.ending.text

def SseFrame.lines (f : SseFrame) : List (List Char) := (f.init ++ [f.last]).map Line.text

/-! ## Cutting a frame off -/

/-- No frame ends at the characters of a line. -/
theorem frameEndFrom_skip : ∀ (l : List Char) (i : Nat), OneLine l →
    frameEndFrom i (l ++ rest) = frameEndFrom (i + l.length) rest
  | [], i, _ => rfl
  | d :: l, i, h => by
    have hd := h d (List.mem_cons_self ..)
    rw [List.cons_append, frameEndFrom, if_neg (by simp [hd.1]), if_neg (by simp [hd.2]),
      frameEndFrom_skip l (i + 1) h.tail, List.length_cons]
    congr 1
    omega

/-- Nor at a line end before another line. -/
theorem frameEndFrom_between (e : LineEnd) {c : Char} (hc : c ≠ '\n' ∧ c ≠ '\r') :
    frameEndFrom i (e.text ++ c :: rest) = frameEndFrom (i + e.text.length) (c :: rest) := by
  cases e with
  | lf => simp [LineEnd.text, frameEndFrom, hc.1]
  | crlf => simp [LineEnd.text, crlf, frameEndFrom, hc.1, hc.2]

theorem frameEndFrom_blank (e : LineEnd) :
    frameEndFrom i (e.text ++ e.text ++ rest) = some (i + e.text.length + e.text.length) := by
  cases e <;> simp [LineEnd.text, crlf, frameEndFrom]

/-- What follows a line starts with a character of a line. -/
theorem lines_head : ∀ (ls : List Line) (l : Line), ∃ c t,
    ls.flatMap Line.encode ++ (l.text ++ rest) = c :: t ∧ c ≠ '\n' ∧ c ≠ '\r'
  | [], l => by
    obtain ⟨c, cs, h⟩ := List.exists_cons_of_ne_nil l.nonempty
    exact ⟨c, cs ++ rest, by rw [h]; rfl, l.oneLine c (by rw [h]; exact List.mem_cons_self ..)⟩
  | l' :: ls, l => by
    obtain ⟨c, cs, h⟩ := List.exists_cons_of_ne_nil l'.nonempty
    refine ⟨c, cs ++ l'.ending.text ++ ls.flatMap Line.encode ++ (l.text ++ rest), ?_,
      l'.oneLine c (by rw [h]; exact List.mem_cons_self ..)⟩
    simp [Line.encode, h]

theorem frameEndFrom_lines : ∀ (ls : List Line) (l : Line) (i : Nat),
    frameEndFrom i (ls.flatMap Line.encode ++ (l.text ++ rest)) =
      frameEndFrom (i + (ls.flatMap Line.encode).length + l.text.length) rest
  | [], l, i => by
    rw [List.flatMap_nil, List.nil_append, frameEndFrom_skip _ _ l.oneLine]
    rfl
  | l' :: ls, l, i => by
    obtain ⟨c, t, hnext, hc⟩ := @lines_head rest ls l
    rw [List.flatMap_cons, Line.encode, List.append_assoc, List.append_assoc,
      frameEndFrom_skip _ _ l'.oneLine, hnext, frameEndFrom_between _ hc, ← hnext,
      frameEndFrom_lines ls l]
    congr 1
    simp only [List.length_append]
    omega

theorem frameEnd_frame (f : SseFrame) :
    findSseFrameEnd (f.encode ++ rest) =
      some (f.body.length + f.last.ending.text.length + f.last.ending.text.length) := by
  have htext : f.encode ++ rest = f.init.flatMap Line.encode ++
      (f.last.text ++ (f.last.ending.text ++ f.last.ending.text ++ rest)) := by
    simp [SseFrame.encode, SseFrame.body]
  rw [findSseFrameEnd, htext, frameEndFrom_lines, frameEndFrom_blank]
  simp [SseFrame.body, Nat.add_assoc]

theorem snoc_of_ne_nil {l : List Char} (h : l ≠ []) : ∃ t c, l = t ++ [c] :=
  ⟨l.dropLast, l.getLast h, (List.dropLast_append_getLast h).symm⟩

/-- Lines before the last end in LF. -/
theorem lines_tail (ls : List Line) :
    ls = [] ∨ ∃ t, ls.flatMap Line.encode = t ++ ['\n'] := by
  rcases eq_or_ne ls [] with h | h
  · exact Or.inl h
  · refine Or.inr ?_
    rw [← List.dropLast_append_getLast h, List.flatMap_append, List.flatMap_singleton, Line.encode]
    cases (ls.getLast h).ending with
    | lf => exact ⟨_, (List.append_assoc ..).symm⟩
    | crlf =>
      refine ⟨ls.dropLast.flatMap Line.encode ++ ((ls.getLast h).text ++ ['\r']), ?_⟩
      simp [LineEnd.text, crlf]

/-- The character before the last one of a frame is no carriage return: the
last line holds none, and a line before it ends in LF. -/
theorem body_tail (f : SseFrame) :
    f.body.length = 1 ∨ ∃ p b c, f.body = p ++ [b, c] ∧ b ≠ '\r' := by
  obtain ⟨t, c, ht⟩ := snoc_of_ne_nil f.last.nonempty
  rcases eq_or_ne t [] with rfl | hne
  · rcases lines_tail f.init with hinit | ⟨u, hu⟩
    · exact Or.inl (by rw [SseFrame.body, hinit, ht]; rfl)
    · exact Or.inr ⟨u, '\n', c, by rw [SseFrame.body, hu, ht]; simp, by decide⟩
  · obtain ⟨u, b, hu⟩ := snoc_of_ne_nil hne
    refine Or.inr ⟨f.init.flatMap Line.encode ++ u, b, c, by rw [SseFrame.body, ht, hu]; simp, ?_⟩
    exact (f.last.oneLine b (by rw [ht, hu]; simp)).2

/-- What is cut off the buffer is the next frame. -/
theorem cut_frame (f : SseFrame) (rest : List Char) :
    sseCutter.cut (f.encode ++ rest) = some (f.body, rest) := by
  have hfind := @frameEnd_frame rest f
  have hcut : sseCutter.cut (f.encode ++ rest) =
      (findSseFrameEnd (f.encode ++ rest)).map (splitSseFrame (f.encode ++ rest)) := rfl
  cases he : f.last.ending with
  | crlf =>
    rw [SseFrame.encode, he] at hfind ⊢
    exact cut_body (by simpa [LineEnd.text, crlf] using hfind)
  | lf =>
    have htext : f.encode ++ rest = f.body ++ ('\n' :: '\n' :: rest) := by
      rw [SseFrame.encode, he]
      simp [LineEnd.text]
    have hlen : f.body.length + f.last.ending.text.length + f.last.ending.text.length =
        f.body.length + 2 := by rw [he]; rfl
    have hsep : ¬ (4 ≤ f.body.length + 2 ∧
        (f.body ++ ('\n' :: '\n' :: rest))[f.body.length + 2 - 4]? = some '\r') := by
      rintro ⟨h4, hget⟩
      rcases body_tail f with h1 | ⟨p, b, c, hb, hne⟩
      · omega
      · rw [hb] at hget
        simp at hget
        exact hne hget
    rw [hcut, hfind, hlen, Option.map_some, htext, splitSseFrame, if_neg hsep]
    simp

/-! ## Its lines -/

theorem splitLinesGo_lf : ∀ (l line : List Char), OneLine l →
    splitLinesGo false line (l ++ '\n' :: rest) = (line.reverse ++ l) :: splitLinesGo false [] rest
  | [], line, _ => by
    rw [List.nil_append, List.append_nil, splitLinesGo, if_neg (by simp), if_pos (Or.inl rfl)]
    rfl
  | c :: l, line, h => by
    have hc := h c (List.mem_cons_self ..)
    rw [List.cons_append, splitLinesGo, if_neg (by simp), if_neg (by simp [hc.1, hc.2]),
      splitLinesGo_lf l (c :: line) h.tail]
    simp

theorem splitLines_lines : ∀ (ls : List Line) (l : Line),
    splitLinesGo false [] (ls.flatMap Line.encode ++ l.text) = (ls ++ [l]).map Line.text
  | [], l => splitLinesGo_last l.text [] l.oneLine
  | l' :: ls, l => by
    have ih := splitLines_lines ls l
    rw [List.flatMap_cons, Line.encode, List.append_assoc, List.append_assoc, List.cons_append,
      List.map_cons, ← ih]
    cases l'.ending with
    | lf => exact splitLinesGo_lf l'.text [] l'.oneLine
    | crlf => exact splitLinesGo_line l'.text [] l'.oneLine

theorem splitLines_body (f : SseFrame) : splitLines f.body = f.lines := splitLines_lines f.init f.last

/-! ## The calls -/

/-- The call for a frame by its lines, and whether it is the last. -/
def SseFrame.dispatch (f : SseFrame) : Option Call × Bool := dispatchFields (f.lines.foldl readLine {})

/-- The calls for frames one by one, up to the first terminal one. -/
def callsOf : List SseFrame → List Call
  | [] => []
  | f :: fs => f.dispatch.1.toList ++ if f.dispatch.2 then [] else callsOf fs

theorem dispatch_body (f : SseFrame) : dispatchSseFrame f.body = f.dispatch := by
  rw [SseFrame.dispatch, ← splitLines_body]
  rfl

theorem handleAll_bodies : ∀ (frames : List SseFrame) (calls : List Call),
    (Framing.handleAll dispatchOn calls (frames.map SseFrame.body)).1 = calls ++ callsOf frames
  | [], calls => by
    rw [callsOf, List.append_nil]
    rfl
  | f :: frames, calls => by
    rw [List.map_cons, Framing.handleAll, dispatchOn, dispatch_body, callsOf]
    cases f.dispatch.2 with
    | true => simp
    | false => simp [handleAll_bodies frames]

/-! ## Bytes -/

/-- `TextDecoder` in its streaming use. -/
structure TextDecoder where
  State : Type
  start : State
  decode : State → List UInt8 → State × List Char
  flush : State → List Char

/-- The texts of the chunks, and the state behind them. -/
def TextDecoder.texts (decoder : TextDecoder) :
    decoder.State → List (List UInt8) → List (List Char) × decoder.State
  | s, [] => ([], s)
  | s, chunk :: chunks =>
    ((decoder.decode s chunk).2 :: (decoder.texts (decoder.decode s chunk).1 chunks).1,
      (decoder.texts (decoder.decode s chunk).1 chunks).2)

/-- A decoder drops a byte order mark. -/
def stripMark : List Char → List Char
  | '\uFEFF' :: t => t
  | t => t

/-- However the bytes of the text are cut, the decoder gives the text, and keeps
nothing back. -/
def TextDecoder.Correct (decoder : TextDecoder) (text : List Char) : Prop :=
  ∀ chunks, chunks.flatten = Json.utf8 text →
    (decoder.texts decoder.start chunks).1.flatten = stripMark text ∧
      decoder.flush (decoder.texts decoder.start chunks).2 = []

/-- The calls made on a body that arrives in `chunks` of bytes.
mirrors web/src/api/client.ts:179-201 -/
def consumeBytes (decoder : TextDecoder) (chunks : List (List UInt8)) : List Call :=
  let decoded := decoder.texts decoder.start chunks
  let reader := decoded.1.foldl (Framing.feed sseCutter dispatchOn) ⟨[], [], false⟩
  if reader.stopped then reader.state
  else
    let buffer := reader.buffer ++ decoder.flush decoded.2
    if buffer.all jsSpace then reader.state
    else (dispatchOn reader.state buffer).1

variable {decoder : TextDecoder} {text : List Char} {chunks : List (List UInt8)}

/-- A correct decoder leaves the texts of the chunks, whatever they are. -/
theorem consumeBytes_eq (hdec : decoder.Correct text) (hwire : chunks.flatten = Json.utf8 text) :
    consumeBytes decoder chunks = consumeEventStream [stripMark text] := by
  obtain ⟨htext, hflush⟩ := hdec chunks hwire
  have hread : (decoder.texts decoder.start chunks).1.foldl (Framing.feed sseCutter dispatchOn)
      ⟨[], [], false⟩ = [stripMark text].foldl (Framing.feed sseCutter dispatchOn) ⟨[], [], false⟩ := by
    rw [Framing.foldl_feed _ _ rfl, htext]
    rfl
  rw [consumeBytes, consumeEventStream]
  simp only [hread, hflush, List.append_nil]

theorem consume_frames (frames : List SseFrame) :
    consumeEventStream [frames.flatMap SseFrame.encode] = callsOf frames := by
  have hread : [frames.flatMap SseFrame.encode].foldl (Framing.feed sseCutter dispatchOn)
      ⟨[], [], false⟩ = _ :=
    Framing.feed_encoded (fun f (_ : f ∈ frames) rest => cut_frame f rest) List.flatten_singleton
  rw [consumeEventStream, hread]
  simp [handleAll_bodies]

/-- **Chunking does not matter**, and frames are dispatched one by one. -/
theorem chunking_irrelevant (decoder : TextDecoder) (text : List Char)
    (hdec : decoder.Correct text) (chunks : List (List UInt8))
    (hwire : chunks.flatten = Json.utf8 text) :
    consumeBytes decoder chunks = consumeBytes decoder [chunks.flatten] ∧
      ∀ frames : List SseFrame, stripMark text = frames.flatMap SseFrame.encode →
        consumeBytes decoder chunks = callsOf frames := by
  have huncut : [chunks.flatten].flatten = Json.utf8 text := by
    rw [List.flatten_singleton, hwire]
  refine ⟨by rw [consumeBytes_eq hdec hwire, consumeBytes_eq hdec huncut], fun frames hframes => ?_⟩
  rw [consumeBytes_eq hdec hwire, hframes, consume_frames]

/-- The decoder on ASCII: a byte is a character. -/
def asciiDecoder : TextDecoder where
  State := Unit
  start := ()
  decode _ bytes := ((), bytes.map fun b => Char.ofNat b.toNat)
  flush _ := []

theorem asciiDecoder_texts : ∀ chunks : List (List UInt8),
    (asciiDecoder.texts () chunks).1.flatten = chunks.flatten.map fun b => Char.ofNat b.toNat
  | [] => rfl
  | chunk :: chunks => by
    have hstep : asciiDecoder.texts () (chunk :: chunks) =
        ((asciiDecoder.decode () chunk).2 :: (asciiDecoder.texts () chunks).1,
          (asciiDecoder.texts () chunks).2) := rfl
    rw [hstep, List.flatten_cons, List.flatten_cons, List.map_append, asciiDecoder_texts chunks]
    rfl

def dataLine : Line := ⟨"data: {}".toList, .lf, by decide, by decide⟩

def terminalLine : Line := ⟨"event: terminal".toList, .crlf, by decide, by decide⟩

def statusLine : Line :=
  ⟨"data: \x7b\"status\": \"completed\"\x7d".toList, .crlf, by decide, by decide⟩

/-- A message with LF and a terminal one with CRLF. -/
def mixedFrames : List SseFrame := [⟨[], dataLine⟩, ⟨[terminalLine], statusLine⟩]

def mixedText : List Char := mixedFrames.flatMap SseFrame.encode

theorem asciiDecoder_correct : asciiDecoder.Correct mixedText := by
  intro chunks hwire
  refine ⟨?_, rfl⟩
  have h : (asciiDecoder.texts () chunks).1.flatten = stripMark mixedText := by
    rw [asciiDecoder_texts, hwire]
    decide
  exact h

/-- The cut lies between the two line feeds of the first frame. -/
theorem chunking_mixed :
    consumeBytes asciiDecoder [(Json.utf8 mixedText).take 9, (Json.utf8 mixedText).drop 9] =
        consumeBytes asciiDecoder
          [[(Json.utf8 mixedText).take 9, (Json.utf8 mixedText).drop 9].flatten] ∧
      ∀ frames : List SseFrame, stripMark mixedText = frames.flatMap SseFrame.encode →
        consumeBytes asciiDecoder [(Json.utf8 mixedText).take 9, (Json.utf8 mixedText).drop 9] =
          callsOf frames :=
  chunking_irrelevant asciiDecoder mixedText asciiDecoder_correct
    [(Json.utf8 mixedText).take 9, (Json.utf8 mixedText).drop 9] (by simp)

end BidScope.L10
