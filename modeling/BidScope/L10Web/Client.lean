import BidScope.Core.Framing
import BidScope.Core.Json

/-!
# The web client's event stream

`consumeEventStream` of `web/src/api/client.ts` on the body of a successful
response: chunks are decoded and appended to a buffer, whole frames are cut off
it and dispatched, and a frame without its blank line at the end of the body
is dispatched too. A text is the characters that `TextDecoder` makes of the
bytes; on ASCII, all that the server sends, a chunk's characters are its bytes
and no chunk ends inside one.

`onEvent` and `onTerminal` are recorded as `Call`s. The stream's own errors
(`onError`) and the abort are not part of it.
-/
namespace BidScope.L10

inductive Call where
  | event (payload : Json Json.Number)
  | terminal (status : List UInt16)

/-- mirrors web/src/api/client.ts:281-289 -/
def RUN_EVENT_TYPES : List String :=
  ["intent_parsed", "intent_valid", "intent_invalid", "needs_confirmation", "run_completed",
    "run_failed", "evidence_insufficient"]

/-! ## Frames -/

/-- The end of the first frame, from `index` on. -/
def frameEndFrom : Nat → List Char → Option Nat
  | _, [] => none
  | index, c :: cs =>
    if c = '\n' ∧ cs.head? = some '\n' then some (index + 2)
    else if c = '\r' ∧ cs.take 3 = ['\n', '\r', '\n'] then some (index + 4)
    else frameEndFrom (index + 1) cs

/-- mirrors web/src/api/client.ts:206-214, with `none` for -1 -/
def findSseFrameEnd (buffer : List Char) : Option Nat := frameEndFrom 0 buffer

/-- mirrors web/src/api/client.ts:216-219 -/
def splitSseFrame (buffer : List Char) (frameEnd : Nat) : List Char × List Char :=
  let separatorLength := if 4 ≤ frameEnd ∧ buffer[frameEnd - 4]? = some '\r' then 4 else 2
  (buffer.take (frameEnd - separatorLength), buffer.drop frameEnd)

/-- `line` is the current line in reverse; `cr` says that a carriage return has
just ended one. -/
def splitLinesGo : Bool → List Char → List Char → List (List Char)
  | _, line, [] => [line.reverse]
  | cr, line, c :: cs =>
    if cr = true ∧ c = '\n' then splitLinesGo false [] cs
    else if c = '\n' ∨ c = '\r' then line.reverse :: splitLinesGo (c = '\r') [] cs
    else splitLinesGo false (c :: line) cs

/-- `frame.split(/\r\n|\n|\r/)` -/
def splitLines (frame : List Char) : List (List Char) := splitLinesGo false [] frame

/-- The local variables of `dispatchSseFrame`. -/
structure Fields where
  eventType : List Char := "message".toList
  data : List (List Char) := []
  deriving DecidableEq

/-- `replace(/^ /, "")` -/
def stripSpace : List Char → List Char
  | ' ' :: cs => cs
  | cs => cs

/-- One turn of the loop over the lines. -/
def readLine (acc : Fields) (line : List Char) : Fields :=
  if line = [] ∨ line.head? = some ':' then acc
  else
    let field := line.takeWhile (· ≠ ':')
    let value := stripSpace ((line.dropWhile (· ≠ ':')).drop 1)
    { eventType := if field = "event".toList then value else acc.eventType
      data := if field = "data".toList then acc.data ++ [value] else acc.data }

/-- What becomes of the lines read.
mirrors web/src/api/client.ts:237-256 -/
def dispatchFields (acc : Fields) : Option Call × Bool :=
  if acc.data = [] then (none, false)
  else
    let payload := ['\n'].intercalate acc.data
    if acc.eventType = "terminal".toList then
      match (Json.parse payload).bind (·.get "status") with
      | some (.str status) => (some (.terminal status), true)
      | _ => (none, false)
    else if acc.eventType ≠ "message".toList ∧
        acc.eventType ∉ RUN_EVENT_TYPES.map (·.toList) then (none, false)
    else ((Json.parse payload).map .event, false)

/-- The call made, if any, and whether the caller returns.
mirrors web/src/api/client.ts:222-256 -/
def dispatchSseFrame (frame : List Char) : Option Call × Bool :=
  dispatchFields ((splitLines frame).foldl readLine {})

/-! ## The loop -/

theorem frameEndFrom_le : ∀ {b : List Char} {i e : Nat}, frameEndFrom i b = some e →
    i + 2 ≤ e ∧ e ≤ i + b.length
  | [], _, _, h => by cases h
  | c :: cs, i, e, h => by
    unfold frameEndFrom at h
    split at h
    · rename_i hc
      cases h
      cases cs with
      | nil => cases hc.2
      | cons d ds =>
        simp only [List.length_cons]
        omega
    · split at h
      · rename_i hc
        cases h
        have hlen := congrArg List.length hc.2
        rw [List.length_take, List.length_cons, List.length_cons, List.length_cons,
          List.length_nil] at hlen
        simp only [List.length_cons]
        omega
      · have := frameEndFrom_le h
        simp only [List.length_cons]
        omega

/-- A frame end is found with a text behind the buffer as without: what comes
behind cannot complete a separator that starts earlier. -/
theorem frameEndFrom_append (more : List Char) : ∀ {b : List Char} {i e : Nat},
    frameEndFrom i b = some e → frameEndFrom i (b ++ more) = some e
  | [], _, _, h => by cases h
  | c :: cs, i, e, h => by
    rw [List.cons_append]
    unfold frameEndFrom at h ⊢
    split at h
    · rename_i hc
      cases cs with
      | nil => cases hc.2
      | cons d ds => rwa [if_pos ⟨hc.1, hc.2⟩]
    · rename_i hnl
      have hne : cs ≠ [] := by
        rintro rfl
        simp [frameEndFrom] at h
      rw [if_neg (by
        rintro ⟨h1, h2⟩
        rw [List.head?_append_of_ne_nil _ hne] at h2
        exact hnl ⟨h1, h2⟩)]
      split at h
      · rename_i hc
        have hlen := congrArg List.length hc.2
        rw [List.length_take, List.length_cons, List.length_cons, List.length_cons,
          List.length_nil] at hlen
        rwa [if_pos ⟨hc.1, by rw [List.take_append_of_le_length (by omega)]; exact hc.2⟩]
      · rename_i hcr
        -- a separator reaching into `more` would leave none in the buffer
        have hno : ¬ (c = '\r' ∧ (cs ++ more).take 3 = ['\n', '\r', '\n']) := by
          rintro ⟨h1, h2⟩
          rcases cs with _ | ⟨a, _ | ⟨b, _ | ⟨d, t⟩⟩⟩
          · exact hne rfl
          · have ha : a = '\n' := (List.cons.inj h2).1
            simp [ha, frameEndFrom] at h
          · have ha : a = '\n' := (List.cons.inj h2).1
            have hb : b = '\r' := (List.cons.inj (List.cons.inj h2).2).1
            simp [ha, hb, frameEndFrom] at h
          · exact hcr ⟨h1, h2⟩
        rw [if_neg hno]
        exact frameEndFrom_append more h

theorem splitSseFrame_append {b : List Char} {e : Nat} (more : List Char) (he : 2 ≤ e ∧ e ≤ b.length) :
    splitSseFrame (b ++ more) e = ((splitSseFrame b e).1, (splitSseFrame b e).2 ++ more) := by
  have hget : 4 ≤ e → (b ++ more)[e - 4]? = b[e - 4]? := fun _ =>
    List.getElem?_append_left (by omega)
  have hsep : (4 ≤ e ∧ (b ++ more)[e - 4]? = some '\r') ↔ (4 ≤ e ∧ b[e - 4]? = some '\r') :=
    and_congr_right fun h4 => by rw [hget h4]
  simp only [splitSseFrame, hsep]
  rw [List.take_append_of_le_length (by omega), List.drop_append_of_le_length he.2]

/-- `findSseFrameEnd` and `splitSseFrame` as the loop uses them. -/
def sseCutter : Framing.Cutter Char where
  cut buffer := (findSseFrameEnd buffer).map (splitSseFrame buffer)
  shorter h := by
    obtain ⟨e, he, hs⟩ := Option.map_eq_some_iff.mp h
    have := frameEndFrom_le he
    cases hs
    rw [List.length_drop]
    omega
  stable c h := by
    obtain ⟨e, he, hs⟩ := Option.map_eq_some_iff.mp h
    have hle := frameEndFrom_le he
    have hfind : findSseFrameEnd (_ ++ c) = some e := frameEndFrom_append c he
    rw [hfind, Option.map_some, splitSseFrame_append c ⟨by omega, by omega⟩, hs]

/-- The frame is dispatched behind the calls already made. -/
def dispatchOn (calls : List Call) (frame : List Char) : List Call × Bool :=
  (calls ++ (dispatchSseFrame frame).1.toList, (dispatchSseFrame frame).2)

/-- White space and line terminators of JavaScript. -/
def jsSpace (c : Char) : Bool :=
  (9 ≤ c.toNat && c.toNat ≤ 13) || c.toNat == 0x20 || c.toNat == 0xA0 || c.toNat == 0x1680 ||
    (0x2000 ≤ c.toNat && c.toNat ≤ 0x200A) || c.toNat == 0x2028 || c.toNat == 0x2029 ||
    c.toNat == 0x202F || c.toNat == 0x205F || c.toNat == 0x3000 || c.toNat == 0xFEFF

/-- The calls made on a body that arrives in `chunks`.
mirrors web/src/api/client.ts:154-204 -/
def consumeEventStream (chunks : List (List Char)) : List Call :=
  let reader := chunks.foldl (Framing.feed sseCutter dispatchOn) ⟨[], [], false⟩
  if reader.stopped then reader.state
  else if reader.buffer.all jsSpace then reader.state
  else (dispatchOn reader.state reader.buffer).1

end BidScope.L10
