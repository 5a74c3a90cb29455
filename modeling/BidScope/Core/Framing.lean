import Mathlib.Data.List.Basic

/-!
# Reading frames off a stream

A reader appends every chunk that arrives to its buffer and hands the whole
frames at its front to a handler, which may stop it. A stopped reader drops
its buffer.

* `feed_append`, `foldl_feed`: how a stream is cut into chunks does not
  matter, if a frame once complete stays what it is (`Cutter.stable`).
* `feed_encoded`: on an encoding that the cutter undoes the handler sees the
  frames, one by one, until it stops.
-/
namespace Framing

/-- `cut` takes the first frame off a buffer that holds a whole one. -/
structure Cutter (α : Type) where
  cut : List α → Option (List α × List α)
  shorter : ∀ {b f rest}, cut b = some (f, rest) → rest.length < b.length
  stable : ∀ {b f rest} (c : List α), cut b = some (f, rest) → cut (b ++ c) = some (f, rest ++ c)

structure Reader (α σ : Type) where
  buffer : List α
  state : σ
  stopped : Bool

variable {α β σ : Type} (C : Cutter α) (handle : σ → List α → σ × Bool)

/-- Every frame takes one unit of fuel; the length of the buffer is enough. -/
def drain : Nat → σ → List α → Reader α σ
  | 0, s, b => ⟨b, s, false⟩
  | n + 1, s, b =>
    match C.cut b with
    | none => ⟨b, s, false⟩
    | some (f, rest) =>
      match handle s f with
      | (s', true) => ⟨[], s', true⟩
      | (s', false) => drain n s' rest

def feed (r : Reader α σ) (chunk : List α) : Reader α σ :=
  if r.stopped then r else drain C handle (r.buffer ++ chunk).length r.state (r.buffer ++ chunk)

/-- The handler on a list of frames, until it stops. -/
def handleAll : σ → List (List α) → σ × Bool
  | s, [] => (s, false)
  | s, f :: fs =>
    match handle s f with
    | (s', true) => (s', true)
    | (s', false) => handleAll s' fs

variable {C handle} {s : σ} {b c : List α} {n m : Nat}

theorem cut_nil : C.cut [] = none := by
  cases h : C.cut [] with
  | none => rfl
  | some p => exact absurd (C.shorter h) (Nat.not_lt_zero _)

theorem drain_fuel : ∀ (n m : Nat) (s : σ) (b : List α), b.length ≤ n → b.length ≤ m →
    drain C handle n s b = drain C handle m s b
  | 0, m, s, b, hn, _ => by
    have hb : b = [] := List.length_eq_zero_iff.mp (Nat.le_zero.mp hn)
    subst hb
    cases m with
    | zero => rfl
    | succ m => rw [drain, drain, cut_nil]
  | n + 1, 0, s, b, _, hm => by
    have hb : b = [] := List.length_eq_zero_iff.mp (Nat.le_zero.mp hm)
    subst hb
    have hd : drain C handle (n + 1) s [] = ⟨[], s, false⟩ := by rw [drain, cut_nil]
    rw [hd, drain]
  | n + 1, m + 1, s, b, hn, hm => by
    rw [drain, drain]
    cases hc : C.cut b with
    | none => rfl
    | some p =>
      obtain ⟨f, rest⟩ := p
      have hlt := C.shorter hc
      rcases hs : handle s f with ⟨s', _ | _⟩
      · simp only [hs]
        exact drain_fuel n m s' rest (by omega) (by omega)
      · simp only [hs]

/-- More input behind a buffer: what was drained stays drained. -/
theorem drain_append : ∀ (n m : Nat) (s : σ) (b : List α), b.length ≤ n →
    (b ++ c).length ≤ m → drain C handle m s (b ++ c) = feed C handle (drain C handle n s b) c
  | 0, m, s, b, hn, hm => by
    rw [drain, feed, if_neg Bool.false_ne_true]
    exact drain_fuel _ _ _ _ hm (Nat.le_refl _)
  | n + 1, m, s, b, hn, hm => by
    cases hc : C.cut b with
    | none =>
      have hd : drain C handle (n + 1) s b = ⟨b, s, false⟩ := by rw [drain, hc]
      rw [hd, feed, if_neg Bool.false_ne_true]
      exact drain_fuel _ _ _ _ hm (Nat.le_refl _)
    | some p =>
      obtain ⟨f, rest⟩ := p
      have hlt := C.shorter hc
      have hstable := C.stable c hc
      rw [List.length_append] at hm
      cases m with
      | zero => omega
      | succ m =>
        rcases hs : handle s f with ⟨s', _ | _⟩
        · have hd : drain C handle (n + 1) s b = drain C handle n s' rest := by
            rw [drain, hc]
            simp only [hs]
          rw [hd, drain, hstable]
          simp only [hs]
          exact drain_append n m s' rest (by omega) (by rw [List.length_append]; omega)
        · have hd : drain C handle (n + 1) s b = ⟨[], s', true⟩ := by
            rw [drain, hc]
            simp only [hs]
          rw [hd, feed, if_pos rfl, drain, hstable]
          simp only [hs]

theorem feed_append (r : Reader α σ) (a b : List α) :
    feed C handle (feed C handle r a) b = feed C handle r (a ++ b) := by
  cases hr : r.stopped with
  | true => simp only [feed, hr, if_true]
  | false =>
    have h1 : feed C handle r a = drain C handle (r.buffer ++ a).length r.state (r.buffer ++ a) := by
      rw [feed, hr, if_neg Bool.false_ne_true]
    have h2 : feed C handle r (a ++ b) =
        drain C handle (r.buffer ++ a ++ b).length r.state (r.buffer ++ a ++ b) := by
      rw [feed, hr, if_neg Bool.false_ne_true, List.append_assoc]
    rw [h1, h2]
    exact (drain_append _ _ _ _ (Nat.le_refl _) (Nat.le_refl _)).symm

/-- Chunks are as good as one, from a reader that has drained its buffer. -/
theorem foldl_feed : ∀ (chunks : List (List α)) (r : Reader α σ), feed C handle r [] = r →
    chunks.foldl (feed C handle) r = feed C handle r chunks.flatten
  | [], r, h => h.symm
  | chunk :: chunks, r, _ => by
    have hdrained : feed C handle (feed C handle r chunk) [] = feed C handle r chunk := by
      rw [feed_append, List.append_nil]
    rw [List.foldl_cons, foldl_feed chunks _ hdrained, feed_append, List.flatten_cons]

theorem drain_encoded {enc body : β → List α} : ∀ (xs : List β) (n : Nat) (s : σ),
    (∀ x ∈ xs, ∀ rest, C.cut (enc x ++ rest) = some (body x, rest)) →
      (xs.flatMap enc).length ≤ n →
        drain C handle n s (xs.flatMap enc) =
          ⟨[], (handleAll handle s (xs.map body)).1, (handleAll handle s (xs.map body)).2⟩
  | [], n, s, _, _ => by
    cases n with
    | zero => rfl
    | succ n =>
      rw [List.flatMap_nil, drain, cut_nil]
      rfl
  | x :: xs, n, s, hcut, hn => by
    have hx := hcut x (List.mem_cons_self ..) (xs.flatMap enc)
    have hlt := C.shorter hx
    rw [List.flatMap_cons] at hn ⊢
    cases n with
    | zero => omega
    | succ n =>
      rw [drain, hx, List.map_cons, handleAll]
      rcases hs : handle s (body x) with ⟨s', _ | _⟩
      · simp only [hs]
        exact drain_encoded xs n s' (fun y hy => hcut y (List.mem_cons_of_mem _ hy)) (by omega)
      · simp only [hs]

/-- A stream of encoded frames in any chunks: the handler sees the frames. -/
theorem feed_encoded {enc body : β → List α} {xs : List β} {chunks : List (List α)}
    (hcut : ∀ x ∈ xs, ∀ rest, C.cut (enc x ++ rest) = some (body x, rest))
    (hwire : chunks.flatten = xs.flatMap enc) :
    chunks.foldl (feed C handle) ⟨[], s, false⟩ =
      ⟨[], (handleAll handle s (xs.map body)).1, (handleAll handle s (xs.map body)).2⟩ := by
  rw [foldl_feed chunks _ rfl, hwire, feed, if_neg Bool.false_ne_true, List.nil_append]
  exact drain_encoded xs _ s hcut (Nat.le_refl _)

end Framing
