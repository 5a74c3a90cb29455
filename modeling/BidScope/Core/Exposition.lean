import BidScope.Core.Text
import Mathlib.Data.List.TakeDrop

/-!
# The text exposition format

Lines of samples as a metrics scraper reads them: a name, labels with quoted
values, a value. Other lines begin with a hash sign.

* `quoted_escape`: a quoted value is read back, whatever is in it.
* `readLine_write`: so is a line (`Sample.Plain`: no delimiter in its words).
* `read_write`: and a text of lines.
-/
namespace Exposition

structure Sample where
  name : List Char
  labels : List (List Char × List Char)
  value : List Char
  deriving DecidableEq

inductive Line where
  | comment (text : List Char)
  | sample (s : Sample)

/-! ## Writing -/

def escapeChar (c : Char) : List Char :=
  if c = '\\' then ['\\', '\\'] else if c = '"' then ['\\', '"'] else if c = '\n' then ['\\', 'n'] else [c]

def escape (value : List Char) : List Char := value.flatMap escapeChar

def writePair (label : List Char × List Char) : List Char := label.1 ++ '=' :: '"' :: (escape label.2 ++ ['"'])

def writeLabels (labels : List (List Char × List Char)) : List Char :=
  if labels = [] then [] else '{' :: (Text.join [','] (labels.map writePair) ++ ['}'])

def Sample.write (s : Sample) : List Char := s.name ++ writeLabels s.labels ++ ' ' :: s.value

def Line.write : Line → List Char
  | comment text => '#' :: text
  | sample s => s.write

def write (lines : List Line) : List Char := Text.join ['\n'] (lines.map Line.write) ++ ['\n']

/-! ## Reading -/

/-- Up to the closing quote. -/
def quoted : List Char → Option (List Char × List Char)
  | [] => none
  | '"' :: rest => some ([], rest)
  | ['\\'] => none
  | '\\' :: e :: rest => (quoted rest).map fun vr => ((if e = 'n' then '\n' else e) :: vr.1, vr.2)
  | c :: rest => (quoted rest).map fun vr => (c :: vr.1, vr.2)

def readPair (text : List Char) : Option ((List Char × List Char) × List Char) :=
  match text.span (· != '=') with
  | (name, '=' :: '"' :: rest) => (quoted rest).map fun vr => ((name, vr.1), vr.2)
  | _ => none

/-- One pair at least; the fuel is the length of the text. -/
def readPairs : Nat → List Char → Option (List (List Char × List Char) × List Char)
  | 0, _ => none
  | fuel + 1, text =>
    match readPair text with
    | some (label, ',' :: rest) => (readPairs fuel rest).map fun pr => (label :: pr.1, pr.2)
    | some (label, '}' :: rest) => some ([label], rest)
    | _ => none

def readLine (line : List Char) : Option Sample :=
  match line.span (fun c => c != '{' && c != ' ') with
  | (name, '{' :: rest) =>
    match readPairs rest.length rest with
    | some (labels, ' ' :: value) => some ⟨name, labels, value⟩
    | _ => none
  | (name, ' ' :: value) => some ⟨name, [], value⟩
  | _ => none

def readLines : List (List Char) → Option (List Sample)
  | [] => some []
  | line :: rest =>
    if line = [] ∨ line.head? = some '#' then readLines rest
    else (readLine line).bind fun s => (readLines rest).map (s :: ·)

def read (text : List Char) : Option (List Sample) := readLines (text.splitOn '\n')

/-! ## What is written is read -/

variable {value rest name : List Char} {label : List Char × List Char} {labels : List (List Char × List Char)}
  {s : Sample} {lines : List Line}

theorem span_append {p : Char → Bool} {c : Char} (hname : ∀ x ∈ name, p x = true) (hc : p c = false) :
    (name ++ c :: rest).span p = (name, c :: rest) := by
  rw [List.span_eq_takeWhile_dropWhile, List.takeWhile_append_of_pos hname, List.dropWhile_append_of_pos hname]
  simp [hc]

theorem quoted_escape : quoted (escape value ++ '"' :: rest) = some (value, rest) := by
  induction value with
  | nil => rfl
  | cons c value ih =>
    unfold escape at ih ⊢
    rw [List.flatMap_cons, List.append_assoc]
    by_cases hback : c = '\\'
    · subst hback
      simp [escapeChar, quoted, ih]
    · by_cases hquote : c = '"'
      · subst hquote
        simp [escapeChar, quoted, ih]
      · by_cases hline : c = '\n'
        · subst hline
          simp [escapeChar, quoted, ih]
        · simp [escapeChar, hback, hquote, hline, quoted, ih]

theorem readPair_write (hname : '=' ∉ label.1) : readPair (writePair label ++ rest) = some (label, rest) := by
  have hpass : ∀ x ∈ label.1, (x != '=') = true := fun x hx => by
    rw [bne_iff_ne]
    exact fun heq => hname (heq ▸ hx)
  have htext : writePair label ++ rest = label.1 ++ '=' :: ('"' :: (escape label.2 ++ '"' :: rest)) := by
    simp [writePair]
  rw [readPair, htext, span_append hpass (by decide)]
  simp [quoted_escape]

theorem length_writePair : 1 ≤ (writePair label).length := by
  simp only [writePair, List.length_append, List.length_cons]
  omega

theorem readPairs_write {fuel : Nat} : ∀ {labels : List (List Char × List Char)}, labels ≠ [] →
    (∀ label ∈ labels, '=' ∉ label.1) → labels.length ≤ fuel →
    readPairs fuel (Text.join [','] (labels.map writePair) ++ '}' :: rest) = some (labels, rest) := by
  induction fuel with
  | zero =>
    intro labels hne _ hlen
    exact absurd (List.length_eq_zero_iff.mp (Nat.le_zero.mp hlen)) hne
  | succ fuel ih =>
    intro labels hne hnames hlen
    match labels with
    | [] => exact absurd rfl hne
    | [label] =>
      simp [Text.join, readPairs, readPair_write (hnames label (List.mem_singleton_self _))]
    | label :: next :: labels =>
      have hrest := ih (List.cons_ne_nil next labels)
        (fun l hl => hnames l (List.mem_cons_of_mem _ hl)) (Nat.le_of_succ_le_succ hlen)
      have htext : Text.join [','] ((label :: next :: labels).map writePair) ++ '}' :: rest =
          writePair label ++ ',' :: (Text.join [','] ((next :: labels).map writePair) ++ '}' :: rest) := by
        simp [Text.join]
      rw [htext, readPairs, readPair_write (hnames label (List.mem_cons_self ..))]
      simp only [hrest, Option.map_some]

/-- No delimiter stands in the words of the sample. -/
structure Sample.Plain (s : Sample) : Prop where
  named : s.name ≠ []
  name : ∀ c ∈ s.name, c ≠ '{' ∧ c ≠ ' ' ∧ c ≠ '#' ∧ c ≠ '\n'
  labels : ∀ label ∈ s.labels, ∀ c ∈ label.1, c ≠ '=' ∧ c ≠ '\n'
  value : '\n' ∉ s.value

theorem readLine_write (h : s.Plain) : readLine s.write = some s := by
  have hpass : ∀ x ∈ s.name, (x != '{' && x != ' ') = true := fun x hx => by
    have hne := h.name x hx
    simp [hne.1, hne.2.1]
  by_cases hnil : s.labels = []
  · have htext : s.write = s.name ++ ' ' :: s.value := by simp [Sample.write, writeLabels, hnil]
    rw [readLine, htext, span_append hpass (by decide)]
    simp [← hnil]
  · have htext : s.write = s.name ++ '{' :: (Text.join [','] (s.labels.map writePair) ++ '}' :: ' ' :: s.value) := by
      simp [Sample.write, writeLabels, hnil]
    have hlen : s.labels.length ≤ (Text.join [','] (s.labels.map writePair) ++ '}' :: ' ' :: s.value).length := by
      have hjoin : ∀ labels : List (List Char × List Char),
          labels.length ≤ (Text.join [','] (labels.map writePair)).length := by
        intro labels
        induction labels with
        | nil => simp
        | cons label labels ih =>
          have hpos := @length_writePair label
          cases labels with
          | nil => simpa [Text.join] using hpos
          | cons next labels =>
            simp only [List.map_cons, Text.join, List.length_append, List.length_cons] at ih ⊢
            omega
      rw [List.length_append]
      exact Nat.le_trans (hjoin _) (Nat.le_add_right _ _)
    rw [readLine, htext, span_append hpass (by decide)]
    simp only [readPairs_write hnil (fun label hl hc => (h.labels label hl _ hc).1 rfl) hlen]

theorem escape_line : '\n' ∉ escape value := by
  intro hmem
  obtain ⟨c, -, hc⟩ := List.mem_flatMap.mp hmem
  unfold escapeChar at hc
  split at hc
  · simp at hc
  · split at hc
    · simp at hc
    · split at hc
      · simp at hc
      · next hline => exact hline (List.mem_singleton.mp hc).symm

/-- A sample stands on one line. -/
theorem line_write (h : s.Plain) : '\n' ∉ s.write := by
  intro hmem
  rw [Sample.write, List.mem_append, List.mem_append, List.mem_cons] at hmem
  rcases hmem with (hname | hlabels) | hspace | hvalue
  · exact (h.name _ hname).2.2.2 rfl
  · unfold writeLabels at hlabels
    split at hlabels
    · cases hlabels
    · simp only [List.mem_cons, List.mem_append, List.not_mem_nil, or_false] at hlabels
      rcases hlabels with hopen | hjoin | hclose
      · exact absurd hopen (by decide)
      · rcases Text.mem_join hjoin with hsep | ⟨t, ht, hc⟩
        · exact absurd (List.mem_singleton.mp hsep) (by decide)
        · obtain ⟨label, hl, rfl⟩ := List.mem_map.mp ht
          simp only [writePair, List.mem_append, List.mem_cons, List.not_mem_nil, or_false] at hc
          rcases hc with hc | hc | hc | hc | hc
          · exact (h.labels label hl _ hc).2 rfl
          · exact absurd hc (by decide)
          · exact absurd hc (by decide)
          · exact escape_line hc
          · exact absurd hc (by decide)
      · exact absurd hclose (by decide)
  · exact absurd hspace (by decide)
  · exact h.value hvalue

/-- What a scraper reads off a line. -/
def Line.samples : Line → List Sample
  | comment _ => []
  | sample s => [s]

def Line.Plain : Line → Prop
  | comment text => '\n' ∉ text
  | sample s => s.Plain

theorem readLines_write (h : ∀ line ∈ lines, line.Plain) (tail : List (List Char)) :
    readLines (lines.map Line.write ++ tail) = (readLines tail).map (lines.flatMap Line.samples ++ ·) := by
  induction lines with
  | nil => simp
  | cons line lines ih =>
    have hrest := ih fun l hl => h l (List.mem_cons_of_mem _ hl)
    have hline := h line (List.mem_cons_self ..)
    rw [List.map_cons, List.cons_append, readLines, List.flatMap_cons]
    cases line with
    | comment text => simpa [Line.write, Line.samples] using hrest
    | sample s =>
      obtain ⟨c, cs, hname⟩ := List.exists_cons_of_ne_nil (hline : s.Plain).named
      have hhead : ¬ (s.write = [] ∨ s.write.head? = some '#') := by
        have hne := (hline : s.Plain).name c (by rw [hname]; exact List.mem_cons_self ..)
        simp [Sample.write, hname, hne.2.2.1]
      rw [Line.write, if_neg hhead, readLine_write hline, Option.bind_some, hrest, Option.map_map]
      rfl

/-- What is written is read: every sample, in order, and nothing else. -/
theorem read_write (h : ∀ line ∈ lines, line.Plain) : read (write lines) = some (lines.flatMap Line.samples) := by
  have hplain : ∀ l ∈ lines.map Line.write, '\n' ∉ l := fun l hl => by
    obtain ⟨line, hline, rfl⟩ := List.mem_map.mp hl
    cases line with
    | comment text =>
      have htext := h _ hline
      simpa [Line.write, Line.Plain] using htext
    | sample s => exact line_write (h _ hline)
  have hsplit : (write lines).splitOn '\n' = (if lines = [] then [[]] else lines.map Line.write) ++ [[]] := by
    by_cases hnil : lines = []
    · subst hnil
      rfl
    · rw [if_neg hnil]
      have htext : write lines = ['\n'].intercalate (lines.map Line.write ++ [[]]) := by
        rw [write, Text.join_eq_intercalate]
        generalize hls : lines.map Line.write = ls
        have hne : ls ≠ [] := by simpa [← hls] using hnil
        clear hls hplain
        induction ls with
        | nil => exact absurd rfl hne
        | cons l ls ih =>
          cases ls with
          | nil => simp [List.intercalate]
          | cons m ls =>
            have hrest := ih (List.cons_ne_nil _ _)
            simp only [List.intercalate, List.intersperse_cons_cons, List.flatten_cons, List.cons_append] at hrest ⊢
            rw [← hrest]
            simp
      rw [htext]
      refine List.splitOn_intercalate '\n' (fun l hl => ?_) (by simp)
      rcases List.mem_append.mp hl with hl | hl
      · exact hplain l hl
      · rw [List.mem_singleton.mp hl]
        exact List.not_mem_nil
  rw [read, hsplit]
  by_cases hnil : lines = []
  · subst hnil
    rfl
  · rw [if_neg hnil, readLines_write h]
    simp [readLines]

end Exposition
