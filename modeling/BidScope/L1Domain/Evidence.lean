import BidScope.Core.Dict
import BidScope.L1Domain.Types

/-!
# Evidence spans and their validation

`evidence/extractor.py` and `evidence/validator.py`. A notice's claimed
snippets are located in its source text, each after the previous one; a claim
is accepted when every citation resolves to an intact span of its own notice
version.

* `extractEvidence_joined`: the snippets of a notice are always found in the
  text `verify_evidence` joins from them, unless one is empty.
* `extractEvidence_intact`: every extracted span passes the checks of
  `validate_claim` for its own version.
-/
namespace BidScope.L1

/-- The three shapes a value of `evidence_by_id` may take. -/
inductive Binding where
  | one (span : NoticeEvidence)
  | list (spans : List NoticeEvidence)
  | tuple (spans : List NoticeEvidence)
  deriving DecidableEq

def Binding.candidates : Binding → List NoticeEvidence
  | .one span => [span]
  | .list spans => spans
  | .tuple spans => spans

abbrev EvidenceById := Dict String Binding

/-! ## Extraction -/

variable (lib : Lib)

/-- mirrors evidence/validator.py:125-127 -/
def hashSpan (text : String) : String := lib.sha256 text

/-- The loop of `extract_evidence` from `index` and `cursor` on. -/
def extractFrom (noticeVersionId sourceText : String) :
    List String → Nat → Nat → Except String (List NoticeEvidence)
  | [], _, _ => .ok []
  | snippet :: rest, index, cursor =>
    if snippet = "" then
      .error ("empty snippet for notice " ++ noticeVersionId ++ " at index " ++ toString index)
    else
      match Text.find sourceText.toList snippet.toList cursor with
      | none =>
        .error ("snippet " ++ lib.repr snippet ++ " not found in notice " ++ lib.repr sourceText ++
          " from offset " ++ toString cursor)
      | some start =>
        let stop := start + snippet.length
        match extractFrom noticeVersionId sourceText rest (index + 1) stop with
        | .error e => .error e
        | .ok spans =>
          .ok ({ noticeVersionId, text := snippet, start, stop, spanHash := hashSpan lib snippet,
                 startNonneg := Int.natCast_nonneg _, stopNonneg := Int.natCast_nonneg _ } :: spans)

/-- mirrors evidence/extractor.py:24-61 -/
def extractEvidence (noticeVersionId sourceText : String) (snippets : List String) :
    Except String (List NoticeEvidence) :=
  extractFrom lib noticeVersionId sourceText snippets 0 0

theorem extractFrom_greedy (vid source : String) :
    ∀ (snippets : List String) (index cursor : Nat), (∀ t ∈ snippets, t ≠ "") →
      (Text.greedy source.toList (snippets.map String.toList) cursor).isSome →
        ∃ spans, extractFrom lib vid source snippets index cursor = .ok spans
  | [], _, _, _, _ => ⟨[], rfl⟩
  | t :: ts, index, cursor, hne, hg => by
    have ht : t ≠ "" := hne t (List.mem_cons_self ..)
    simp only [List.map_cons, Text.greedy] at hg
    cases hf : Text.find source.toList t.toList cursor with
    | none => simp [hf] at hg
    | some j =>
      simp only [hf, Option.isSome_map] at hg
      obtain ⟨spans, hs⟩ := extractFrom_greedy vid source ts (index + 1) (j + t.length)
        (fun u hu => hne u (List.mem_cons_of_mem _ hu)) hg
      simp only [extractFrom, if_neg ht, hf, hs]
      exact ⟨_, rfl⟩

/-- Nonempty snippets are always found in the text joined from them. -/
theorem extractEvidence_joined (vid : String) (texts : List String) (h : ∀ t ∈ texts, t ≠ "") :
    ∃ spans, extractEvidence lib vid (joinWith "\n" texts) texts = .ok spans := by
  have hg := Text.greedy_join "\n".toList (texts.map String.toList) [] 0 (Nat.le_refl _)
  exact extractFrom_greedy lib vid _ texts 0 0 h (by simpa [joinWith] using hg)

/-! ## Validation -/

structure ValidationResult where
  valid : Bool
  errors : List String
  deriving DecidableEq, Repr

/-- The checks of one resolved span.
mirrors evidence/validator.py:83-89 -/
def spanErrors (evidence : NoticeEvidence) : List String :=
  (if evidence.start < 0 ∨ evidence.stop < evidence.start then ["invalid_offset"] else []) ++
  (if evidence.stop - evidence.start ≠ evidence.text.length then ["invalid_offset"] else []) ++
  (if evidence.spanHash ≠ hashSpan lib evidence.text then ["span_hash_mismatch"] else [])

def citationErrors (itemVersionId : String) (evidenceById : EvidenceById) (citationId : String) :
    List String :=
  match evidenceById.get citationId with
  | none => ["missing_evidence"]
  | some binding =>
    match binding.candidates.find? (·.noticeVersionId == itemVersionId) with
    | none => ["citation_version_mismatch"]
    | some evidence => spanErrors lib evidence

/-- mirrors evidence/validator.py:50-91 -/
def validateClaim (claim : ReportClaim) (itemVersionId : String) (evidenceById : EvidenceById) :
    ValidationResult :=
  if claim.citationIds = [] then ⟨false, ["claim_without_citation"]⟩
  else
    let errors := claim.citationIds.flatMap (citationErrors lib itemVersionId evidenceById)
    ⟨errors.isEmpty, errors⟩

def itemErrors (evidenceById : EvidenceById) (item : ReportItem) : List String :=
  item.claims.flatMap fun claim =>
    let result := validateClaim lib claim item.noticeId evidenceById
    if result.valid then [] else result.errors

/-- mirrors evidence/validator.py:94-122; `report` is read through its items. -/
def validateReport (items : List ReportItem) (evidenceById : EvidenceById) : ValidationResult :=
  let unique := (items.flatMap (itemErrors lib evidenceById)).eraseDups
  ⟨unique.isEmpty, unique⟩

theorem extractFrom_span (vid source : String) :
    ∀ (snippets : List String) (index cursor : Nat) (spans : List NoticeEvidence),
      extractFrom lib vid source snippets index cursor = .ok spans →
        ∀ e ∈ spans, e.noticeVersionId = vid ∧ e.start ≤ e.stop ∧
          e.stop - e.start = e.text.length ∧ e.spanHash = hashSpan lib e.text
  | [], _, _, spans, h => by
    simp only [extractFrom, Except.ok.injEq] at h
    subst h
    intro e he
    cases he
  | t :: ts, index, cursor, spans, h => by
    unfold extractFrom at h
    split at h
    · cases h
    · split at h
      · cases h
      · rename_i j _
        simp only at h
        split at h
        · cases h
        · rename_i rest hr
          simp only [Except.ok.injEq] at h
          subst h
          intro e he
          rcases List.mem_cons.mp he with rfl | he
          · refine ⟨rfl, ?_, ?_, rfl⟩
            · push_cast; omega
            · push_cast; omega
          · exact extractFrom_span vid source ts _ _ rest hr e he

/-- An extracted span passes every check `validate_claim` makes of a span. -/
theorem extractEvidence_intact (vid source : String) (snippets : List String)
    (spans : List NoticeEvidence) (h : extractEvidence lib vid source snippets = .ok spans) :
    ∀ e ∈ spans, spanErrors lib e = [] := by
  intro e he
  obtain ⟨-, hle, hlen, hhash⟩ := extractFrom_span lib vid source snippets 0 0 spans h e he
  have hn := e.startNonneg
  have h1 : ¬ (e.start < 0 ∨ e.stop < e.start) := by omega
  simp [spanErrors, h1, hlen, hhash]

end BidScope.L1
