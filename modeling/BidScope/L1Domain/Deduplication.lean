import BidScope.L1Domain.Types

/-!
# Deduplication and material changes

`retrieval/deduplication.py`: two pure functions over `NoticeView`, the slice
of a notice the detectors read. `classifyDuplicate` decides a pair on
deterministic evidence, `detectMaterialChanges` lists the business fields that
differ between two versions.

* `detectMaterialChanges_eq_nil`: no change is reported exactly when every
  material field agrees, text up to normalisation.
-/
namespace BidScope.L1

/-- mirrors retrieval/deduplication.py:28-54; the deadline is aware by type. -/
structure NoticeView where
  source : String
  externalId : String
  canonicalUrl : String
  projectNumber : Option String
  contentHash : String
  title : Option String := none
  purchaser : Option String := none
  region : Option String := none
  budgetMinorUnits : Option Int := none
  budgetCurrency : Option String := none
  deadline : Option Datetime := none
  procurementScope : Option String := none
  cancellation : Bool := false
  claimSupportingTexts : List String := []
  deriving DecidableEq, Repr

inductive DuplicateDecision where
  | exact | ambiguous | distinct
  deriving DecidableEq, Repr

structure DuplicateClassification where
  decision : DuplicateDecision
  reasons : List String := []
  deriving DecidableEq, Repr

/-- mirrors retrieval/deduplication.py:71-80; `contentHash` is the field the
subscription diff names when it can compare hashes only. -/
inductive MaterialChangeType where
  | deadline | budget | region | purchaser | scope | cancellation | claimEvidence
  | contentHash
  deriving DecidableEq, Repr

structure MaterialChange where
  field : MaterialChangeType
  before : String
  after : String
  deriving DecidableEq, Repr

variable (lib : Lib)

/-- mirrors retrieval/deduplication.py:90-101 -/
def normalizeText : Option String → String
  | none => ""
  | some value => joinWith " " (split (lib.nfkc value))

/-- `path.rstrip("/")` -/
def rstripSlash (s : String) : String :=
  .ofList (s.toList.reverse.dropWhile (· == '/')).reverse

/-- mirrors retrieval/deduplication.py:104-112 -/
def canonicalizeUrl (url : String) : String :=
  let parsed := lib.urlsplit url
  let path := rstripSlash parsed.path
  lib.urlunsplit ⟨lib.lower parsed.scheme, lib.lower parsed.netloc, if path = "" then "/" else path⟩

/-- `x if x else ""` -/
def orEmpty (s : Option String) : String := s.getD ""

def truthy (s : Option String) : Bool := orEmpty s != ""

/-- mirrors retrieval/deduplication.py:171-192 -/
def distinctReasons (candidate existing : NoticeView) : List String :=
  if truthy candidate.projectNumber && truthy existing.projectNumber &&
      candidate.projectNumber != existing.projectNumber then
    let conflicts :=
      (if normalizeText lib candidate.purchaser ≠ normalizeText lib existing.purchaser then
        ["purchaser"] else []) ++
      (if candidate.budgetMinorUnits ≠ existing.budgetMinorUnits then ["budget"] else []) ++
      (if normalizeText lib candidate.region ≠ normalizeText lib existing.region then
        ["region"] else [])
    if conflicts = [] then []
    else ["project numbers differ (" ++ orEmpty candidate.projectNumber ++ " vs " ++
      orEmpty existing.projectNumber ++ ") and fields conflict: " ++ joinWith ", " conflicts]
  else []

/-- mirrors retrieval/deduplication.py:115-168 -/
def classifyDuplicate (candidate existing : NoticeView) (equivalentIds : List (String × String)) :
    DuplicateClassification :=
  let candidateNumber := strip (orEmpty candidate.projectNumber)
  let existingNumber := strip (orEmpty existing.projectNumber)
  let reasons :=
    (if candidate.contentHash = existing.contentHash then
      ["identical content hash: " ++ candidate.contentHash] else []) ++
    (if candidateNumber ≠ "" ∧ existingNumber ≠ "" ∧ candidateNumber = existingNumber then
      ["identical project number: " ++ candidateNumber] else []) ++
    (if candidate.source = existing.source ∧
        canonicalizeUrl lib candidate.canonicalUrl = canonicalizeUrl lib existing.canonicalUrl then
      ["identical source and canonical URL: " ++ candidate.source ++ " " ++
        canonicalizeUrl lib candidate.canonicalUrl] else []) ++
    -- `{left, right} == pair` compares sets: either order, or all four equal
    (match equivalentIds.find? fun (l, r) =>
        (l == candidate.source && r == existing.source) ||
          (l == existing.source && r == candidate.source) with
      | some (l, r) => ["explicit source-ID mapping: " ++ l ++ " ↔ " ++ r]
      | none => [])
  if reasons ≠ [] then ⟨.exact, reasons⟩
  else
    let conflict := distinctReasons lib candidate existing
    if conflict ≠ [] then ⟨.distinct, conflict⟩
    else ⟨.ambiguous, ["no strong exact or distinct evidence"]⟩

/-- mirrors retrieval/deduplication.py:264-267 -/
def formatDatetime : Option Datetime → String
  | none => ""
  | some value => lib.isoformat value

/-- `currency or 'CNY'` -/
def currencyOr (currency : Option String) : String :=
  if truthy currency then orEmpty currency else "CNY"

/-- mirrors retrieval/deduplication.py:270-273 -/
def formatMoney (minorUnits : Option Int) (currency : Option String) : String :=
  match minorUnits with
  | none => ""
  | some n => currencyOr currency ++ " " ++ toString n

def changeIf (changed : Prop) [Decidable changed] (field : MaterialChangeType)
    (before after : String) : List MaterialChange :=
  if changed then [⟨field, before, after⟩] else []

@[simp] theorem changeIf_eq_nil (changed : Prop) [Decidable changed] (field : MaterialChangeType)
    (before after : String) : changeIf changed field before after = [] ↔ ¬ changed := by
  unfold changeIf
  split <;> simp_all

def boolStr (b : Bool) : String := if b then "True" else "False"

/-- mirrors retrieval/deduplication.py:195-261 -/
def detectMaterialChanges (old new : NoticeView) : List MaterialChange :=
  changeIf (Datetime.same old.deadline new.deadline = false) .deadline
    (formatDatetime lib old.deadline) (formatDatetime lib new.deadline) ++
  changeIf (old.budgetMinorUnits ≠ new.budgetMinorUnits) .budget
    (formatMoney old.budgetMinorUnits old.budgetCurrency)
    (formatMoney new.budgetMinorUnits new.budgetCurrency) ++
  changeIf (normalizeText lib old.region ≠ normalizeText lib new.region) .region
    (orEmpty old.region) (orEmpty new.region) ++
  changeIf (normalizeText lib old.purchaser ≠ normalizeText lib new.purchaser) .purchaser
    (orEmpty old.purchaser) (orEmpty new.purchaser) ++
  changeIf (normalizeText lib old.procurementScope ≠ normalizeText lib new.procurementScope) .scope
    (orEmpty old.procurementScope) (orEmpty new.procurementScope) ++
  changeIf (old.cancellation ≠ new.cancellation) .cancellation
    (boolStr old.cancellation) (boolStr new.cancellation) ++
  changeIf (old.claimSupportingTexts ≠ new.claimSupportingTexts) .claimEvidence
    (joinWith " | " old.claimSupportingTexts) (joinWith " | " new.claimSupportingTexts)

/-- The material fields other than the claim texts agree. -/
structure SameFields (old new : NoticeView) : Prop where
  deadline : Datetime.same old.deadline new.deadline = true
  budget : old.budgetMinorUnits = new.budgetMinorUnits
  region : normalizeText lib old.region = normalizeText lib new.region
  purchaser : normalizeText lib old.purchaser = normalizeText lib new.purchaser
  scope : normalizeText lib old.procurementScope = normalizeText lib new.procurementScope
  cancellation : old.cancellation = new.cancellation

/-- No change is reported exactly when all material fields agree. -/
theorem detectMaterialChanges_eq_nil (old new : NoticeView) :
    detectMaterialChanges lib old new = [] ↔
      SameFields lib old new ∧ old.claimSupportingTexts = new.claimSupportingTexts := by
  simp only [detectMaterialChanges, List.append_eq_nil_iff, changeIf_eq_nil, Bool.not_eq_false,
    ne_eq, not_not]
  constructor
  · intro h
    obtain ⟨⟨⟨⟨⟨⟨h1, h2⟩, h3⟩, h4⟩, h5⟩, h6⟩, h7⟩ := h
    exact ⟨⟨h1, h2, h3, h4, h5, h6⟩, h7⟩
  · intro h
    obtain ⟨⟨h1, h2, h3, h4, h5, h6⟩, h7⟩ := h
    exact ⟨⟨⟨⟨⟨⟨h1, h2⟩, h3⟩, h4⟩, h5⟩, h6⟩, h7⟩

end BidScope.L1
