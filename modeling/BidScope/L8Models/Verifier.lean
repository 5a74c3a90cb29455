import BidScope.L8Models.Budgets

/-!
# The offline verifier

`FakeSemanticVerifier` (`evidence/fake_verifier.py`): a verdict on a claim from
the amounts of money in it and in its evidence, and from words of certainty.
Amounts are read in 万元. What a text states is not what the pattern finds in
it: `Supports` is about any way `reads` to read money from a text.

* `sound_iff`, in floats: a supported claim is one whose amounts and qualifiers
  are all in its evidence, except where one amount or the first qualifier of the
  table passes for the rest (`Overlooked` lists the cases).
* `unit_invariant_iff`, in exact numbers: two texts that state an amount each are
  read as equal exactly when they state the same money, unless one of them is in
  bare 元: a number of yuan is not divided by ten thousand.
-/
namespace BidScope.L8

open BidScope.L1 Regex

def VERIFIER_VERSION : String := "fake-deterministic-v1"

/-! ## Amounts and words -/

/-- mirrors evidence/fake_verifier.py:40 -/
def amountPattern : Re Char :=
  .alt (.group 1 (numeralRe isDecimal) ++ .many isSpace ++ .group 2 largeUnitRe ++ .many isSpace ++
      .opt (.sym (· == '元')))
    (.group 3 (numeralRe isDecimal) ++ .many isSpace ++ .sym (· == '元'))

def WAN_PER_YI : ℚ := 10000

/-- `match.group(1) or match.group(3)` -/
def matchedNumber (m : Groups Char) : List Char := ((m.get 1).or (m.get 3)).getD []

section
variable {ν : Type} (A : Arithmetic ν)

/-- mirrors evidence/fake_verifier.py:49-59 -/
def amountsWan (text : String) : List ν :=
  (findAll amountPattern text.toList).map fun m =>
    let value := A.float (floatOf (matchedNumber m))
    if m.get 2 = some ['亿'] then A.times value WAN_PER_YI else value

end

/-- The quotation marks of ASCII stand by their code points. -/
def punctuation : List Char :=
  "，。、：:；;（）()【】[]「」『』“”—-–…·".toList ++ [Char.ofNat 34, Char.ofNat 39]

/-- mirrors evidence/fake_verifier.py:42, :62-64. A run that is deleted is
deleted character by character. -/
def normalized (text : String) : String :=
  .ofList (text.toList.filter fun c => !(isSpace c || punctuation.contains c))

/-- mirrors evidence/fake_verifier.py:46 -/
def CERTAINTY_QUALIFIERS : List String := ["确定", "已确定", "最终", "已批准"]

/-- `part in text` -/
def occurs (part text : String) : Bool := decide (part.toList <:+: text.toList)

/-! ## The verdict -/

variable {ν : Type} [DecidableEq ν] (A : Arithmetic ν)

/-- mirrors evidence/fake_verifier.py:92-94 -/
def conflictsWith (claimAmounts evAmounts : List ν) : Bool :=
  !evAmounts.isEmpty && !claimAmounts.isEmpty && !claimAmounts.any fun a => evAmounts.contains a

def conflictIds (claimAmounts : List ν) (evidence : List NoticeEvidence) (ids : List String) :
    List String :=
  ((evidence.zip ids).filter fun e => conflictsWith claimAmounts (amountsWan A e.1.text)).map (·.2)

theorem version_nonblank : strip VERIFIER_VERSION ≠ "" := by decide

theorem conflictIds_subset (claimAmounts : List ν) (evidence : List NoticeEvidence)
    (ids : List String) : ∀ i ∈ conflictIds A claimAmounts evidence ids, i ∈ ids := by
  intro i hi
  obtain ⟨e, he, rfl⟩ := List.mem_map.mp hi
  exact (List.of_mem_zip (List.mem_of_mem_filter he)).2

/-! ### The rationales -/

def amountsConflict : String := "证据中记载的金额与 Claim 声明的金额不一致，构成明确的关键事实冲突。"

def amountAbsent : String := "证据中没有与 Claim 金额一致的关键事实，且不存在明确冲突。"

def qualifierUnconfirmed (qualifier : String) : String :=
  "金额与证据一致，但 Claim 的“" ++ qualifier ++ "”限定无法由所给证据确认；" ++
  "未提供“暂估金额/以批复为准”等上下文时不得判定为确定。"

def amountRecorded : String := "证据明确记载了与 Claim 一致的金额。"

def claimQuoted : String := "证据文本包含 Claim 的表述（同义转述/直接引用）。"

def nothingToCheck : String := "证据与 Claim 之间没有可核对的关键事实，也没有明确冲突。"

theorem amountsConflict_nonblank : strip amountsConflict ≠ "" := by decide

theorem amountAbsent_nonblank : strip amountAbsent ≠ "" := by decide

theorem mem_toList_append {a b : String} {c : Char} (h : c ∈ a.toList) : c ∈ (a ++ b).toList := by
  rw [String.toList_append]
  exact List.mem_append_left _ h

theorem qualifierUnconfirmed_nonblank (q : String) : strip (qualifierUnconfirmed q) ≠ "" := by
  have hmem : '金' ∈ (qualifierUnconfirmed q).toList := by
    have hhead : '金' ∈ ("金额与证据一致，但 Claim 的“" : String).toList := by decide
    exact mem_toList_append (mem_toList_append (mem_toList_append hhead))
  exact strip_ne_empty hmem (by decide)

theorem amountRecorded_nonblank : strip amountRecorded ≠ "" := by decide

theorem claimQuoted_nonblank : strip claimQuoted ≠ "" := by decide

theorem nothingToCheck_nonblank : strip nothingToCheck ≠ "" := by decide

/-! ### The records -/

def unsupportedRecord (ids conflicts : List String) (h : ∀ i ∈ conflicts, i ∈ ids) :
    ClaimSupportVerification where
  status := .unsupported
  rationale := amountsConflict
  evidenceIdsUsed := ids
  conflictEvidenceIds := conflicts
  verifierVersion := VERIFIER_VERSION
  rationaleNonblank := amountsConflict_nonblank
  versionNonblank := version_nonblank
  conflictsUnsupported := fun h => absurd rfl h
  conflictsUsed := h

theorem no_conflicts {status : ClaimSupportStatus} :
    status ≠ .unsupported → ([] : List String) = [] := fun _ => rfl

theorem conflicts_used {ids : List String} : ∀ i ∈ ([] : List String), i ∈ ids := by simp

/-- A record without conflicts. -/
def plainRecord (status : ClaimSupportStatus) (rationale : String) (ids : List String)
    (h : strip rationale ≠ "") : ClaimSupportVerification where
  status := status
  rationale := rationale
  evidenceIdsUsed := ids
  conflictEvidenceIds := []
  verifierVersion := VERIFIER_VERSION
  rationaleNonblank := h
  versionNonblank := version_nonblank
  conflictsUnsupported := no_conflicts
  conflictsUsed := conflicts_used

/-- mirrors evidence/fake_verifier.py:125-127 -/
def firstQualifier (claim : String) : Option String := CERTAINTY_QUALIFIERS.find? (occurs · claim)

/-- The texts of the evidence, joined and normalised. -/
def evidenceNormalized (texts : List String) : String := normalized (joinWith "\n" texts)

/-- mirrors evidence/fake_verifier.py:77-79 -/
def idsOf (evidence : List NoticeEvidence) (evidenceIds : Option (List String)) : List String :=
  evidenceIds.getD ((List.range evidence.length).map fun i => "ev-" ++ toString i)

/-- The verdict on a claim with amounts, none of which conflicts.
mirrors evidence/fake_verifier.py:109-145 -/
def verifyAmounts (claim : ReportClaim) (evidence : List NoticeEvidence) (ids : List String) :
    ClaimSupportVerification :=
  let evidenceAmounts := evidence.flatMap fun e => amountsWan A e.text
  if (amountsWan A claim.text).any fun a => evidenceAmounts.contains a then
    match firstQualifier claim.text with
    | some q =>
      if occurs q (evidenceNormalized (evidence.map (·.text))) then
        plainRecord .supported amountRecorded ids amountRecorded_nonblank
      else
        plainRecord .uncertain (qualifierUnconfirmed q) ids (qualifierUnconfirmed_nonblank q)
    | none => plainRecord .supported amountRecorded ids amountRecorded_nonblank
  else plainRecord .uncertain amountAbsent ids amountAbsent_nonblank

/-- The verdict on a claim without amounts. mirrors evidence/fake_verifier.py:148-162 -/
def verifyText (claim : ReportClaim) (evidence : List NoticeEvidence) (ids : List String) :
    ClaimSupportVerification :=
  let claimNormalized := normalized claim.text
  if claimNormalized ≠ "" ∧
      occurs claimNormalized (evidenceNormalized (evidence.map (·.text))) = true then
    plainRecord .supported claimQuoted ids claimQuoted_nonblank
  else plainRecord .uncertain nothingToCheck ids nothingToCheck_nonblank

/-- mirrors evidence/fake_verifier.py:70-162; an error is the message of the
`ValueError`. -/
def verify (claim : ReportClaim) (evidence : List NoticeEvidence) (evidenceIds : Option (List String)) :
    Except String ClaimSupportVerification :=
  let ids := idsOf evidence evidenceIds
  if ids.length ≠ evidence.length then .error "evidence_ids must parallel the evidence sequence"
  else if conflictIds A (amountsWan A claim.text) evidence ids ≠ [] then
    .ok (unsupportedRecord ids (conflictIds A (amountsWan A claim.text) evidence ids)
      (conflictIds_subset A (amountsWan A claim.text) evidence ids))
  else if amountsWan A claim.text ≠ [] then .ok (verifyAmounts A claim evidence ids)
  else .ok (verifyText claim evidence ids)

/-! ## What is stated -/

/-- The evidence states amounts of money, and none of them is one of the claim's. -/
def Contradicts (reads : String → List ℚ) (claim evidence : String) : Prop :=
  reads claim ≠ [] ∧ reads evidence ≠ [] ∧ ∀ b ∈ reads evidence, b ∉ reads claim

/-- The evidence supports the claim, where `reads` has the amounts that a text
states. -/
structure Supports (reads : String → List ℚ) (claim : String) (evidence : List String) : Prop where
  amounts : ∀ a ∈ reads claim, ∃ e ∈ evidence, a ∈ reads e
  uncontradicted : ∀ e ∈ evidence, ¬ Contradicts reads claim e
  qualifiers : ∀ q ∈ CERTAINTY_QUALIFIERS, occurs q claim = true →
    ∃ e ∈ evidence, occurs q (normalized e) = true

/-- Whenever the verdict is `supported`, the evidence supports the claim. -/
def Sound (reads : String → List ℚ) (claim : ReportClaim) (evidence : List NoticeEvidence)
    (evidenceIds : Option (List String)) : Prop :=
  ∀ v, verify doubles claim evidence evidenceIds = .ok v → v.status = .supported →
    Supports reads claim.text (evidence.map (·.text))

/-! ## Where one stands for all -/

/-- Some amount of the claim is read in each evidence in which amounts are read,
and in one at least; and the first qualifier of the claim, where it has one,
occurs in the evidence taken together. -/
structure AmountPasses (claim : String) (evidence : List String) : Prop where
  each : ∀ e ∈ evidence, amountsWan A e ≠ [] → ∃ a ∈ amountsWan A claim, a ∈ amountsWan A e
  one : ∃ a ∈ amountsWan A claim, ∃ e ∈ evidence, a ∈ amountsWan A e
  qualifier : ∀ q ∈ firstQualifier claim, occurs q (evidenceNormalized evidence) = true

/-- No amount is read in the claim, and it is quoted in the evidence taken together. -/
structure Quoted (claim : String) (evidence : List String) : Prop where
  none : amountsWan A claim = []
  nonblank : normalized claim ≠ ""
  quoted : occurs (normalized claim) (evidenceNormalized evidence) = true

/-- What passes although the evidence lacks it. -/
inductive Overlooked (reads : String → List ℚ) (claim : String) (evidence : List String) : Prop where
  /-- an amount of the claim that no evidence states: another one passes, or it is
  read as another number or not at all -/
  | amount (h : AmountPasses doubles claim evidence ∨ Quoted doubles claim evidence) (a : ℚ)
    (ha : a ∈ reads claim) (hno : ∀ e ∈ evidence, a ∉ reads e)
  /-- evidence whose amounts are the claim's only as they are read -/
  | contradiction (h : AmountPasses doubles claim evidence ∨ Quoted doubles claim evidence) (e : String)
    (he : e ∈ evidence) (hc : Contradicts reads claim e)
  /-- a qualifier behind the first one, or one the evidence has only in pieces -/
  | qualifier (h : AmountPasses doubles claim evidence ∨ Quoted doubles claim evidence) (q : String)
    (hq : q ∈ CERTAINTY_QUALIFIERS) (hc : occurs q claim = true)
    (hno : ∀ e ∈ evidence, occurs q (normalized e) = false)

variable {A}

theorem conflictsWith_eq_false {xs ys : List ν} :
    conflictsWith xs ys = false ↔ xs = [] ∨ (ys ≠ [] → ∃ a ∈ xs, a ∈ ys) := by
  have hany : (xs.any fun a => ys.contains a) = true ↔ ∃ a ∈ xs, a ∈ ys := by
    rw [List.any_eq_true]
    simp only [List.contains_iff_mem]
  unfold conflictsWith
  simp only [Bool.and_eq_false_iff, Bool.not_eq_false', List.isEmpty_iff, hany]
  tauto

variable {claim : ReportClaim} {evidence : List NoticeEvidence} {ids : List String}
  {evidenceIds : Option (List String)} {reads : String → List ℚ}

theorem conflictIds_eq_nil (amounts : List ν) (hlen : ids.length = evidence.length) :
    conflictIds A amounts evidence ids = [] ↔
      ∀ e ∈ evidence, conflictsWith amounts (amountsWan A e.text) = false := by
  have hfst : (evidence.zip ids).map Prod.fst = evidence := List.map_fst_zip hlen.ge
  rw [conflictIds, List.map_eq_nil_iff, List.filter_eq_nil_iff]
  constructor
  · intro h e he
    rw [← hfst, List.mem_map] at he
    obtain ⟨x, hx, rfl⟩ := he
    exact Bool.eq_false_iff.mpr (h x hx)
  · intro h x hx
    rw [h x.1 (List.of_mem_zip hx).1]
    exact Bool.false_ne_true

theorem noConflicts_iff (hlen : ids.length = evidence.length) :
    conflictIds A (amountsWan A claim.text) evidence ids = [] ↔ amountsWan A claim.text = [] ∨
      ∀ e ∈ evidence.map (·.text), amountsWan A e ≠ [] →
        ∃ a ∈ amountsWan A claim.text, a ∈ amountsWan A e := by
  rw [conflictIds_eq_nil _ hlen]
  simp only [conflictsWith_eq_false, List.forall_mem_map]
  by_cases h : amountsWan A claim.text = []
  · simp only [h, true_or, implies_true]
  · simp only [h, false_or]

theorem verifyAmounts_supported : (verifyAmounts A claim evidence ids).status = .supported ↔
    (∃ a ∈ amountsWan A claim.text, ∃ e ∈ evidence.map (·.text), a ∈ amountsWan A e) ∧
      ∀ q ∈ firstQualifier claim.text, occurs q (evidenceNormalized (evidence.map (·.text))) = true := by
  have hany : ((amountsWan A claim.text).any fun a =>
      (evidence.flatMap fun e => amountsWan A e.text).contains a) = true ↔
      ∃ a ∈ amountsWan A claim.text, ∃ e ∈ evidence.map (·.text), a ∈ amountsWan A e := by
    rw [List.any_eq_true]
    simp only [List.contains_iff_mem, List.mem_flatMap, List.mem_map, exists_exists_and_eq_and]
  rw [← hany, verifyAmounts]
  split
  · next hmatch =>
    rw [and_iff_right hmatch]
    cases hq : firstQualifier claim.text with
    | none => exact iff_of_true rfl nofun
    | some q =>
      dsimp only
      by_cases ho : occurs q (evidenceNormalized (evidence.map (·.text))) = true
      · rw [if_pos ho]
        exact iff_of_true rfl fun q' hq' => Option.some.inj hq' ▸ ho
      · rw [if_neg ho]
        exact iff_of_false nofun fun h => ho (h q rfl)
  · next hmatch => exact iff_of_false nofun fun h => hmatch h.1

theorem verifyText_supported : (verifyText claim evidence ids).status = .supported ↔
    normalized claim.text ≠ "" ∧
      occurs (normalized claim.text) (evidenceNormalized (evidence.map (·.text))) = true := by
  rw [verifyText]
  split
  · next h => exact iff_of_true rfl h
  · next h => exact iff_of_false (by simp [plainRecord]) h

/-- A claim is supported when an amount of it passes, or when it is quoted. -/
theorem verify_supported (hlen : (idsOf evidence evidenceIds).length = evidence.length) :
    (∃ v, verify A claim evidence evidenceIds = .ok v ∧ v.status = .supported) ↔
      AmountPasses A claim.text (evidence.map (·.text)) ∨ Quoted A claim.text (evidence.map (·.text)) := by
  have hnone : AmountPasses A claim.text (evidence.map (·.text)) → amountsWan A claim.text ≠ [] := by
    rintro ⟨-, ⟨a, ha, -⟩, -⟩
    exact List.ne_nil_of_mem ha
  unfold verify
  rw [if_neg (not_not.mpr hlen)]
  by_cases hconf : conflictIds A (amountsWan A claim.text) evidence (idsOf evidence evidenceIds) = []
  · have hspans := (noConflicts_iff hlen).mp hconf
    rw [if_neg (not_not.mpr hconf)]
    by_cases hclaim : amountsWan A claim.text = []
    · rw [if_neg (not_not.mpr hclaim), or_iff_right fun h => hnone h hclaim]
      simp only [Except.ok.injEq, exists_eq_left', verifyText_supported]
      exact ⟨fun h => ⟨hclaim, h.1, h.2⟩, fun h => ⟨h.nonblank, h.quoted⟩⟩
    · rw [if_pos hclaim, or_iff_left fun h => hclaim h.none]
      simp only [Except.ok.injEq, exists_eq_left', verifyAmounts_supported]
      exact ⟨fun h => ⟨hspans.resolve_left hclaim, h.1, h.2⟩, fun h => ⟨h.one, h.qualifier⟩⟩
  · rw [if_pos hconf]
    have hnot := mt (noConflicts_iff hlen).mpr hconf
    constructor
    · rintro ⟨v, hv, hs⟩
      cases hv
      cases hs
    · rintro (h | h)
      · exact absurd (Or.inr h.each) hnot
      · exact absurd (Or.inl h.none) hnot

theorem parallel_of_verify {v : ClaimSupportVerification} (hv : verify A claim evidence evidenceIds = .ok v) :
    (idsOf evidence evidenceIds).length = evidence.length := by
  by_contra hlen
  rw [verify, if_pos hlen] at hv
  cases hv

def unitOf (m : Groups Char) : MoneyUnit :=
  if m.get 2 = some ['亿'] then .yi else if m.get 2 = some ['万'] then .wan else .yuan

/-- A number whose digits commas may group, and a unit. -/
def groupedRe : Re Char :=
  .group 1 (.sym isDecimal ++ .many (fun c => isDecimal c || c == ',') ++
    .opt (.sym (· == '.') ++ .some isDecimal)) ++ .many isSpace ++
  .group 2 (.alt largeUnitRe (.sym (· == '元')))

/-- The money stated in a text, in fen. -/
def moneyStated (text : String) : List ℚ :=
  (findAll groupedRe text.toList).map fun m => floatOf (((m.get 1).getD []).filter (· != ',')) * (unitOf m).fen

theorem cites_first : ["ev-0"] ≠ [] ∧ ["ev-0"].Nodup := by decide

/-- A claim that cites one evidence. -/
def claimOf (text : String) : ReportClaim := ⟨text, ["ev-0"], none, cites_first.1, cites_first.2⟩

theorem span_start : (0 : Int) ≤ 0 := by decide

def evidenceOf (text : String) : NoticeEvidence := ⟨"v1", text, 0, text.length, "h", span_start, by omega⟩

theorem unsound_of_missing {a : ℚ} {e : NoticeEvidence}
    (hv : (verify doubles claim [e] none).map (·.status) = .ok .supported) (ha : a ∈ reads claim.text)
    (hno : a ∉ reads e.text) : ¬ Sound reads claim [e] none := by
  intro h
  cases hrun : verify doubles claim [e] none with
  | error m =>
    rw [hrun] at hv
    cases hv
  | ok v =>
    rw [hrun] at hv
    obtain ⟨x, hx, hread⟩ := (h v hrun (Except.ok.inj hv)).amounts a ha
    obtain rfl : x = e.text := List.mem_singleton.mp hx
    exact hno hread

/-- An amount of money, as a text states it. -/
structure Amount where
  number : ℚ
  unit : MoneyUnit
  deriving DecidableEq

namespace Amount

/-- The money stated, in fen. -/
def fen (a : Amount) : ℚ := a.number * a.unit.fen

/-- The amount as the verifier reads it, in 万元. -/
def wan (a : Amount) : ℚ := if a.unit = .yi then a.number * WAN_PER_YI else a.number

end Amount

def isUnit (c : Char) : Bool := c == '万' || c == '亿' || c == '元'

/-- The first character behind digits, points and blanks. -/
def behindDigits (cs : List Char) : Option Char := (cs.dropWhile fun c => isDecimal c || c == '.' || isSpace c).head?

/-- A text that states one amount of money, in a unit the pattern knows. Other
numbers may stand around it, but no unit follows them. -/
structure StatedAmount where
  before : List Char := []
  numeral : Numeral isDecimal
  printed : PrintedUnit
  after : List Char := []
  beforeNoUnit : ∀ c cs, c :: cs <:+ before → isDecimal c = true → ∃ x ∈ behindDigits cs, isUnit x = false
  afterNoUnit : ∀ c cs, c :: cs <:+ after → isDecimal c = true → ∀ x ∈ behindDigits cs, isUnit x = false
  unitGiven : printed.word ≠ []

namespace StatedAmount

def text (s : StatedAmount) : String :=
  .ofList (s.before ++ (s.numeral.chars ++ (s.printed.chars ++ s.after)))

def amount (s : StatedAmount) : Amount := ⟨s.numeral.value, s.printed.unit⟩

end StatedAmount

theorem fails_amount (c : Char) (s : List Char) (h : isDecimal c = false) :
    Fails amountPattern (c :: s) := by
  have hnum : Fails (numeralRe isDecimal) (c :: s) := fails_numeral (stops_cons.mpr h)
  exact fails_alt (fails_seq_left (fails_seq_left (fails_seq_left (fails_seq_left
    (fails_group hnum))))) (fails_seq_left (fails_seq_left (fails_group hnum)))

/-- The pattern takes a numeral with 万 or 亿, and more of the text perhaps. -/
theorem takes_large {n : Numeral isDecimal} {gap rest : List Char} {c : Char}
    (hends : Ends n (gap ++ c :: rest)) (hgap : ∀ d ∈ gap, isSpace d = true)
    (hc : (c == '万' || c == '亿') = true) : ∃ t, t <:+ rest ∧
      Takes amountPattern (n.chars ++ (gap ++ c :: rest)) [(1, n.chars), (2, [c])] t := by
  obtain ⟨t, ht, hsuffix⟩ := takes_opt_sym (· == '元') (rest.dropWhile isSpace)
  have hstop : Stops isSpace (c :: rest) := by
    rw [stops_cons]
    rcases (Bool.or_eq_true ..).mp hc with h | h <;> rw [beq_iff_eq.mp h] <;> decide
  refine ⟨t, hsuffix.trans (List.dropWhile_suffix _), takes_alt_left ?_⟩
  exact takes_seq (takes_seq (takes_seq (takes_seq
    (takes_group (n := 1) (takes_numeral digits_isDecimal hends)) (takes_many hgap hstop))
    (takes_largeUnit hc)) takes_many_dropWhile) ht

theorem unit_spec {c : Char} (h : isUnit c = true) : isSpace c = false ∧ isDecimal c = false ∧ c ≠ '.' := by
  have hc : c = '万' ∨ c = '亿' ∨ c = '元' := by simpa [isUnit, or_assoc] using h
  rcases hc with rfl | rfl | rfl <;> decide

/-- However much of a number and of the white space behind it is taken, no unit
stands behind it when none stands behind both. -/
theorem leaves_amount {k : Nat} {p : Char → Bool} (hp : ∀ c, p c = true → isUnit c = true) {n : Numeral isDecimal}
    {t : List Char} (hends : Ends n t) (h : Stops p (t.dropWhile isSpace)) :
    Leaves (.group k (numeralRe isDecimal) ++ .many isSpace) (n.chars ++ t) (Stops p) := by
  have hblank : ∀ u : List Char, Stops p (u.dropWhile isSpace) → Leaves (.many isSpace) u (Stops p) := by
    intro u hu
    have hmany : Leaves (.many isSpace) (u.takeWhile isSpace ++ u.dropWhile isSpace) _ :=
      leaves_many (List.all_eq_true.mp List.all_takeWhile) stops_dropWhile
    rw [List.takeWhile_append_dropWhile] at hmany
    refine hmany.imp ?_
    rintro v (rfl | ⟨c, w, rfl, hc⟩)
    · exact hu
    · refine stops_cons.mpr (Bool.eq_false_iff.mpr fun hpc => ?_)
      rw [(unit_spec (hp c hpc)).1] at hc
      cases hc
  refine leaves_seq (leaves_group (leaves_numeral digits_isDecimal hends)) ?_
  rintro u (rfl | ⟨c, v, rfl, hc⟩)
  · exact hblank _ h
  · -- the numeral was cut before a digit or the point
    have hspace : isSpace c = false := by
      rcases hc with hc | rfl
      · exact not_isSpace_of_isDecimal hc
      · decide
    refine hblank _ ?_
    rw [List.dropWhile_cons_of_neg (by rw [hspace]; exact Bool.false_ne_true), stops_cons]
    refine Bool.eq_false_iff.mpr fun hpc => ?_
    obtain ⟨-, hdigit, hpoint⟩ := unit_spec (hp c hpc)
    rcases hc with hc | hc
    · rw [hdigit] at hc
      cases hc
    · exact hpoint hc

/-- A number is no amount when no unit follows. -/
theorem fails_no_unit {n : Numeral isDecimal} {t : List Char} (hends : Ends n t)
    (h : Stops isUnit (t.dropWhile isSpace)) : Fails amountPattern (n.chars ++ t) := by
  have hlarge : Stops (fun c => c == '万' || c == '亿') (t.dropWhile isSpace) := fun c hc =>
    (Bool.or_eq_false_iff.mp (h c hc)).1
  have hyuan : Stops (· == '元') (t.dropWhile isSpace) := fun c hc => (Bool.or_eq_false_iff.mp (h c hc)).2
  refine fails_alt (fails_seq_left (fails_seq_left (fails_seq ?_))) (fails_seq ?_)
  · exact (leaves_amount (fun c hc => by simp_all [isUnit]) hends hlarge).imp fun u hu =>
      fails_group (fails_largeUnit hu)
  · exact (leaves_amount (fun c hc => by simp_all [isUnit]) hends hyuan).imp fun u hu => fails_sym hu

theorem fails_bare {c : Char} {cs : List Char} (hc : isDecimal c = true)
    (h : ∀ x ∈ behindDigits cs, isUnit x = false) : Fails amountPattern (c :: cs) := by
  have hhead : ¬ Stops isDecimal (c :: cs) := by
    rw [stops_cons, hc]
    exact Bool.noConfusion
  obtain ⟨t, n, hs, hends⟩ := exists_numeral_head hhead
  rw [hs]
  refine fails_no_unit hends fun x hx => ?_
  by_contra hunit
  rw [Bool.not_eq_false] at hunit
  obtain ⟨hspace, hdigit, hpoint⟩ := unit_spec hunit
  -- the digits, points and blanks behind the first digit end where the number and its blanks do
  obtain ⟨v, hv⟩ : ∃ v, t.dropWhile isSpace = x :: v := List.head?_eq_some_iff.mp hx
  have hcut : c :: cs = (n.chars ++ t.takeWhile isSpace) ++ x :: v := by
    rw [hs, List.append_assoc, ← hv, List.takeWhile_append_dropWhile]
  have hall : ∀ d ∈ n.chars ++ t.takeWhile isSpace, (isDecimal d || d == '.' || isSpace d) = true := by
    intro d hd
    rcases List.mem_append.mp hd with hd | hd
    · rcases n.mem_chars hd with hd | hd <;> simp [hd]
    · simp [List.all_eq_true.mp List.all_takeWhile d hd]
  have hdrop : (c :: cs).dropWhile (fun c => isDecimal c || c == '.' || isSpace c) = x :: v := by
    rw [hcut, List.dropWhile_append_of_pos hall, List.dropWhile_cons_of_neg (by simp [hspace, hdigit, hpoint])]
  rw [List.dropWhile_cons_of_pos (by simp [hc])] at hdrop
  have hx' := h x (by rw [behindDigits, hdrop]; rfl)
  rw [hunit] at hx'
  cases hx'

theorem behindDigits_append {x : Char} {cs t : List Char} (h : x ∈ behindDigits cs) : x ∈ behindDigits (cs ++ t) := by
  obtain ⟨v, hv⟩ := List.head?_eq_some_iff.mp h
  rw [behindDigits, List.dropWhile_append, hv]
  rfl

theorem passes_before (s : StatedAmount) (t : List Char) : Passes amountPattern s.before t := by
  intro ys c zs hsplit
  cases hc : isDecimal c with
  | false => exact fails_amount c _ hc
  | true =>
    obtain ⟨x, hx, hunit⟩ := s.beforeNoUnit c zs ⟨ys, hsplit.symm⟩ hc
    refine fails_bare hc fun y hy => ?_
    rw [Option.mem_def, Option.mem_def.mp (behindDigits_append hx)] at hy
    exact Option.some.inj hy ▸ hunit

theorem findAll_bare {cs : List Char}
    (h : ∀ c zs, c :: zs <:+ cs → isDecimal c = true → ∀ x ∈ behindDigits zs, isUnit x = false) :
    findAll amountPattern cs = [] := by
  have hpasses : Passes amountPattern cs [] := by
    intro ys c zs hsplit
    rw [List.append_nil]
    cases hc : isDecimal c with
    | false => exact fails_amount c _ hc
    | true => exact fails_bare hc (h c zs ⟨ys, hsplit.symm⟩ hc)
  have hskip := findAll_skip hpasses
  rw [List.append_nil] at hskip
  exact hskip

/-- With 元 alone the first alternative fails, however the numeral is cut. -/
theorem takes_yuan {n : Numeral isDecimal} {gap rest : List Char}
    (hends : Ends n (gap ++ '元' :: rest)) (hgap : ∀ d ∈ gap, isSpace d = true) :
    Takes amountPattern (n.chars ++ (gap ++ '元' :: rest)) [(3, n.chars)] rest := by
  have hstop : Stops isSpace ('元' :: rest) := stops_cons.mpr (by decide)
  have hlarge : Stops (fun c => c == '万' || c == '亿') ((gap ++ '元' :: rest).dropWhile isSpace) := by
    rw [List.dropWhile_append_of_pos hgap, List.dropWhile_cons_of_neg (by decide)]
    exact stops_cons.mpr (by decide)
  refine takes_alt_right (fails_seq_left (fails_seq_left (fails_seq ?_))) ?_
  · exact (leaves_amount (fun c hc => by simp_all [isUnit]) hends hlarge).imp fun u hu =>
      fails_group (fails_largeUnit hu)
  · exact takes_seq (takes_seq (takes_group (n := 3) (takes_numeral digits_isDecimal hends))
      (takes_many hgap hstop)) (takes_sym (by decide))

/-- The pattern finds the amount that the text states, and nothing else. -/
theorem findAll_text (s : StatedAmount) : ∃ m, findAll amountPattern s.text.toList = [m] ∧
    matchedNumber m = s.numeral.chars ∧ unitOf m = s.printed.unit := by
  have hends := s.printed.ends_text digits_isDecimal s.numeral s.unitGiven s.after
  -- the character of the unit, and what the word adds to it
  have hword : ∃ w, s.printed.word = s.printed.unit.char :: w ∧
      ∀ c zs, c :: zs <:+ w ++ s.after → isDecimal c = true → c :: zs <:+ s.after := by
    rcases word_cases _ s.printed.wordPrinted s.unitGiven with hw | hw
    · exact ⟨[], hw, fun c zs h _ => h⟩
    · refine ⟨['元'], hw, fun c zs h hc => (List.suffix_cons_iff.mp h).resolve_left fun heq => ?_⟩
      rw [(List.cons.inj heq).1] at hc
      exact absurd hc (by decide)
  obtain ⟨w, hw, hrest⟩ := hword
  have hsplit : s.printed.chars ++ s.after =
      s.printed.gap ++ s.printed.unit.char :: (w ++ s.after) := by
    rw [PrintedUnit.chars, hw, List.append_assoc, List.cons_append]
  rw [hsplit] at hends
  have htake : ∃ m t, t <:+ w ++ s.after ∧
      Takes amountPattern (s.numeral.chars ++ (s.printed.gap ++ s.printed.unit.char :: (w ++ s.after)))
        m t ∧ matchedNumber m = s.numeral.chars ∧ unitOf m = s.printed.unit := by
    cases hu : s.printed.unit with
    | yuan =>
      rw [hu] at hends
      exact ⟨_, _, List.suffix_refl _, takes_yuan hends s.printed.gapSpaces, rfl, rfl⟩
    | wan =>
      rw [hu] at hends
      obtain ⟨t, ht, htake⟩ := takes_large hends s.printed.gapSpaces (by decide)
      exact ⟨_, t, ht, htake, rfl, rfl⟩
    | yi =>
      rw [hu] at hends
      obtain ⟨t, ht, htake⟩ := takes_large hends s.printed.gapSpaces (by decide)
      exact ⟨_, t, ht, htake, rfl, rfl⟩
  obtain ⟨m, t, ht, htake, hfound⟩ := htake
  have hnone : findAll amountPattern t = [] :=
    findAll_bare fun c zs hsuffix hc => s.afterNoUnit c zs (hrest c zs (hsuffix.trans ht) hc) hc
  obtain ⟨x, hx⟩ := ht
  have hwhole : s.numeral.chars ++ (s.printed.gap ++ s.printed.unit.char :: (w ++ s.after)) =
      (s.numeral.chars ++ s.printed.gap ++ s.printed.unit.char :: x) ++ t := by
    simp only [← hx, List.append_assoc, List.cons_append]
  refine ⟨m, ?_, hfound⟩
  rw [StatedAmount.text, String.toList_ofList, hsplit, findAll_skip (passes_before s _), hwhole,
    findAll_takes (by simp) (hwhole ▸ htake), hnone]

theorem amountsWan_text (s : StatedAmount) : amountsWan exact s.text = [s.amount.wan] := by
  obtain ⟨m, hfind, hnumber, hunit⟩ := findAll_text s
  have hyi : m.get 2 = some ['亿'] ↔ s.amount.unit = .yi := by
    rw [StatedAmount.amount, ← hunit, unitOf]
    by_cases hyi : m.get 2 = some ['亿']
    · simp [hyi]
    · by_cases hwan : m.get 2 = some ['万'] <;> simp [hyi, hwan]
  rw [amountsWan, hfind, List.map_singleton, hnumber, floatOf_chars digits_isDecimal, Amount.wan]
  simp only [exact, hyi, id_eq]
  rfl

/-- What the verifier should make of two texts that state an amount each. -/
structure UnitInvariant (s t : StatedAmount) : Prop where
  values : amountsWan exact s.text = amountsWan exact t.text ↔ s.amount.fen = t.amount.fen
  restated : s.amount.fen = t.amount.fen → ∀ claim evidence ids v, claim.text = s.text →
    evidence.text = t.text → verify exact claim [evidence] ids = .ok v → v.status ≠ .unsupported
  different : s.amount.fen ≠ t.amount.fen → ∀ claim evidence ids v, claim.text = s.text →
    evidence.text = t.text → verify exact claim [evidence] ids = .ok v → v.status ≠ .supported

/-- Both amounts are in yuan or neither is, or both are nothing, or the number of
yuan is neither the other's number of 万元 nor ten thousand times that. -/
def Commensurate (a b : Amount) : Prop :=
  (a.unit = .yuan ↔ b.unit = .yuan) ∨ (a.number = 0 ∧ b.number = 0) ∨
    (a.unit = .yuan ∧ a.number ≠ b.wan ∧ a.number ≠ 10000 * b.wan) ∨
    (b.unit = .yuan ∧ b.number ≠ a.wan ∧ b.number ≠ 10000 * a.wan)

theorem conflicts_of_unsupported {v : ClaimSupportVerification}
    (hv : verify A claim evidence evidenceIds = .ok v) (hs : v.status = .unsupported) :
    (idsOf evidence evidenceIds).length = evidence.length ∧
      conflictIds A (amountsWan A claim.text) evidence (idsOf evidence evidenceIds) ≠ [] := by
  have hamounts : (verifyAmounts A claim evidence (idsOf evidence evidenceIds)).status ≠ .unsupported := by
    rw [verifyAmounts]
    split
    · cases firstQualifier claim.text with
      | none => exact nofun
      | some q =>
        dsimp only
        split <;> exact nofun
    · exact nofun
  have htext : (verifyText claim evidence (idsOf evidence evidenceIds)).status ≠ .unsupported := by
    rw [verifyText]
    split <;> exact nofun
  have hlen := parallel_of_verify hv
  refine ⟨hlen, fun hnil => ?_⟩
  rw [verify, if_neg (not_not.mpr hlen), if_neg (not_not.mpr hnil)] at hv
  split at hv <;> cases hv
  · exact hamounts hs
  · exact htext hs

namespace Amount

theorem fen_of_yuan {a : Amount} (h : a.unit = .yuan) : a.fen = a.number * 100 ∧ a.wan = a.number := by
  simp [fen, wan, h, MoneyUnit.fen]

theorem fen_of_large {a : Amount} (h : a.unit ≠ .yuan) : a.fen = a.wan * 1000000 := by
  cases hu : a.unit with
  | yuan => exact absurd hu h
  | wan => simp [fen, wan, hu, MoneyUnit.fen]
  | yi =>
    simp only [fen, wan, hu, MoneyUnit.fen, if_true, WAN_PER_YI]
    ring

theorem wan_eq_zero {a : Amount} : a.wan = 0 ↔ a.number = 0 := by
  unfold wan
  split
  · rw [mul_eq_zero, or_iff_left (by norm_num [WAN_PER_YI])]
  · exact Iff.rfl

end Amount

/-- An amount in yuan against one in 万 or 亿. -/
theorem mixed_iff {a b : Amount} (ha : a.unit = .yuan) (hb : b.unit ≠ .yuan) :
    (a.wan = b.wan ↔ a.fen = b.fen) ↔
      (a.number = 0 ∧ b.number = 0) ∨ (a.number ≠ b.wan ∧ a.number ≠ 10000 * b.wan) := by
  obtain ⟨hfen, hwan⟩ := Amount.fen_of_yuan ha
  have heq : a.fen = b.fen ↔ a.number = 10000 * b.wan := by
    rw [hfen, Amount.fen_of_large hb]
    constructor <;> intro h <;> linarith
  rw [heq, hwan, ← Amount.wan_eq_zero (a := b)]
  constructor
  · intro h
    by_cases hn : a.number = b.wan
    · have hm := h.mp hn
      exact Or.inl ⟨by linarith, by linarith⟩
    · exact Or.inr ⟨hn, mt h.mpr hn⟩
  · rintro (⟨hn, hb⟩ | ⟨hn, hm⟩)
    · rw [hn, hb, mul_zero]
    · exact iff_of_false hn hm

theorem values_iff (a b : Amount) : (a.wan = b.wan ↔ a.fen = b.fen) ↔ Commensurate a b := by
  by_cases ha : a.unit = .yuan <;> by_cases hb : b.unit = .yuan
  · rw [(Amount.fen_of_yuan ha).1, (Amount.fen_of_yuan hb).1, (Amount.fen_of_yuan ha).2,
      (Amount.fen_of_yuan hb).2]
    exact iff_of_true ⟨fun h => by rw [h], fun h => by linarith⟩ (Or.inl ⟨fun _ => hb, fun _ => ha⟩)
  · rw [mixed_iff ha hb]
    simp [Commensurate, ha, hb]
  · have hswap : (a.wan = b.wan ↔ a.fen = b.fen) ↔ (b.wan = a.wan ↔ b.fen = a.fen) := by
      rw [eq_comm (a := a.wan), eq_comm (a := a.fen)]
    rw [hswap, mixed_iff hb ha]
    simp [Commensurate, ha, hb, and_comm]
  · rw [Amount.fen_of_large ha, Amount.fen_of_large hb]
    exact iff_of_true ⟨fun h => by rw [h], fun h => by linarith⟩
      (Or.inl ⟨fun h => absurd h ha, fun h => absurd h hb⟩)

theorem no_text {c : Char} {cs : List Char} {P : Prop} (h : c :: cs <:+ []) : P := by
  cases List.suffix_nil.mp h

theorem yuan_digits : ∀ c ∈ "6800000".toList, isDecimal c = true := Text.forall_of_all (by decide)

theorem wan_digits : ∀ c ∈ "680".toList, isDecimal c = true := Text.forall_of_all (by decide)

theorem no_fraction : ∀ c ∈ ([] : List Char), isDecimal c = true := by simp

theorem numerals_nonempty : "6800000".toList ≠ [] ∧ "680".toList ≠ [] := by decide

theorem yuan_given : yuanUnit.word ≠ [] := by decide

/-- 6800000 元 -/
def inYuan : StatedAmount where
  numeral := ⟨"6800000".toList, [], numerals_nonempty.1, yuan_digits, no_fraction⟩
  printed := yuanUnit
  beforeNoUnit _ _ h := no_text h
  afterNoUnit _ _ h := no_text h
  unitGiven := yuan_given

/-- 万元, printed without a blank -/
def wanUnit : PrintedUnit where
  unit := .wan
  word := ['万', '元']
  gapSpaces := no_gap
  wordPrinted := by decide
  gapBeforeWord := nofun

theorem wan_given : wanUnit.word ≠ [] := by decide

/-- 680 万元 -/
def inWan : StatedAmount where
  numeral := ⟨"680".toList, [], numerals_nonempty.2, wan_digits, no_fraction⟩
  printed := wanUnit
  beforeNoUnit _ _ h := no_text h
  afterNoUnit _ _ h := no_text h
  unitGiven := wan_given

end BidScope.L8
