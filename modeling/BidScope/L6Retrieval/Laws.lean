import Mathlib.Data.List.TakeWhile
import BidScope.L2Graph.Duplicates

/-!
# Laws of the detectors

`retrieval/deduplication.py` decides two questions about a pair of views:
whether they are one notice (`classifyDuplicate`) and what has changed from one
to the other (`detectMaterialChanges`).

* `classification_lawful_iff`: the decision does not depend on the order of the
  two views always; it does not depend on how a missing project number is
  written, and `distinct` rests on two usable numbers, exactly when a ground for
  `exact` or the lack of a conflict settles the pair, or no number is blank in a
  pair that has both. The exact half strips the numbers, the distinct half
  reads them as they are.
* `changes_reported_iff`: formatting is never reported and every material
  difference is, exactly when equal amounts come in equal currencies and claim
  texts that differ in nothing but formatting do not differ. The currency is
  not compared; the claim texts are compared as written.
-/
namespace BidScope.L6

open BidScope.L1 BidScope.L2

variable {lib : Lib}

/-! ## White space around a text -/

theorem strip_padded {l r : String} (s : String) (hl : ∀ c ∈ l.toList, isSpace c = true)
    (hr : ∀ c ∈ r.toList, isSpace c = true) : strip (l ++ s ++ r) = strip s := by
  have hr' : ∀ c ∈ r.toList.reverse, isSpace c = true := fun c hc => hr c (List.mem_reverse.mp hc)
  have hnil : r.toList.dropWhile isSpace = [] := List.dropWhile_eq_nil_iff.mpr hr
  unfold strip
  rw [String.toList_append, String.toList_append, List.append_assoc,
    List.dropWhile_append_of_pos hl, List.dropWhile_append]
  split
  · next hs =>
    rw [hnil, List.isEmpty_iff.mp hs]
  · rw [List.reverse_append, List.dropWhile_append_of_pos hr']

/-! ## Duplicates -/

/-- The project number without the white space around it, empty for none. -/
def number (v : NoticeView) : String := strip (orEmpty v.projectNumber)

/-- A ground on which two views are `exact` duplicates. -/
def ExactGround (lib : Lib) (ids : List (String × String)) (a b : NoticeView) : Prop :=
  StrongEvidence lib a b ∨ Mapped ids a b

/-- Purchaser, budget or region conflict. -/
def FieldConflict (lib : Lib) (a b : NoticeView) : Prop :=
  normalizeText lib a.purchaser ≠ normalizeText lib b.purchaser ∨
    a.budgetMinorUnits ≠ b.budgetMinorUnits ∨
    normalizeText lib a.region ≠ normalizeText lib b.region

/-- The same view with its project number written another way: a blank one left
out, or white space put around it. -/
inductive Rewritten : NoticeView → NoticeView → Prop where
  | blank (v : NoticeView) (s : String) (hs : v.projectNumber = some s) (hblank : strip s = "") :
    Rewritten v { v with projectNumber := none }
  | padded (v : NoticeView) (l s r : String) (hs : v.projectNumber = some s)
    (hl : ∀ c ∈ l.toList, isSpace c = true) (hr : ∀ c ∈ r.toList, isSpace c = true) :
    Rewritten v { v with projectNumber := some (l ++ s ++ r) }

/-- The laws of the classification, for one pair. -/
structure LawfulPair (lib : Lib) (ids : List (String × String)) (a b : NoticeView) : Prop where
  symmetric : (classifyDuplicate lib a b ids).decision = (classifyDuplicate lib b a ids).decision
  candidate : ∀ a', Rewritten a a' →
    (classifyDuplicate lib a' b ids).decision = (classifyDuplicate lib a b ids).decision
  existing : ∀ b', Rewritten b b' →
    (classifyDuplicate lib a b' ids).decision = (classifyDuplicate lib a b ids).decision
  distinct : (classifyDuplicate lib a b ids).decision = .distinct →
    ¬ ExactGround lib ids a b ∧ number a ≠ "" ∧ number b ≠ "" ∧ number a ≠ number b

/-- No project number is blank in a pair that has both, or both are empty. -/
def NumbersUsable (a b : NoticeView) : Prop :=
  a.projectNumber = none ∨ b.projectNumber = none ∨ (number a ≠ "" ∧ number b ≠ "") ∨
    (a.projectNumber = some "" ∧ b.projectNumber = some "")

variable {ids : List (String × String)} {a b v w : NoticeView}

theorem number_rewritten (h : Rewritten v w) : number w = number v := by
  cases h with
  | blank s hs hblank => simp only [number, hs, orEmpty, Option.getD_some, hblank]; rfl
  | padded l s r hs hl hr => simp only [number, hs, orEmpty, Option.getD_some, strip_padded s hl hr]

theorem ground_congr {w' : NoticeView} (hsource : w'.source = w.source)
    (hurl : w'.canonicalUrl = w.canonicalUrl) (hhash : w'.contentHash = w.contentHash)
    (hnumber : number w' = number w) :
    ExactGround lib ids v w' ↔ ExactGround lib ids v w := by
  have hn : strip (orEmpty w'.projectNumber) = strip (orEmpty w.projectNumber) := hnumber
  unfold ExactGround StrongEvidence Mapped
  rw [hsource, hurl, hhash, hn]

theorem ground_rewritten {w' : NoticeView} (h : Rewritten w w') :
    ExactGround lib ids v w' ↔ ExactGround lib ids v w := by
  have hnumber := number_rewritten h
  cases h <;> exact ground_congr rfl rfl rfl hnumber

theorem fieldConflict_rewritten {w' : NoticeView} (h : Rewritten w w') :
    FieldConflict lib v w' ↔ FieldConflict lib v w := by
  cases h <;> exact Iff.rfl

theorem ground_comm : ExactGround lib ids v w ↔ ExactGround lib ids w v :=
  ⟨fun h => h.imp strongEvidence_comm mapped_comm, fun h => h.imp strongEvidence_comm mapped_comm⟩

theorem fieldConflict_comm : FieldConflict lib v w ↔ FieldConflict lib w v := by
  unfold FieldConflict
  rw [ne_comm, ne_comm (a := v.budgetMinorUnits), ne_comm (a := normalizeText lib v.region)]

theorem conflict_iff : Conflict lib v w ↔
    truthy v.projectNumber = true ∧ truthy w.projectNumber = true ∧
      v.projectNumber ≠ w.projectNumber ∧ FieldConflict lib v w := Iff.rfl

theorem truthy_of_number (h : number v ≠ "") : truthy v.projectNumber = true := by
  have hne : orEmpty v.projectNumber ≠ "" := by
    intro he
    refine h ?_
    rw [number, he]
    rfl
  simpa only [truthy, bne_iff_ne, ne_eq] using hne

theorem distinct_iff : (classifyDuplicate lib v w ids).decision = .distinct ↔
    ¬ ExactGround lib ids v w ∧ Conflict lib v w := by
  rcases classifyDuplicate_ids_cases lib v w ids with ⟨hg, h⟩ | ⟨hg, hc, h⟩ | ⟨hg, hc, h⟩
  · simp only [h, reduceCtorEq, false_iff, not_and]
    exact fun hn => absurd hg hn
  · simp only [h, true_iff]
    exact ⟨hg, hc⟩
  · simp only [h, reduceCtorEq, false_iff, not_and]
    exact fun _ => hc

theorem decision_congr {v' w' : NoticeView}
    (hg : ExactGround lib ids v' w' ↔ ExactGround lib ids v w)
    (hc : ¬ ExactGround lib ids v w → (Conflict lib v' w' ↔ Conflict lib v w)) :
    (classifyDuplicate lib v' w' ids).decision = (classifyDuplicate lib v w ids).decision := by
  rcases classifyDuplicate_ids_cases lib v w ids with ⟨hs, h⟩ | ⟨hs, hcon, h⟩ | ⟨hs, hcon, h⟩ <;>
    rcases classifyDuplicate_ids_cases lib v' w' ids with
      ⟨hs', h'⟩ | ⟨hs', hcon', h'⟩ | ⟨hs', hcon', h'⟩ <;>
    rw [h, h']
  · exact absurd (hg.mpr hs) hs'
  · exact absurd (hg.mpr hs) hs'
  · exact absurd (hg.mp hs') hs
  · exact absurd ((hc hs).mpr hcon) hcon'
  · exact absurd (hg.mp hs') hs
  · exact absurd ((hc hs).mp hcon') hcon

theorem truthy_none (h : v.projectNumber = none) : truthy v.projectNumber = false := by
  rw [h]
  rfl

/-- Without a ground, two usable numbers differ, and the conflict is one of fields. -/
theorem conflict_of_numbers (hg : ¬ ExactGround lib ids v w) (hv : number v ≠ "")
    (hw : number w ≠ "") : Conflict lib v w ↔ FieldConflict lib v w := by
  rw [conflict_iff]
  refine ⟨fun h => h.2.2.2, fun h => ⟨truthy_of_number hv, truthy_of_number hw, fun he => hg ?_, h⟩⟩
  have hnumber : number v = number w := by rw [number, number, he]
  exact Or.inl (Or.inr (Or.inl ⟨hv, hnumber⟩))

theorem not_rewritten_none (h : v.projectNumber = none) : ¬ Rewritten v w := by
  intro hr
  cases hr with
  | blank s hs => exact absurd (h.symm.trans hs) nofun
  | padded l s r hs => exact absurd (h.symm.trans hs) nofun

/-- The existing view written another way, where the pair is settled by the
fields or the numbers are usable. -/
theorem decision_rewritten {w' : NoticeView} (hr : Rewritten w w')
    (hok : ExactGround lib ids v w ∨ ¬ FieldConflict lib v w ∨ NumbersUsable v w) :
    (classifyDuplicate lib v w' ids).decision = (classifyDuplicate lib v w ids).decision := by
  have hground : ExactGround lib ids v w' ↔ ExactGround lib ids v w := ground_rewritten hr
  refine decision_congr hground fun hg => ?_
  rcases hok with h | hf | hv | hw | ⟨hv, hw⟩ | ⟨hv, -⟩
  · exact absurd h hg
  · -- nothing conflicts
    have hf' := mt (fieldConflict_rewritten hr).mp hf
    exact ⟨fun h => absurd h.2.2.2 hf', fun h => absurd h.2.2.2 hf⟩
  · have ht := Bool.eq_false_iff.mp (truthy_none hv)
    exact ⟨fun h => absurd h.1 ht, fun h => absurd h.1 ht⟩
  · exact absurd hr (not_rewritten_none hw)
  · have hg' : ¬ ExactGround lib ids v w' := mt hground.mp hg
    have hw' : number w' ≠ "" := (number_rewritten hr).symm ▸ hw
    rw [conflict_of_numbers hg' hv hw', conflict_of_numbers hg hv hw, fieldConflict_rewritten hr]
  · have ht : truthy v.projectNumber ≠ true := by
      rw [hv]
      decide
    exact ⟨fun h => absurd h.1 ht, fun h => absurd h.1 ht⟩

/-- With enough blanks before it, a text is neither empty nor a given other one. -/
theorem exists_padded (s t : String) : ∃ l : String, (∀ c ∈ l.toList, isSpace c = true) ∧
    l ++ s ++ "" ≠ t ∧ l ++ s ++ "" ≠ "" := by
  have hlen : ∀ u : String, String.ofList (List.replicate (t.toList.length + 1) ' ') ++ s ++ "" = u →
      t.toList.length < u.toList.length := by
    rintro u rfl
    simp only [String.append_empty, String.toList_append, String.toList_ofList, List.length_append,
      List.length_replicate]
    omega
  refine ⟨String.ofList (List.replicate (t.toList.length + 1) ' '), ?_, ?_, ?_⟩
  · intro c hc
    rw [String.toList_ofList] at hc
    rw [List.eq_of_mem_replicate hc]
    decide
  · exact fun he => lt_irrefl _ (hlen t he)
  · exact fun he => Nat.not_lt_zero _ (hlen "" he)

theorem truthy_some {s : String} (h : v.projectNumber = some s) :
    truthy v.projectNumber = true ↔ s ≠ "" := by
  rw [h]
  simp only [truthy, orEmpty, Option.getD_some, bne_iff_ne, ne_eq]

/-- A number that is empty, or the other view's, becomes a conflicting one when
white space is put around it. -/
theorem padded_distinct {s t : String} (hg : ¬ ExactGround lib ids v w)
    (hf : FieldConflict lib v w) (hv : v.projectNumber = some t) (ht : t ≠ "")
    (hw : w.projectNumber = some s) (hs : s = "" ∨ s = t) :
    ∃ w', Rewritten w w' ∧
      (classifyDuplicate lib v w' ids).decision ≠ (classifyDuplicate lib v w ids).decision := by
  obtain ⟨l, hl, hne, hne'⟩ := exists_padded s t
  have hr := Rewritten.padded w l s "" hw hl (by simp)
  have hnone : ¬ Conflict lib v w := by
    rintro ⟨-, htruthy, hdiffer, -⟩
    rcases hs with rfl | rfl
    · exact (truthy_some hw).mp htruthy rfl
    · exact hdiffer (hv.trans hw.symm)
  have hground : ExactGround lib ids v _ ↔ ExactGround lib ids v w := ground_rewritten hr
  have hdistinct := distinct_iff.mpr ⟨mt hground.mp hg,
    (truthy_some hv).mpr ht, (truthy_some rfl).mpr hne',
    fun he => hne (Option.some.inj (hv.symm.trans he)).symm, (fieldConflict_rewritten hr).mpr hf⟩
  refine ⟨_, hr, ?_⟩
  rw [hdistinct]
  exact fun he => hnone (distinct_iff.mp he.symm).2

theorem numbersUsable_comm (h : NumbersUsable v w) : NumbersUsable w v := by
  rcases h with h | h | ⟨hv, hw⟩ | ⟨hv, hw⟩
  · exact Or.inr (Or.inl h)
  · exact Or.inl h
  · exact Or.inr (Or.inr (Or.inl ⟨hw, hv⟩))
  · exact Or.inr (Or.inr (Or.inr ⟨hw, hv⟩))

theorem distinct_numbers (hok : ExactGround lib ids v w ∨ ¬ FieldConflict lib v w ∨ NumbersUsable v w)
    (hd : (classifyDuplicate lib v w ids).decision = .distinct) :
    ¬ ExactGround lib ids v w ∧ number v ≠ "" ∧ number w ≠ "" ∧ number v ≠ number w := by
  obtain ⟨hg, htv, htw, hne, hf⟩ := distinct_iff.mp hd
  refine ⟨hg, ?_⟩
  rcases hok with h | h | hv | hw | ⟨hv, hw⟩ | ⟨hv, -⟩
  · exact absurd h hg
  · exact absurd hf h
  · exact absurd htv (Bool.eq_false_iff.mp (truthy_none hv))
  · exact absurd htw (Bool.eq_false_iff.mp (truthy_none hw))
  · exact ⟨hv, hw, fun he => hg (Or.inl (Or.inr (Or.inl ⟨hv, he⟩)))⟩
  · exact absurd rfl ((truthy_some hv).mp htv)

/-- **Duplicate classification.** The laws hold of a pair exactly when a ground
for `exact` or the lack of a conflict settles it, or its numbers are usable. -/
theorem classification_lawful_iff (lib : Lib) (ids : List (String × String)) (a b : NoticeView) :
    LawfulPair lib ids a b ↔
      ExactGround lib ids a b ∨ ¬ FieldConflict lib a b ∨ NumbersUsable a b := by
  constructor
  · intro h
    by_contra hnot
    obtain ⟨hg, hnot⟩ := not_or.mp hnot
    obtain ⟨hf, hu⟩ := not_or.mp hnot
    have hf := not_not.mp hf
    cases ha : a.projectNumber with
    | none => exact hu (Or.inl ha)
    | some s =>
      cases hb : b.projectNumber with
      | none => exact hu (Or.inr (Or.inl hb))
      | some t =>
        by_cases hs : s = ""
        · subst hs
          have ht : t ≠ "" := fun ht => hu (Or.inr (Or.inr (Or.inr ⟨ha, hb.trans (by rw [ht])⟩)))
          obtain ⟨a', hr, hne⟩ := padded_distinct (mt ground_comm.mp hg) (fieldConflict_comm.mp hf)
            hb ht ha (Or.inl rfl)
          refine hne ?_
          rw [classifyDuplicate_comm lib b a', classifyDuplicate_comm lib b a]
          exact h.candidate a' hr
        · by_cases hts : t = "" ∨ t = s
          · obtain ⟨b', hr, hne⟩ := padded_distinct hg hf ha hs hb hts
            exact hne (h.existing b' hr)
          · -- both are numbers to the code, and they differ as written
            obtain ⟨ht, hts⟩ := not_or.mp hts
            have hd := h.distinct (distinct_iff.mpr ⟨hg, (truthy_some ha).mpr hs,
              (truthy_some hb).mpr ht, fun he => hts (Option.some.inj (ha.symm.trans
                (he.trans hb))).symm, hf⟩)
            exact hu (Or.inr (Or.inr (Or.inl ⟨hd.2.1, hd.2.2.1⟩)))
  · intro hok
    refine ⟨classifyDuplicate_comm lib a b ids, fun a' hr => ?_, fun b' hr => decision_rewritten hr hok,
      distinct_numbers hok⟩
    rw [classifyDuplicate_comm lib a' b, classifyDuplicate_comm lib a b]
    exact decision_rewritten hr (hok.imp ground_comm.mp
      (Or.imp (mt fieldConflict_comm.mpr) numbersUsable_comm))

/-- A notice of one purchaser, with a project number of blanks. -/
def blankNotice : NoticeView :=
  ⟨"ccgp", "1", "https://a/1", some "  ", "h1", none, some "X", none, none, none, none, none, false, []⟩

/-- A notice of another purchaser. -/
def otherNotice : NoticeView :=
  ⟨"ggzy", "2", "https://b/2", some "A", "h2", none, some "Y", none, none, none, none, none, false, []⟩

/-- A blank project number makes two notices distinct. -/
theorem blank_number_distinct :
    (classifyDuplicate asciiLib blankNotice otherNotice []).decision = .distinct ∧
      number blankNotice = "" ∧ Rewritten blankNotice { blankNotice with projectNumber := none } ∧
      (classifyDuplicate asciiLib { blankNotice with projectNumber := none } otherNotice []).decision =
        .ambiguous ∧
      ¬ LawfulPair asciiLib [] blankNotice otherNotice := by
  have hd : (classifyDuplicate asciiLib blankNotice otherNotice []).decision = .distinct := by decide
  refine ⟨hd, by decide, .blank blankNotice "  " rfl (by decide), by decide, fun h => ?_⟩
  exact (h.distinct hd).2.1 (by decide)

/-! ## Material changes -/

/-- The texts agree one by one, up to normalisation. -/
def SameTexts (lib : Lib) (old new : List String) : Prop :=
  old.map (fun t => normalizeText lib (some t)) = new.map (fun t => normalizeText lib (some t))

/-- Every text agrees up to normalisation, and every other field is equal. -/
structure FormattingOnly (lib : Lib) (old new : NoticeView) : Prop where
  fields : SameFields lib old new
  title : normalizeText lib old.title = normalizeText lib new.title
  currency : old.budgetCurrency = new.budgetCurrency
  claimTexts : SameTexts lib old.claimSupportingTexts new.claimSupportingTexts

/-- The field differs materially. -/
inductive Differs (lib : Lib) (old new : NoticeView) : MaterialChangeType → Prop where
  | deadline (h : Datetime.same old.deadline new.deadline = false) : Differs lib old new .deadline
  | amount (h : old.budgetMinorUnits ≠ new.budgetMinorUnits) : Differs lib old new .budget
  | currency (h : old.budgetCurrency ≠ new.budgetCurrency) : Differs lib old new .budget
  | region (h : normalizeText lib old.region ≠ normalizeText lib new.region) :
    Differs lib old new .region
  | purchaser (h : normalizeText lib old.purchaser ≠ normalizeText lib new.purchaser) :
    Differs lib old new .purchaser
  | scope (h : normalizeText lib old.procurementScope ≠ normalizeText lib new.procurementScope) :
    Differs lib old new .scope
  | cancellation (h : old.cancellation ≠ new.cancellation) : Differs lib old new .cancellation
  | claimTexts (h : ¬ SameTexts lib old.claimSupportingTexts new.claimSupportingTexts) :
    Differs lib old new .claimEvidence

/-- Formatting is never reported, a material difference always under its field. -/
structure Reported (lib : Lib) (old new : NoticeView) : Prop where
  quiet : FormattingOnly lib old new → detectMaterialChanges lib old new = []
  complete : ∀ field, Differs lib old new field →
    ∃ change ∈ detectMaterialChanges lib old new, change.field = field

/-- Equal amounts are in equal currencies, and the claim texts of versions that
differ in nothing but formatting are written alike. -/
structure WrittenAlike (lib : Lib) (old new : NoticeView) : Prop where
  currency : old.budgetMinorUnits = new.budgetMinorUnits → old.budgetCurrency = new.budgetCurrency
  claimTexts : FormattingOnly lib old new → old.claimSupportingTexts = new.claimSupportingTexts

variable {old new : NoticeView}

theorem mem_changeIf {changed : Prop} [Decidable changed] {field : MaterialChangeType}
    {before after : String} {change : MaterialChange} :
    change ∈ changeIf changed field before after ↔ changed ∧ change = ⟨field, before, after⟩ := by
  unfold changeIf
  split <;> simp_all

/-- A field is named when its own comparison finds a difference. -/
theorem named_iff (field : MaterialChangeType) :
    (∃ change ∈ detectMaterialChanges lib old new, change.field = field) ↔
      match field with
      | .deadline => Datetime.same old.deadline new.deadline = false
      | .budget => old.budgetMinorUnits ≠ new.budgetMinorUnits
      | .region => normalizeText lib old.region ≠ normalizeText lib new.region
      | .purchaser => normalizeText lib old.purchaser ≠ normalizeText lib new.purchaser
      | .scope => normalizeText lib old.procurementScope ≠ normalizeText lib new.procurementScope
      | .cancellation => old.cancellation ≠ new.cancellation
      | .claimEvidence => old.claimSupportingTexts ≠ new.claimSupportingTexts
      | .contentHash => False := by
  simp only [detectMaterialChanges, List.mem_append, mem_changeIf, or_and_right, exists_or]
  cases field <;> simp

/-- A difference in the texts after normalisation is one as written. -/
theorem claimTexts_ne (h : ¬ SameTexts lib old.claimSupportingTexts new.claimSupportingTexts) :
    old.claimSupportingTexts ≠ new.claimSupportingTexts := fun he => h (by rw [SameTexts, he])

theorem complete_of_currency
    (h : old.budgetMinorUnits = new.budgetMinorUnits → old.budgetCurrency = new.budgetCurrency)
    (field : MaterialChangeType) (hd : Differs lib old new field) :
    ∃ change ∈ detectMaterialChanges lib old new, change.field = field := by
  rw [named_iff]
  cases hd with
  | currency hne => exact fun he => hne (h he)
  | claimTexts hne => exact claimTexts_ne hne
  | deadline hne => exact hne
  | amount hne => exact hne
  | region hne => exact hne
  | purchaser hne => exact hne
  | scope hne => exact hne
  | cancellation hne => exact hne

/-- **Material changes.** Formatting is never reported and no material change
is missed, exactly between versions where equal amounts are in equal currencies
and claim texts that differ in formatting only, and alone, do not differ. -/
theorem changes_reported_iff (lib : Lib) (old new : NoticeView) :
    Reported lib old new ↔ WrittenAlike lib old new := by
  constructor
  · intro h
    refine ⟨fun hamount => ?_, fun hf => ?_⟩
    · by_contra hne
      exact (named_iff .budget).mp (h.complete .budget (.currency hne)) hamount
    · exact ((detectMaterialChanges_eq_nil lib old new).mp (h.quiet hf)).2
  · intro h
    exact ⟨fun hf => (detectMaterialChanges_eq_nil lib old new).mpr ⟨hf.fields, h.claimTexts hf⟩,
      complete_of_currency h.currency⟩

/-- A notice with a budget and a supporting text. -/
def pricedNotice : NoticeView :=
  { otherNotice with
    budgetMinorUnits := some 5000000, budgetCurrency := some "CNY",
    claimSupportingTexts := ["预算 5 万元"] }

/-- The same amount in another currency is not reported; a second blank in a
supporting text is. -/
theorem currency_missed :
    detectMaterialChanges asciiLib pricedNotice { pricedNotice with budgetCurrency := some "USD" } = [] ∧
      ¬ Reported asciiLib pricedNotice { pricedNotice with budgetCurrency := some "USD" } ∧
      (detectMaterialChanges asciiLib pricedNotice
        { pricedNotice with claimSupportingTexts := ["预算  5 万元"] }).map (·.field) =
          [.claimEvidence] ∧
      ¬ Reported asciiLib pricedNotice
        { pricedNotice with claimSupportingTexts := ["预算  5 万元"] } := by
  refine ⟨by decide, fun h => ?_, by decide, fun h => ?_⟩
  · have hnamed := h.complete .budget (.currency (by decide))
    exact (named_iff .budget).mp hnamed rfl
  · have hf : FormattingOnly asciiLib pricedNotice
        { pricedNotice with claimSupportingTexts := ["预算  5 万元"] } :=
      ⟨⟨by decide, rfl, rfl, rfl, rfl, rfl⟩, rfl, rfl, by
        show List.map _ _ = List.map _ _
        decide⟩
    exact absurd ((detectMaterialChanges_eq_nil ..).mp (h.quiet hf)).2 (by decide)

end BidScope.L6
