import BidScope.L8Models.DeepSeek

/-!
# The model's verdict as a record

`DeepSeekSemanticVerifier.verify` sends the evidence under `[index]` labels and
asks for answers by label; `_sanitize` keeps the ids of the answer that are
citation ids of the claim.

* `sanitize_eq`: whatever the model answers, a record comes back that meets the
  contract of `__post_init__`.
* `recorded_iff`: the ids in the record are the claim's, and those of the labels
  the answer uses, exactly when the claim cites evidence (or the answer no id)
  and every label used is itself the citation id of the evidence it stands for.
-/
namespace BidScope.L8

open BidScope.L1

/-- mirrors evidence/deepseek_verifier.py:46-63 -/
structure ClaimSupportVerificationWire where
  status : ClaimSupportStatus
  rationale : String
  evidenceIdsUsed : List String := []
  conflictEvidenceIds : List String := []
  deriving DecidableEq, Repr

/-- The record, or the message of the `ValueError`.
mirrors evidence/semantic_verifier.py:40-55 -/
def newVerification (status : ClaimSupportStatus) (rationale : String)
    (evidenceIdsUsed conflictEvidenceIds : List String) (verifierVersion : String) :
    Except String ClaimSupportVerification :=
  if hr : strip rationale = "" then .error "rationale cannot be empty or whitespace"
  else if hv : strip verifierVersion = "" then .error "verifier_version cannot be empty or whitespace"
  else if hs : status ≠ .unsupported ∧ conflictEvidenceIds ≠ [] then
    .error "conflict_evidence_ids must be empty unless status is UNSUPPORTED"
  else if hc : ∃ i ∈ conflictEvidenceIds, i ∉ evidenceIdsUsed then
    .error "conflict_evidence_ids must be a subset of evidence_ids_used"
  else
    .ok ⟨status, rationale, evidenceIdsUsed, conflictEvidenceIds, verifierVersion, hr, hv,
      fun h => not_not.mp fun hne => hs ⟨h, hne⟩, fun i hi => not_not.mp fun hne => hc ⟨i, hi, hne⟩⟩

/-- mirrors evidence/deepseek_verifier.py:128-159 -/
def sanitize (wire : ClaimSupportVerificationWire) (allowedIds : List String) (version : String) :
    Except String ClaimSupportVerification :=
  let used := if allowedIds ≠ [] then wire.evidenceIdsUsed.filter (allowedIds.contains ·)
    else wire.evidenceIdsUsed
  let conflict := if allowedIds ≠ [] then
      wire.conflictEvidenceIds.filter fun i => allowedIds.contains i && used.contains i
    else wire.conflictEvidenceIds.filter (used.contains ·)
  let conflict := if wire.status ≠ .unsupported then [] else conflict
  let rationale := if strip wire.rationale ≠ "" then strip wire.rationale else "（无理由）"
  newVerification wire.status rationale used conflict version

/-- `answer` is the structured answer of the model to a prompt.
mirrors evidence/deepseek_verifier.py:80-113 -/
def verifyByModel (model : String) (answer : Prompt → ClaimSupportVerificationWire)
    (claim : ReportClaim) (evidence : List NoticeEvidence) (evidenceIds : Option (List String)) :
    Except String ClaimSupportVerification :=
  sanitize (answer (verifyPrompt claim evidence)) (evidenceIds.getD []) (model ++ "-semantic-v1")

/-! ## The record -/

/-- The ids of the answer that are allowed; with none allowed, all. -/
def usedIds (wire : ClaimSupportVerificationWire) (allowedIds : List String) : List String :=
  if allowedIds ≠ [] then wire.evidenceIdsUsed.filter (allowedIds.contains ·)
  else wire.evidenceIdsUsed

/-- The conflict ids among them, of an unsupported claim. -/
def conflictIdsOf (wire : ClaimSupportVerificationWire) (allowedIds : List String) : List String :=
  if wire.status ≠ .unsupported then []
  else wire.conflictEvidenceIds.filter ((usedIds wire allowedIds).contains ·)

variable {wire : ClaimSupportVerificationWire} {allowedIds : List String}

theorem mem_usedIds {i : String} (h : i ∈ usedIds wire allowedIds) (hne : allowedIds ≠ []) :
    i ∈ allowedIds := by
  rw [usedIds, if_pos hne] at h
  exact List.contains_iff_mem.mp (List.mem_filter.mp h).2

theorem conflictIdsOf_subset : ∀ i ∈ conflictIdsOf wire allowedIds, i ∈ usedIds wire allowedIds := by
  intro i hi
  unfold conflictIdsOf at hi
  split at hi
  · cases hi
  · exact List.contains_iff_mem.mp (List.mem_filter.mp hi).2

/-- Filtering by the allowed ids adds nothing to filtering by the used ones. -/
theorem filter_allowed (ids : List String) :
    (if allowedIds ≠ [] then
        ids.filter fun i => allowedIds.contains i && (usedIds wire allowedIds).contains i
      else ids.filter ((usedIds wire allowedIds).contains ·)) =
      ids.filter ((usedIds wire allowedIds).contains ·) := by
  split
  · next hne =>
    refine List.filter_congr fun i _ => ?_
    cases hc : (usedIds wire allowedIds).contains i with
    | false => rw [Bool.and_false]
    | true =>
      rw [List.contains_iff_mem.mpr (mem_usedIds (List.contains_iff_mem.mp hc) hne), Bool.and_true]
  · rfl

theorem rationale_nonblank (text : String) :
    strip (if strip text ≠ "" then strip text else "（无理由）") ≠ "" := by
  split
  · next h =>
    obtain ⟨c, hc, hspace⟩ := exists_of_strip_ne h
    exact strip_ne_empty hc hspace
  · decide

theorem version_nonblank_of_model (model : String) : strip (model ++ "-semantic-v1") ≠ "" := by
  have hmem : '-' ∈ (model ++ "-semantic-v1").toList := by
    rw [String.toList_append]
    exact List.mem_append_right _ (by decide)
  exact strip_ne_empty hmem (by decide)

/-- **No answer is refused**: the record is built from the ids that may stand in it. -/
theorem sanitize_eq {version : String} (hversion : strip version ≠ "") :
    ∃ v, sanitize wire allowedIds version = .ok v ∧ v.status = wire.status ∧
      v.evidenceIdsUsed = usedIds wire allowedIds ∧
      v.conflictEvidenceIds = conflictIdsOf wire allowedIds ∧ v.verifierVersion = version := by
  have hconflict : conflictIdsOf wire allowedIds =
      if wire.status ≠ .unsupported then []
      else if allowedIds ≠ [] then
        wire.conflictEvidenceIds.filter fun i =>
          allowedIds.contains i && (usedIds wire allowedIds).contains i
      else wire.conflictEvidenceIds.filter ((usedIds wire allowedIds).contains ·) := by
    rw [filter_allowed]
    rfl
  have hsanitize : sanitize wire allowedIds version =
      newVerification wire.status (if strip wire.rationale ≠ "" then strip wire.rationale else "（无理由）")
        (usedIds wire allowedIds) (conflictIdsOf wire allowedIds) version := by
    rw [hconflict]
    rfl
  have hstatus : ¬ (wire.status ≠ .unsupported ∧ conflictIdsOf wire allowedIds ≠ []) := by
    rintro ⟨hs, hne⟩
    exact hne (if_pos hs)
  have hsubset : ¬ ∃ i ∈ conflictIdsOf wire allowedIds, i ∉ usedIds wire allowedIds := by
    rintro ⟨i, hi, hnot⟩
    exact hnot (conflictIdsOf_subset i hi)
  rw [hsanitize, newVerification, dif_neg (rationale_nonblank _), dif_neg hversion, dif_neg hstatus,
    dif_neg hsubset]
  exact ⟨_, rfl, rfl, rfl, rfl, rfl⟩

/-! ## Labels -/

/-- How an answer may write the label of the evidence at an index: as the prompt
prints it, or the index alone. -/
inductive Spelling where
  | bracketed | bare
  deriving DecidableEq, Repr

def Spelling.label : Spelling → Nat → String
  | .bracketed, i => "[" ++ toString i ++ "]"
  | .bare, i => toString i

/-- The answer refers to evidence by its labels, as the prompt demands: `used`
and, of an unsupported claim, `conflicts` among them. -/
structure ByLabel (wire : ClaimSupportVerificationWire) (n : Nat) (spelling : Spelling)
    (used conflicts : List Nat) : Prop where
  inRange : ∀ i ∈ used, i < n
  usedLabels : wire.evidenceIdsUsed = used.map spelling.label
  conflictLabels : wire.conflictEvidenceIds = conflicts.map spelling.label
  conflictsUsed : ∀ i ∈ conflicts, i ∈ used
  conflictsUnsupported : wire.status ≠ .unsupported → conflicts = []

/-- What the record of a verdict must be, for evidence with its citation ids. -/
structure Recorded (cited : List (String × NoticeEvidence)) (wire : ClaimSupportVerificationWire)
    (v : ClaimSupportVerification) : Prop where
  usedCited : ∀ i ∈ v.evidenceIdsUsed, i ∈ cited.map (·.1)
  conflictsUsed : ∀ i ∈ v.conflictEvidenceIds, i ∈ v.evidenceIdsUsed
  conflictsUnsupported : v.status ≠ .unsupported → v.conflictEvidenceIds = []
  labels : ∀ spelling used conflicts, ByLabel wire cited.length spelling used conflicts →
    v.evidenceIdsUsed.map some = used.map (fun i => (cited.map (·.1))[i]?) ∧
    v.conflictEvidenceIds.map some = conflicts.map (fun i => (cited.map (·.1))[i]?)

/-- The answer can be read back: there is evidence for the ids it uses, and the
labels it uses are citation ids of the evidence they stand for. -/
structure LabelsAreIds (cited : List (String × NoticeEvidence)) (wire : ClaimSupportVerificationWire) :
    Prop where
  evidence : cited = [] → wire.evidenceIdsUsed = []
  labels : ∀ spelling used conflicts, ByLabel wire cited.length spelling used conflicts →
    ∀ i ∈ used, (cited.map (·.1))[i]? = some (spelling.label i)

/-- Labels that are the ids they stand for are kept, all of them. -/
theorem usedIds_labels {ids : List String} {label : Nat → String} {used : List Nat}
    (hw : wire.evidenceIdsUsed = used.map label)
    (h : ∀ i ∈ used, ids[i]? = some (label i)) : usedIds wire ids = used.map label := by
  unfold usedIds
  split
  · rw [hw, List.filter_eq_self]
    intro id hid
    obtain ⟨i, hi, rfl⟩ := List.mem_map.mp hid
    exact List.contains_iff_mem.mpr (List.mem_of_getElem? (h i hi))
  · exact hw

theorem map_label_eq {ids : List String} {label : Nat → String} {used : List Nat} :
    (used.map label).map some = used.map (fun i => ids[i]?) ↔ ∀ i ∈ used, ids[i]? = some (label i) := by
  rw [List.map_map, List.map_inj_left]
  exact forall_congr' fun i => forall_congr' fun _ => eq_comm

theorem recorded_of_labels {cited : List (String × NoticeEvidence)} {v : ClaimSupportVerification}
    (h : LabelsAreIds cited wire)
    (hused : v.evidenceIdsUsed = usedIds wire (cited.map (·.1)))
    (hconflict : v.conflictEvidenceIds = conflictIdsOf wire (cited.map (·.1))) :
    Recorded cited wire v := by
  refine ⟨fun i hi => ?_, v.conflictsUsed, v.conflictsUnsupported, fun spelling used conflicts hl => ?_⟩
  · rw [hused] at hi
    by_cases hne : cited.map (·.1) = []
    · rw [usedIds, if_neg (not_not.mpr hne), h.evidence (List.map_eq_nil_iff.mp hne)] at hi
      cases hi
    · exact mem_usedIds hi hne
  · have hids := h.labels spelling used conflicts hl
    have hkept := usedIds_labels hl.usedLabels hids
    refine ⟨by rw [hused, hkept]; exact map_label_eq.mpr hids, ?_⟩
    have hconf : conflictIdsOf wire (cited.map (·.1)) = conflicts.map spelling.label := by
      unfold conflictIdsOf
      split
      · next hs => rw [hl.conflictsUnsupported hs, List.map_nil]
      · rw [hl.conflictLabels, List.filter_eq_self, hkept]
        intro id hid
        obtain ⟨j, hj, rfl⟩ := List.mem_map.mp hid
        exact List.contains_iff_mem.mpr (List.mem_map_of_mem (hl.conflictsUsed j hj))
    rw [hconflict, hconf]
    exact map_label_eq.mpr fun j hj => hids j (hl.conflictsUsed j hj)

theorem labels_of_recorded {cited : List (String × NoticeEvidence)} {v : ClaimSupportVerification}
    (h : Recorded cited wire v) (hused : v.evidenceIdsUsed = usedIds wire (cited.map (·.1))) :
    LabelsAreIds cited wire := by
  constructor
  · rintro rfl
    rw [List.map_nil, usedIds, if_neg (not_not.mpr rfl)] at hused
    refine List.eq_nil_iff_forall_not_mem.mpr fun i hi => ?_
    have hcited := h.usedCited i (hused ▸ hi)
    cases hcited
  · intro spelling used conflicts hl
    have hread := (h.labels spelling used conflicts hl).1
    -- as many ids come back as labels were used, so every label was kept
    have hlen : v.evidenceIdsUsed.length = wire.evidenceIdsUsed.length := by
      have hl' := congrArg List.length hread
      rw [List.length_map, List.length_map] at hl'
      rw [hl', hl.usedLabels, List.length_map]
    have hkept : v.evidenceIdsUsed = wire.evidenceIdsUsed := by
      rw [hused] at hlen ⊢
      unfold usedIds at hlen ⊢
      split at hlen
      · next hne =>
        rw [if_pos hne]
        exact List.Sublist.eq_of_length List.filter_sublist hlen
      · next hne => rw [if_neg hne]
    rw [hkept, hl.usedLabels] at hread
    exact map_label_eq.mp hread

/-- **The model's verdict.** The record is within the contract and holds the ids
of the labels the answer uses, exactly when there is evidence for the ids it
uses and every label used is the citation id of its evidence. -/
theorem recorded_iff (model : String) (answer : Prompt → ClaimSupportVerificationWire)
    (claim : ReportClaim) (cited : List (String × NoticeEvidence)) :
    (∃ v, verifyByModel model answer claim (cited.map (·.2)) (some (cited.map (·.1))) = .ok v ∧
        Recorded cited (answer (verifyPrompt claim (cited.map (·.2)))) v) ↔
      LabelsAreIds cited (answer (verifyPrompt claim (cited.map (·.2)))) := by
  have hsanitize : ∃ v, verifyByModel model answer claim (cited.map (·.2)) (some (cited.map (·.1))) =
      .ok v ∧ _ := sanitize_eq (version_nonblank_of_model model)
  obtain ⟨v, hv, -, hused, hconflict, -⟩ := hsanitize
  constructor
  · rintro ⟨v', hv', hrec⟩
    have hsame : v' = v := Except.ok.inj (hv'.symm.trans hv)
    exact labels_of_recorded hrec (hsame ▸ hused)
  · intro h
    exact ⟨v, hv, recorded_of_labels h hused hconflict⟩

/-- A claim with one citation. -/
def citedClaim : ReportClaim := ⟨"预算680万元", ["c1"], none, by decide, by decide⟩

theorem cited_start : (0 : Int) ≤ 0 := by decide

theorem cited_stop : (0 : Int) ≤ 7 := by decide

def citedEvidence : List (String × NoticeEvidence) :=
  [("c1", ⟨"v1", "预算500万元", 0, 7, "h", cited_start, cited_stop⟩)]

/-- The answer the prompt asks for: the evidence contradicts the claim, by its label. -/
def labelAnswer : ClaimSupportVerificationWire := ⟨.unsupported, "金额不同", ["[0]"], ["[0]"]⟩

/-- An answer by label is recorded without its evidence. -/
theorem label_dropped :
    (verifyByModel "deepseek-chat" (fun _ => labelAnswer) citedClaim (citedEvidence.map (·.2))
        (some (citedEvidence.map (·.1)))).map
        (fun v => (v.status, v.evidenceIdsUsed, v.conflictEvidenceIds)) = .ok (.unsupported, [], []) ∧
      ByLabel labelAnswer citedEvidence.length .bracketed [0] [0] ∧
      ¬ ∃ v, verifyByModel "deepseek-chat" (fun _ => labelAnswer) citedClaim
          (citedEvidence.map (·.2)) (some (citedEvidence.map (·.1))) = .ok v ∧
        Recorded citedEvidence labelAnswer v := by
  have hrun : (verifyByModel "deepseek-chat" (fun _ => labelAnswer) citedClaim
      (citedEvidence.map (·.2)) (some (citedEvidence.map (·.1)))).map
      (fun v => (v.status, v.evidenceIdsUsed, v.conflictEvidenceIds)) = .ok (.unsupported, [], []) := by
    decide +kernel
  have hlabel : ByLabel labelAnswer citedEvidence.length .bracketed [0] [0] :=
    ⟨by decide, by decide, by decide, by decide, nofun⟩
  refine ⟨hrun, hlabel, ?_⟩
  rintro ⟨v, hv, hrec⟩
  rw [hv] at hrun
  have hused : v.evidenceIdsUsed = [] := congrArg (·.2.1) (Except.ok.inj hrun)
  have hread := (hrec.labels .bracketed [0] [0] hlabel).1
  rw [hused] at hread
  cases hread

end BidScope.L8
