import BidScope.L2Graph.Healthy
import BidScope.L2Graph.Verified

/-!
# From snippets to an accepted report

`verify_evidence`, `FakeReportModel.synthesize` and `validate_report` one behind
the other, over views whose supporting texts are not empty.

* `extractEvidence_ordered`: the spans of a notice stand in its text in order,
  without overlap, and each reads as its snippet.
* `verifyFold_held`: after merging over all candidates, `evidence_by_id` holds
  the spans extracted and no others.
* `pipeline_accepted`: the draft the offline model builds from them is valid.
-/
namespace BidScope.L2

open BidScope.L1

variable {lib : Lib}

/-! ## `FakeReportModel` -/

/-- The fields of an opportunity the report may know, under their names. -/
def reportFields (verified : VerifiedOpportunity) : List (String × Option String) :=
  [("region", verified.region), ("purchaser", verified.purchaser), ("budget", verified.budgetRaw),
    ("deadline", verified.deadline)]

theorem cites_one (id : String) : [id] ≠ [] := List.cons_ne_nil id []

theorem one_distinct (id : String) : [id].Nodup := List.nodup_singleton id

/-- mirrors llm/fake.py:284-287 -/
def quotingClaim (span : EvidenceSpan) : ReportClaim where
  text := span.text
  citationIds := [span.evidenceId]
  hasCitations := cites_one span.evidenceId
  distinctCitations := one_distinct span.evidenceId

/-- mirrors llm/fake.py:260-312 -/
def fakeSynthesize (verified : VerifiedOpportunity) : ReportDraft where
  items := [{
    noticeId := verified.noticeId
    title := verified.title
    knownFields := (reportFields verified).filterMap fun f =>
      if truthy f.2 then some (f.1, orEmpty f.2) else none
    unknownFields := (reportFields verified).filterMap fun f =>
      if truthy f.2 then none else some f.1
    relevanceReason := verified.summary
    citations := verified.evidence.map fun span => ⟨span.evidenceId, some span.evidenceId⟩
    claims := verified.evidence.map quotingClaim }]

/-! ## Spans in the source text -/

/-- `text[start:end]`, for offsets that are not negative -/
def slice (text : String) (start stop : Int) : String :=
  .ofList ((text.toList.take stop.toNat).drop start.toNat)

/-- The spans stand in the text in order, from `cursor` on, without overlap, and
each reads as its text. -/
def InOrder (source : String) : Nat → List NoticeEvidence → Prop
  | _, [] => True
  | cursor, e :: spans =>
    (cursor : Int) ≤ e.start ∧ e.start < e.stop ∧ slice source e.start e.stop = e.text ∧
      InOrder source e.stop.toNat spans

theorem slice_found {source snippet : String} {start cursor : Nat}
    (h : Text.find source.toList snippet.toList cursor = some start) :
    slice source start (start + snippet.length : Nat) = snippet := by
  obtain ⟨-, hle, hprefix⟩ := Text.find_spec h
  obtain ⟨rest, hrest⟩ := hprefix
  have hlen : snippet.length = snippet.toList.length := String.length_toList.symm
  simp only [slice, Int.toNat_natCast]
  rw [List.drop_take, ← hrest, Nat.add_sub_cancel_left, hlen, List.take_left, String.ofList_toList]

theorem extractFrom_ordered (vid source : String) :
    ∀ (snippets : List String) (index cursor : Nat) (spans : List NoticeEvidence),
      extractFrom lib vid source snippets index cursor = .ok spans →
        InOrder source cursor spans ∧ spans.map (·.text) = snippets
  | [], _, _, spans, h => by
    obtain rfl := Except.ok.inj h
    exact ⟨trivial, rfl⟩
  | t :: ts, index, cursor, spans, h => by
    unfold extractFrom at h
    split at h
    · cases h
    · next hne =>
      have hlen : 0 < t.length := by
        rw [← String.length_toList]
        exact List.length_pos_iff.mpr fun hnil => hne (String.toList_eq_nil_iff.mp hnil)
      cases hf : Text.find source.toList t.toList cursor with
      | none =>
        rw [hf] at h
        cases h
      | some j =>
        simp only [hf] at h
        cases hr : extractFrom lib vid source ts (index + 1) (j + t.length) with
        | error e =>
          simp only [hr] at h
          cases h
        | ok rest =>
          simp only [hr] at h
          obtain rfl := Except.ok.inj h
          obtain ⟨hrest, htexts⟩ := extractFrom_ordered vid source ts _ _ rest hr
          have hcursor := (Text.find_spec hf).1
          refine ⟨⟨Int.ofNat_le.mpr hcursor, ?_, slice_found hf, hrest⟩, by rw [List.map_cons, htexts]⟩
          exact Int.ofNat_lt.mpr (by omega)

/-- In order means pairwise: each span ends before the later ones begin. -/
theorem InOrder.pairwise {source : String} : ∀ {spans : List NoticeEvidence} {cursor : Nat},
    InOrder source cursor spans →
      (∀ e ∈ spans, (cursor : Int) ≤ e.start) ∧
        spans.Pairwise fun a b => a.start < a.stop ∧ a.stop ≤ b.start
  | [], _, _ => ⟨nofun, List.Pairwise.nil⟩
  | e :: spans, cursor, h => by
    obtain ⟨hcursor, hlt, -, hrest⟩ := h
    obtain ⟨hlater, hpairs⟩ := InOrder.pairwise hrest
    have hstop : (e.stop.toNat : Int) = e.stop := Int.toNat_of_nonneg e.stopNonneg
    rw [hstop] at hlater
    refine ⟨fun x hx => ?_, List.pairwise_cons.mpr ⟨fun x hx => ⟨hlt, hlater x hx⟩, hpairs⟩⟩
    rcases List.mem_cons.mp hx with rfl | hx
    · exact hcursor
    · have hx' := hlater x hx
      omega

theorem InOrder.reads {source : String} : ∀ {spans : List NoticeEvidence} {cursor : Nat},
    InOrder source cursor spans → ∀ e ∈ spans, slice source e.start e.stop = e.text
  | e :: spans, _, h, x, hx => by
    rcases List.mem_cons.mp hx with rfl | hx
    · exact h.2.2.1
    · exact InOrder.reads h.2.2.2 x hx

/-- The spans of the snippets of a notice, located in its text. -/
structure Located (source : String) (snippets : List String) (spans : List NoticeEvidence) : Prop where
  texts : spans.map (·.text) = snippets
  ordered : spans.Pairwise fun a b => a.start < a.stop ∧ a.stop ≤ b.start
  reads : ∀ e ∈ spans, slice source e.start e.stop = e.text

theorem extractEvidence_located {vid source : String} {snippets : List String}
    {spans : List NoticeEvidence} (h : extractEvidence lib vid source snippets = .ok spans) :
    Located source snippets spans := by
  obtain ⟨horder, htexts⟩ := extractFrom_ordered vid source snippets 0 0 spans h
  exact ⟨htexts, horder.pairwise.2, horder.reads⟩

/-! ## Merging -/

/-- The span can be looked up under its hash. -/
def Held (d : EvidenceById) (e : NoticeEvidence) : Prop :=
  ∃ binding, d.get e.spanHash = some binding ∧ e ∈ binding.candidates

theorem held_bindSpan {d : EvidenceById} {span e : NoticeEvidence} :
    Held (bindSpan d span) e ↔ Held d e ∨ e = span := by
  unfold Held bindSpan
  rw [Dict.get_set]
  by_cases hk : span.spanHash = e.spanHash
  · rw [if_pos hk, hk]
    cases d.get e.spanHash with
    | none => simp [Binding.candidates]
    | some old => cases old <;> simp [Binding.candidates]
  · rw [if_neg hk]
    refine (or_iff_left ?_).symm
    rintro rfl
    exact hk rfl

theorem held_foldl : ∀ (spans : List NoticeEvidence) {d : EvidenceById} {e : NoticeEvidence},
    Held (spans.foldl bindSpan d) e ↔ Held d e ∨ e ∈ spans
  | [], d, e => by simp
  | span :: spans, d, e => by
    rw [List.foldl_cons, held_foldl spans, held_bindSpan, List.mem_cons, or_assoc]

/-- The span is one of those extracted for a candidate. -/
def ExtractedFor (lib : Lib) (views : Dict String NoticeView) (id : String) (e : NoticeEvidence) : Prop :=
  ∃ view spans, views.get id = some view ∧
    extractEvidence lib id (joinWith "\n" view.claimSupportingTexts) view.claimSupportingTexts =
      .ok spans ∧ e ∈ spans

variable {views : Dict String NoticeView} {acc acc' : EvidenceById × List VerifiedOpportunity}

/-- The opportunity quotes spans extracted for it, by hash and text. -/
def Quotes (lib : Lib) (views : Dict String NoticeView) (o : VerifiedOpportunity) : Prop :=
  ∀ q ∈ o.evidence, ∃ e, ExtractedFor lib views o.noticeId e ∧ q.evidenceId = e.spanHash

theorem verifyOne_held {id : String} (h : verifyOne lib views acc id = .ok acc') :
    (∀ e, Held acc'.1 e ↔ Held acc.1 e ∨ ExtractedFor lib views id e) ∧
      ∀ o ∈ acc'.2, o ∈ acc.2 ∨ (o.noticeId = id ∧ Quotes lib views o) := by
  unfold verifyOne at h
  cases hview : views.get id with
  | none =>
    rw [hview] at h
    obtain rfl := Except.ok.inj h
    refine ⟨fun e => (or_iff_left ?_).symm, fun o ho => Or.inl ho⟩
    rintro ⟨view, spans, hsome, -, -⟩
    cases hview.symm.trans hsome
  | some view =>
    cases hspans : extractEvidence lib id (joinWith "\n" view.claimSupportingTexts)
        view.claimSupportingTexts with
    | error m =>
      simp only [hview, hspans] at h
      cases h
    | ok spans =>
      simp only [hview, hspans] at h
      obtain rfl := Except.ok.inj h
      have hfor : ∀ e, ExtractedFor lib views id e ↔ e ∈ spans := by
        intro e
        constructor
        · rintro ⟨view', spans', hv', hs', he⟩
          obtain rfl := Option.some.inj (hview.symm.trans hv')
          rwa [Except.ok.inj (hspans.symm.trans hs')]
        · exact fun he => ⟨view, spans, hview, hspans, he⟩
      refine ⟨fun e => by rw [hfor, held_foldl], fun o ho => ?_⟩
      rcases List.mem_append.mp ho with ho | ho
      · exact Or.inl ho
      · obtain rfl := List.mem_singleton.mp ho
        refine Or.inr ⟨rfl, fun q hq => ?_⟩
        obtain ⟨e, he, rfl⟩ := List.mem_map.mp hq
        exact ⟨e, (hfor e).mpr he, rfl⟩

/-- After the fold the evidence is that of all candidates, and every opportunity
is a candidate's that quotes its own spans. -/
theorem verifyFold_held : ∀ {ids : List String} {acc acc' : EvidenceById × List VerifiedOpportunity},
    ids.foldlM (verifyOne lib views) acc = .ok acc' →
      (∀ e, Held acc'.1 e ↔ Held acc.1 e ∨ ∃ id ∈ ids, ExtractedFor lib views id e) ∧
        ∀ o ∈ acc'.2, o ∈ acc.2 ∨ (o.noticeId ∈ ids ∧ Quotes lib views o)
  | [], acc, acc', h => by
    obtain rfl := Except.ok.inj h
    simp
  | id :: ids, acc, acc', h => by
    rw [List.foldlM_cons] at h
    cases hone : verifyOne lib views acc id with
    | error e =>
      rw [hone] at h
      cases h
    | ok acc₁ =>
      rw [hone] at h
      obtain ⟨hheld, hos⟩ := verifyFold_held h
      obtain ⟨hheld₁, hos₁⟩ := verifyOne_held hone
      refine ⟨fun e => ?_, fun o ho => ?_⟩
      · rw [hheld, hheld₁, or_assoc, List.exists_mem_cons_iff]
      · rcases hos o ho with ho | ⟨hmem, hq⟩
        · rcases hos₁ o ho with ho | ⟨hid, hq⟩
          · exact Or.inl ho
          · exact Or.inr ⟨hid ▸ List.mem_cons_self .., hq⟩
        · exact Or.inr ⟨List.mem_cons_of_mem _ hmem, hq⟩

/-! ## The report -/

/-- All that `evidence_by_id` holds passes the checks of `validate_claim`. -/
def Intact (lib : Lib) (d : EvidenceById) : Prop := ∀ e, Held d e → spanErrors lib e = []

/-- A span held for the item's version under the cited hash resolves. -/
theorem citation_valid {d : EvidenceById} {e : NoticeEvidence} (hkeyed : KeyedByHash d)
    (hintact : Intact lib d) (h : Held d e) :
    citationErrors lib e.noticeVersionId d e.spanHash = [] := by
  obtain ⟨binding, hget, hmem⟩ := h
  have hfind : (binding.candidates.find? (·.noticeVersionId == e.noticeVersionId)).isSome = true :=
    List.find?_isSome.mpr ⟨e, hmem, beq_self_eq_true _⟩
  obtain ⟨x, hx⟩ := Option.isSome_iff_exists.mp hfind
  have hxmem := List.mem_of_find?_eq_some hx
  have hxheld : Held d x := ⟨binding, by rw [hkeyed _ _ hget x hxmem, hget], hxmem⟩
  simp only [citationErrors, hget, hx]
  exact hintact x hxheld

theorem validateReport_valid {items : List ReportItem} {d : EvidenceById}
    (h : ∀ item ∈ items, ∀ claim ∈ item.claims, ∀ id ∈ claim.citationIds,
      citationErrors lib item.noticeId d id = []) :
    validateReport lib items d = ⟨true, []⟩ := by
  have hclaim : ∀ item ∈ items, ∀ claim ∈ item.claims,
      validateClaim lib claim item.noticeId d = ⟨true, []⟩ := by
    intro item hitem claim hc
    have herrors : claim.citationIds.flatMap (citationErrors lib item.noticeId d) = [] :=
      List.flatMap_eq_nil_iff.mpr (h item hitem claim hc)
    rw [validateClaim, if_neg claim.hasCitations, herrors]
    rfl
  have hitems : items.flatMap (itemErrors lib d) = [] := by
    refine List.flatMap_eq_nil_iff.mpr fun item hitem => ?_
    refine List.flatMap_eq_nil_iff.mpr fun claim hc => ?_
    simp only [hclaim item hitem claim hc, if_true]
  rw [validateReport, hitems]
  rfl

theorem extracted_version {id : String} {e : NoticeEvidence} (h : ExtractedFor lib views id e) :
    e.noticeVersionId = id ∧ spanErrors lib e = [] := by
  obtain ⟨view, spans, -, hspans, he⟩ := h
  exact ⟨(extractFrom_span lib _ _ _ _ _ _ hspans e he).1, extractEvidence_intact lib _ _ _ _ hspans e he⟩

/-- A draft of quotations is accepted over the evidence it quotes. -/
theorem fake_draft_valid {ids : List String} {os : List VerifiedOpportunity} {d : EvidenceById}
    (hkeyed : KeyedByHash d)
    (hheld : ∀ e, Held d e ↔ ∃ id ∈ ids, ExtractedFor lib views id e)
    (hos : ∀ o ∈ os, o.noticeId ∈ ids ∧ Quotes lib views o) :
    validateReport lib (os.flatMap fun o => (fakeSynthesize o).items) d = ⟨true, []⟩ := by
  have hintact : Intact lib d := fun e he => by
    obtain ⟨id, -, hfor⟩ := (hheld e).mp he
    exact (extracted_version hfor).2
  refine validateReport_valid fun item hitem claim hc cited hcited => ?_
  obtain ⟨o, ho, hitem⟩ := List.mem_flatMap.mp hitem
  obtain rfl := List.mem_singleton.mp hitem
  obtain ⟨q, hq, rfl⟩ := List.mem_map.mp hc
  obtain rfl := List.mem_singleton.mp hcited
  obtain ⟨hid, hquotes⟩ := hos o ho
  obtain ⟨e, hfor, hhash⟩ := hquotes q hq
  have hvalid := citation_valid hkeyed hintact ((hheld e).mpr ⟨o.noticeId, hid, hfor⟩)
  rw [(extracted_version hfor).1] at hvalid
  rw [hhash]
  exact hvalid

/-! ## The pipeline -/

/-- Ports that load the views and write reports with the offline model. -/
def offline (p : Ports) (views : Dict String NoticeView) : Ports :=
  { p with
    loadNoticeViews := fun _ => .ok views
    synthesize := fun _ o => .ok (fakeSynthesize o) }

theorem synthesizeFrom_offline (p : Ports) (views : Dict String NoticeView) :
    ∀ (k : Nat) (os : List VerifiedOpportunity), synthesizeFrom (offline p views) k os =
      .ok (os.flatMap fun o => (fakeSynthesize o).items)
  | _, [] => rfl
  | k, o :: os => by
    have hone : (offline p views).synthesize k o = .ok (fakeSynthesize o) := rfl
    simp only [synthesizeFrom, hone, synthesizeFrom_offline p views (k + 1) os, List.flatMap_cons]

theorem verifyEvidence_offline {p : Ports} {ids : List String}
    (hacc : ids.foldlM (verifyOne lib views) (.empty, []) = .ok acc) :
    ∃ u, (verifyEvidence lib (offline p views) { candidateNoticeIds := ids }).result = .ok u ∧
      u.evidenceById = acc.1 ∧ u.verifiedOpportunities = acc.2 := by
  have hviews : (offline p views).loadNoticeViews ids = .ok views := rfl
  simp only [verifyEvidence, awaiting, hviews, hacc]
  exact ⟨_, rfl, rfl, rfl⟩

theorem synthesizeReport_offline (lib : Lib) (p : Ports) (views : Dict String NoticeView) (s : RunState) :
    ∃ u draft, (synthesizeReport lib (offline p views) s).result = .ok u ∧ u.report = some (some draft) ∧
      draft.items = s.verifiedOpportunities.flatMap fun o => (fakeSynthesize o).items := by
  simp only [synthesizeReport, awaiting, synthesizeFrom_offline]
  exact ⟨_, _, rfl, rfl, rfl⟩

/-- Two notices that quote the same texts, one of them inside the other. -/
def sharedViews : Dict String NoticeView := Dict.ofList [
  ("v1", { source := "demo", externalId := "v1", canonicalUrl := "/v1", projectNumber := none,
           contentHash := "c1", claimSupportingTexts := ["road", "road works", "road"] }),
  ("v2", { source := "demo", externalId := "v2", canonicalUrl := "/v2", projectNumber := none,
           contentHash := "c2", claimSupportingTexts := ["road works", "road"] })]

theorem shared_nonempty (id : String) (view : NoticeView) (h : sharedViews.get id = some view) :
    ∀ t ∈ view.claimSupportingTexts, t ≠ "" := by
  have hall : ∀ e ∈ sharedViews.entries, ∀ t ∈ e.2.claimSupportingTexts, t ≠ "" := by decide
  exact hall (id, view) ((Dict.mem_iff_get sharedViews id view).mpr h)

/-- **The evidence pipeline.** For every list of candidates and views whose
supporting texts are not empty: the spans of each notice are found, in order,
without overlap, as its texts; each is held under its hash after merging; and
the offline model's draft is valid. -/
theorem pipeline_accepted (lib : Lib) (p : Ports) (views : Dict String NoticeView) (ids : List String)
    (hviews : ∀ id view, views.get id = some view → ∀ t ∈ view.claimSupportingTexts, t ≠ "") :
    (∀ id ∈ ids, ∀ view, views.get id = some view → ∃ spans,
      extractEvidence lib id (joinWith "\n" view.claimSupportingTexts) view.claimSupportingTexts =
        .ok spans ∧
      Located (joinWith "\n" view.claimSupportingTexts) view.claimSupportingTexts spans) ∧
    ∃ verified report draft,
      (verifyEvidence lib (offline p views) { candidateNoticeIds := ids }).result = .ok verified ∧
      (∀ id ∈ ids, ∀ e, ExtractedFor lib views id e →
        e.noticeVersionId = id ∧ Held verified.evidenceById e) ∧
      (synthesizeReport lib (offline p views)
        ({ candidateNoticeIds := ids : RunState }.apply verified)).result = .ok report ∧
      report.report = some (some draft) ∧
      validateReport lib draft.items verified.evidenceById = ⟨true, []⟩ := by
  refine ⟨fun id _ view hview => ?_, ?_⟩
  · obtain ⟨spans, hspans⟩ := extractEvidence_joined lib id view.claimSupportingTexts (hviews id view hview)
    exact ⟨spans, hspans, extractEvidence_located hspans⟩
  · obtain ⟨acc, hacc⟩ := foldlM_ok (verifyOne_ok lib hviews) ids (.empty, [])
    obtain ⟨hheld, hos⟩ := verifyFold_held hacc
    have hkeyed : KeyedByHash acc.1 := verifyFold_keyed (fun k binding hget => by cases hget) hacc
    -- nothing is held and nothing verified before the first candidate
    have hempty : ∀ e, ¬ Held (.empty : EvidenceById) e := fun e ⟨binding, hget, _⟩ => by cases hget
    have hheld' : ∀ e, Held acc.1 e ↔ ∃ id ∈ ids, ExtractedFor lib views id e := fun e => by
      rw [hheld, or_iff_right (hempty e)]
    have hos' : ∀ o ∈ acc.2, o.noticeId ∈ ids ∧ Quotes lib views o := fun o ho =>
      (hos o ho).resolve_left List.not_mem_nil
    obtain ⟨verified, hverified, hevidence, hopportunities⟩ := verifyEvidence_offline (p := p) hacc
    obtain ⟨report, draft, hreport, hdraft, hitems⟩ := synthesizeReport_offline lib p views
      ({ candidateNoticeIds := ids : RunState }.apply verified)
    refine ⟨verified, report, draft, hverified, fun id hid e hfor => ?_, hreport, hdraft, ?_⟩
    · rw [hevidence]
      exact ⟨(extracted_version hfor).1, (hheld' e).mpr ⟨id, hid, hfor⟩⟩
    · have hmerged : ({ candidateNoticeIds := ids : RunState }.apply verified).verifiedOpportunities =
          acc.2 := by rw [← hopportunities]; rfl
      rw [hitems, hmerged, hevidence]
      exact fake_draft_valid hkeyed hheld' hos'

/-- Two candidates whose texts repeat and contain one another. -/
theorem pipeline_accepted_shared : ∃ verified report draft,
    (verifyEvidence asciiLib (offline demoPorts sharedViews) { candidateNoticeIds := ["v1", "v2"] }).result =
      .ok verified ∧
    (synthesizeReport asciiLib (offline demoPorts sharedViews)
      ({ candidateNoticeIds := ["v1", "v2"] : RunState }.apply verified)).result = .ok report ∧
    report.report = some (some draft) ∧
    validateReport asciiLib draft.items verified.evidenceById = ⟨true, []⟩ := by
  obtain ⟨-, verified, report, draft, hverified, -, hreport, hdraft, hvalid⟩ :=
    pipeline_accepted asciiLib demoPorts sharedViews ["v1", "v2"] shared_nonempty
  exact ⟨verified, report, draft, hverified, hreport, hdraft, hvalid⟩

end BidScope.L2
