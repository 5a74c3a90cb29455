import BidScope.L5Snapshots.Importer

/-!
# What the statements of an import do

One lemma for each program of `Importer.lean` that returned: what it read and
what it left in the rows. The order of statements, the faults and the objects
are gone from here on.

* `getOrCreateSourceNotice_cases`: the notice was there and is touched, or it
  was not and is inserted. The handler of the unique constraint never returns
  in a serial import.
* `storeVersion_cases`: the content was stored and nothing changes, or its
  version and its evidence are appended.
-/
namespace BidScope.L5

open BidScope.L1 Txn Txn.Prog

variable {lib : SnapshotLib} {call : ImportCall} {s s' : Session Tables Outside}

theorem find_cases {α : Type} {f : Tables → α} {a : α} (h : (find call f).Returns s a s') :
    a = f s.rows ∧ s'.rows = s.rows ∧ s'.outside = s.outside := by
  obtain ⟨-, ha, rfl⟩ := query_returns.mp h
  exact ⟨ha, rfl, rfl⟩

theorem update_cases {f : Tables → Tables} {u : PUnit} (h : (update call f).Returns s u s') :
    s'.rows = f s.rows ∧ s'.outside = s.outside := by
  obtain ⟨-, hf, -⟩ := statement_returns.mp h
  simp only [Except.ok.injEq, Prod.mk.injEq, true_and] at hf
  exact ⟨hf.1.symm, hf.2.symm⟩

theorem insert_cases {α : Type} {violated : Tables → Option String} {make : String → α}
    {add : Tables → α → Tables} {a : α}
    (h : (insert lib call violated make add).Returns s a s') :
    violated s.rows = none ∧ a = make (lib.uuid s.outside.drawn) ∧ s'.rows = add s.rows a ∧
      s'.outside.drawn = s.outside.drawn + 1 := by
  obtain ⟨-, hf, -⟩ := statement_returns.mp h
  split at hf
  · cases hf
  · rename_i hviolated
    simp only [Except.ok.injEq, Prod.mk.injEq] at hf
    obtain ⟨ha, hrows, hout⟩ := hf
    refine ⟨hviolated, ha.symm, ?_, ?_⟩
    · rw [← hrows, ha]
    · rw [← hout]

theorem putBytes_cases {key data : String} {u : PUnit}
    (h : (putBytes call key data).Returns s u s') :
    s'.rows = s.rows ∧ s'.outside.drawn = s.outside.drawn := by
  obtain ⟨-, hf, -⟩ := statement_returns.mp h
  simp only [Except.ok.injEq, Prod.mk.injEq, true_and] at hf
  exact ⟨hf.1.symm, by rw [← hf.2]⟩

theorem getOrCreateBundle_cases {manifest : SnapshotManifest} {b : SnapshotBundle}
    (h : (getOrCreateBundle lib call manifest).Returns s b s') :
    b.bundleId = manifest.bundleId ∧ s.outside.drawn ≤ s'.outside.drawn ∧
      ((s'.rows = s.rows ∧ b ∈ s.rows.bundles) ∨
        s'.rows = { s.rows with bundles := s.rows.bundles ++ [b] }) := by
  obtain ⟨found, s₁, hfind, h⟩ := then_returns.mp h
  obtain ⟨hfound, hrows, hout⟩ := find_cases hfind
  cases found with
  | some existing =>
    obtain ⟨rfl, rfl⟩ := pure_returns.mp h
    have hmem := List.mem_of_find?_eq_some hfound.symm
    have hid : b.bundleId = manifest.bundleId := by simpa using List.find?_some hfound.symm
    exact ⟨hid, by rw [hout], Or.inl ⟨hrows, hmem⟩⟩
  | none =>
    obtain ⟨-, rfl, hadd, hdrawn⟩ := insert_cases h
    refine ⟨rfl, by rw [hdrawn, hout]; omega, Or.inr ?_⟩
    rw [hadd, hrows]

theorem createImport_cases {record : String → SnapshotImport} {r : SnapshotImport}
    (h : (createImport lib call record).Returns s r s') :
    (∀ r' ∈ s.rows.imports, r'.idempotencyKey ≠ (record "").idempotencyKey) ∧
      r = record (lib.uuid s.outside.drawn) ∧
      s'.rows = { s.rows with imports := s.rows.imports ++ [r] } ∧
      s'.outside.drawn = s.outside.drawn + 1 := by
  obtain ⟨hviolated, hr, hadd, hdrawn⟩ := insert_cases h
  refine ⟨?_, hr, hadd, hdrawn⟩
  simpa using hviolated

def SourceNotice.key (n : SourceNotice) : String × String := (n.source, n.externalId)

theorem findSourceNotice_some {t : Tables} {source externalId : String} {n : SourceNotice}
    (h : some n = t.sourceNotices.find? fun n =>
      n.source == source && n.externalId == externalId) :
    n ∈ t.sourceNotices ∧ n.key = (source, externalId) := by
  refine ⟨List.mem_of_find?_eq_some h.symm, ?_⟩
  have hkey := List.find?_some h.symm
  simp only [Bool.and_eq_true, beq_iff_eq] at hkey
  rw [SourceNotice.key, hkey.1, hkey.2]

theorem findSourceNotice_none {t : Tables} {source externalId : String}
    (h : none = t.sourceNotices.find? fun n =>
      n.source == source && n.externalId == externalId) :
    ∀ n ∈ t.sourceNotices, n.key ≠ (source, externalId) := by
  intro n hn hkey
  have hfalse := List.find?_eq_none.mp h.symm n hn
  simp only [SourceNotice.key, Prod.mk.injEq] at hkey
  simp [hkey.1, hkey.2] at hfalse

/-- The rows of source notices after one of them was touched. -/
def touched (rows : List SourceNotice) (id : String) (latestSeenAt : Datetime)
    (contentHash : String) : List SourceNotice :=
  rows.map fun n => if n.id = id then n.seen latestSeenAt contentHash else n

theorem touchSourceNotice_cases {existing n : SourceNotice} {latestSeenAt : Datetime}
    {hash : String} (h : (touchSourceNotice call existing latestSeenAt hash).Returns s n s') :
    n = existing.seen latestSeenAt hash ∧ s'.outside = s.outside ∧
      s'.rows = { s.rows with
        sourceNotices := touched s.rows.sourceNotices existing.id latestSeenAt hash } := by
  obtain ⟨u, s₁, hupdate, h⟩ := then_returns.mp h
  obtain ⟨hrows, hout⟩ := update_cases hupdate
  obtain ⟨rfl, rfl⟩ := pure_returns.mp h
  exact ⟨rfl, hout, hrows⟩

/-- The row of a source notice that was not there. -/
def newNotice (lib : SnapshotLib) (drawn : Nat) (source externalId sourceUrl contentHash : String)
    (firstSeenAt latestSeenAt : Datetime) : SourceNotice where
  id := lib.uuid (drawn + 1)
  canonicalNoticeId := lib.uuid drawn
  source := source
  externalId := externalId
  sourceUrl := sourceUrl
  firstSeenAt := firstSeenAt
  latestSeenAt := latestSeenAt
  contentHash := contentHash

theorem getOrCreateSourceNotice_cases {source externalId sourceUrl hash : String}
    {firstSeenAt latestSeenAt : Datetime} {n : SourceNotice}
    (h : (getOrCreateSourceNotice lib call source externalId sourceUrl hash firstSeenAt
      latestSeenAt).Returns s n s') :
    (∃ existing ∈ s.rows.sourceNotices, existing.key = (source, externalId) ∧
        n = existing.seen latestSeenAt hash ∧ s'.outside.drawn = s.outside.drawn ∧
        s'.rows = { s.rows with
          sourceNotices := touched s.rows.sourceNotices existing.id latestSeenAt hash }) ∨
      ((∀ n' ∈ s.rows.sourceNotices, n'.key ≠ (source, externalId)) ∧
        n = newNotice lib s.outside.drawn source externalId sourceUrl hash firstSeenAt
          latestSeenAt ∧
        s'.outside.drawn = s.outside.drawn + 2 ∧
        s'.rows = { s.rows with
          canonicalNotices := s.rows.canonicalNotices ++ [n.canonicalNoticeId]
          sourceNotices := s.rows.sourceNotices ++ [n] }) := by
  obtain ⟨found, s₁, hfind, h⟩ := then_returns.mp h
  obtain ⟨hfound, hrows, hout⟩ := find_cases hfind
  cases found with
  | some existing =>
    left
    obtain ⟨hmem, hkey⟩ := findSourceNotice_some hfound
    obtain ⟨hn, hout', hrows'⟩ := touchSourceNotice_cases h
    exact ⟨existing, hmem, hkey, hn, by rw [hout', hout], by rw [hrows', hrows]⟩
  | none =>
    right
    have hnone := findSourceNotice_none hfound
    obtain ⟨u, s₂, hsavepoint, h⟩ := then_returns.mp h
    obtain ⟨-, hrows₂, hout₂⟩ := find_cases hsavepoint
    rcases savepoint_returns.mp h with h | ⟨e, s₃, handler, -, hhandler, h⟩
    · obtain ⟨canonicalNoticeId, s₃, hcanonical, h⟩ := then_returns.mp h
      obtain ⟨-, hcid, hadd, hdrawn⟩ := insert_cases hcanonical
      obtain ⟨-, hrow, hadd', hdrawn'⟩ := insert_cases h
      refine ⟨hnone, ?_, ?_, ?_⟩
      · rw [hrow, hcid, hdrawn, hout₂, hout]
        rfl
      · rw [hdrawn', hdrawn, hout₂, hout]
      · rw [hadd', hadd, hrows₂, hrows, hrow]
    · -- the handler finds what the first look found: nothing
      cases e with
      | integrity constraint =>
        simp only [Option.some.injEq] at hhandler
        subst hhandler
        obtain ⟨again, s₄, hagain, h⟩ := then_returns.mp h
        obtain ⟨hagain, -, -⟩ := find_cases hagain
        simp only [hrows₂, hrows] at hagain
        rw [← hfound] at hagain
        subst hagain
        exact absurd h (by simp)
      | _ => cases hhandler

/-- The evidence rows of one version. -/
def EvidenceOf (version : String) (spans : List Span) (rows : List EvidenceRow) : Prop :=
  (∀ e ∈ rows, e.noticeVersionId = version) ∧
    rows.map (fun e => (⟨e.text, e.start, e.stop, e.spanHash⟩ : Span)) = spans

theorem createEvidence_cases {version : String} :
    ∀ {spans : List Span} {k : Nat} {s s' : Session Tables Outside} {u : PUnit},
      (each (fun _ => createEvidence lib call version) k spans).Returns s u s' →
      s.outside.drawn ≤ s'.outside.drawn ∧ ∃ rows, EvidenceOf version spans rows ∧
        s'.rows = { s.rows with evidence := s.rows.evidence ++ rows }
  | [], k, s, s', u, h => by
    obtain ⟨-, rfl⟩ := ret_returns.mp h
    refine ⟨Nat.le_refl _, [], ⟨by simp, rfl⟩, by simp⟩
  | span :: spans, k, s, s', u, h => by
    obtain ⟨u', s₁, hone, hrest⟩ := bind_returns.mp h
    obtain ⟨row, s₂, hinsert, hpure⟩ := then_returns.mp hone
    obtain ⟨-, rfl⟩ := pure_returns.mp hpure
    obtain ⟨-, hrow, hadd, hdrawn⟩ := insert_cases hinsert
    obtain ⟨hle, rows, ⟨hof, hspans⟩, hrows⟩ := createEvidence_cases hrest
    refine ⟨by omega, row :: rows, ⟨?_, ?_⟩, ?_⟩
    · intro e he
      rcases List.mem_cons.mp he with rfl | he
      · rw [hrow]
      · exact hof e he
    · rw [List.map_cons, hspans, hrow]
    · rw [hrows, hadd]
      simp

theorem storeVersion_cases {manifest : SnapshotManifest} {noticeId objectKey : String}
    {notice : NormalizedNotice} {u : PUnit}
    (h : (storeVersion lib call manifest noticeId objectKey notice).Returns s u s') :
    s.outside.drawn ≤ s'.outside.drawn ∧
      ((s'.rows = s.rows ∧ ∃ v ∈ s.rows.versions, v.sourceNoticeId = noticeId ∧
          v.contentHash = contentHash lib notice) ∨
        ((∀ v ∈ s.rows.versions,
            ¬ (v.sourceNoticeId = noticeId ∧ v.contentHash = contentHash lib notice)) ∧
          ∃ version rows, version = versionRow lib call manifest noticeId objectKey notice
              (lib.uuid s.outside.drawn) ∧
            s.outside.drawn < s'.outside.drawn ∧
            EvidenceOf version.id (buildEvidence lib notice) rows ∧
            s'.rows = { s.rows with
              versions := s.rows.versions ++ [version]
              evidence := s.rows.evidence ++ rows })) := by
  obtain ⟨found, s₁, hfind, h⟩ := then_returns.mp h
  obtain ⟨hfound, hrows, hout⟩ := find_cases hfind
  cases found with
  | some v =>
    obtain ⟨-, rfl⟩ := pure_returns.mp h
    have hkey := List.find?_some hfound.symm
    simp only [Bool.and_eq_true, beq_iff_eq] at hkey
    exact ⟨by rw [hout], Or.inl ⟨hrows, v, List.mem_of_find?_eq_some hfound.symm, hkey⟩⟩
  | none =>
    obtain ⟨version, s₂, hcreate, hevidence⟩ := then_returns.mp h
    obtain ⟨-, hversion, hadd, hdrawn⟩ := insert_cases hcreate
    obtain ⟨hle, rows, hof, hrows'⟩ := createEvidence_cases hevidence
    have hlt : s.outside.drawn < s'.outside.drawn := by rw [hdrawn, hout] at hle; omega
    refine ⟨Nat.le_of_lt hlt, Or.inr ⟨?_, version, rows, ?_, hlt, hof, ?_⟩⟩
    · intro v hv
      have hfalse := List.find?_eq_none.mp hfound.symm v hv
      simpa using hfalse
    · rw [hversion, hout]
    · rw [hrows', hadd, hrows]

end BidScope.L5
