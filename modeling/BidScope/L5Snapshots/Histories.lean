import BidScope.L5Snapshots.Transaction

/-!
# Histories of imports

`after lib calls` is the store after a history of `import_bundle` calls on an
empty database, each with a bundle and an environment of its own.

* `importBundle_cases`: a call stores nothing, or one import as a whole, and
  raises after that only from a commit whose reply is lost, from closing the
  session or from removing the temporary directory.
* `after_resting`, `after_mirrored`: the invariants of all histories.
* `importLaw_iff`: versions are unique and immutable, imports are idempotent,
  and a failing call changes no row, exactly when no call raises after its
  transaction stored an import. What the commit, the closing and the removal
  raise then reports an import failed that is stored.
-/
namespace BidScope.L5

open BidScope.L1 Txn Txn.Prog

variable {lib : SnapshotLib} {call : ImportCall}

/-! ## One call -/

/-- The call gets to its transaction, with this manifest and these notices. -/
structure Parsed (call : ImportCall) (manifest : SnapshotManifest)
    (notices : List NormalizedNotice) : Prop where
  overLimit : call.bundle.overLimit = none
  staging : call.staging = none
  accepted : call.bundle.inspection.accepted = some manifest
  parsed : parseNotices manifest call.bundle = .ok notices

theorem Parsed.unique {manifest manifest' : SnapshotManifest}
    {notices notices' : List NormalizedNotice} {call' : ImportCall}
    (h : Parsed call manifest notices) (h' : Parsed call' manifest' notices')
    (hb : call'.bundle = call.bundle) : manifest' = manifest ∧ notices' = notices := by
  have hm := h'.accepted
  have hn := h'.parsed
  rw [hb, h.accepted, Option.some.injEq] at hm
  subst hm
  rw [hb, h.parsed, Except.ok.injEq] at hn
  exact ⟨rfl, hn.symm⟩

def bundleKey (lib : SnapshotLib) (call : ImportCall) (manifest : SnapshotManifest)
    (notices : List NormalizedNotice) : String :=
  deriveIdempotencyKey lib manifest.bundleId notices call.bundle.inspection.manifestSha256

/-- The call's commit stores the import of a bundle that was not imported. -/
def StoresNew (lib : SnapshotLib) (call : ImportCall) (store : Store) : Prop :=
  ∃ manifest notices, Parsed call manifest notices ∧ call.commit.stores = true ∧
    (∀ r ∈ store.rows.imports, r.idempotencyKey ≠ bundleKey lib call manifest notices) ∧
    ∃ record s', (importBody lib call manifest call.bundle.inspection notices
      (bundleKey lib call manifest notices)).Returns ⟨store.rows, store.outside, 0⟩ record s'

/-- The commit raises, or after it closing the session or removing the directory. -/
def RaisesLate (call : ImportCall) : Prop :=
  (call.commit ≠ .done ∨ call.close ≠ none) ∨ call.cleanup ≠ none

/-- The invariant between calls. -/
structure Resting (lib : SnapshotLib) (store : Store) : Prop where
  sound : Sound lib store.rows store.outside.drawn
  succeeded : ∀ r ∈ store.rows.imports, r.status = "success"

/-- A call that stored nothing; a record it returned was there. -/
structure Nothing (lib : SnapshotLib) (call : ImportCall) (store : Store)
    (result : Except Exn SnapshotImport × Store) : Prop where
  rows : result.2.rows = store.rows
  drawn : store.outside.drawn ≤ result.2.outside.drawn
  found : ∀ record, result.1 = .ok record → ∃ manifest notices, Parsed call manifest notices ∧
    record ∈ store.rows.imports ∧ record.idempotencyKey = bundleKey lib call manifest notices

/-- A call that stored an import; unless something raised late it returned its record. -/
structure Something (lib : SnapshotLib) (call : ImportCall) (store : Store)
    (manifest : SnapshotManifest) (notices : List NormalizedNotice) (record : SnapshotImport)
    (result : Except Exn SnapshotImport × Store) : Prop where
  parsed : Parsed call manifest notices
  stored : Stored lib call manifest notices store.rows store.outside.drawn (bundleKey lib call manifest notices) record
    result.2.rows result.2.outside.drawn
  new : StoresNew lib call store
  reported : (¬ RaisesLate call ∧ result.1 = .ok record) ∨
    (RaisesLate call ∧ ∃ e, result.1 = .error e)

/-- What is left of a call when its transaction is over: the directory is removed. -/
def leave (call : ImportCall) (tx : Except Exn SnapshotImport × Tables × Outside) :
    Except Exn SnapshotImport × Store :=
  match call.cleanup with
  | some e => (.error (materializeError e), ⟨tx.2.1, tx.2.2⟩)
  | none => (tx.1.mapError materializeError, ⟨tx.2.1, tx.2.2⟩)

section Leave

variable {tx : Except Exn SnapshotImport × Tables × Outside}

theorem leave_stored : (leave call tx).2 = ⟨tx.2.1, tx.2.2⟩ := by
  unfold leave
  split <;> rfl

theorem leave_ok {record : SnapshotImport} :
    (leave call tx).1 = .ok record ↔ call.cleanup = none ∧ tx.1 = .ok record := by
  unfold leave
  cases call.cleanup with
  | some e => simp
  | none => cases htx : tx.1 <;> simp [Except.mapError]

theorem leave_error (h : call.cleanup ≠ none ∨ ∃ e, tx.1 = .error e) :
    ∃ e, (leave call tx).1 = .error e := by
  unfold leave
  cases hc : call.cleanup with
  | some e => exact ⟨_, rfl⟩
  | none =>
    rcases h with h | ⟨e, he⟩
    · exact absurd hc h
    · exact ⟨materializeError e, by rw [he]; rfl⟩

end Leave

/-- The transaction of a call. -/
def transaction (lib : SnapshotLib) (call : ImportCall) (manifest : SnapshotManifest)
    (notices : List NormalizedNotice) (store : Store) :
    Except Exn SnapshotImport × Tables × Outside :=
  unitOfWork call.commit call.close
    (importBody lib call manifest call.bundle.inspection notices
      (bundleKey lib call manifest notices)) store.rows store.outside

theorem importBundle_parsed {manifest : SnapshotManifest} {notices : List NormalizedNotice}
    (h : Parsed call manifest notices) (store : Store) :
    importBundle lib call store = leave call (transaction lib call manifest notices store) := by
  unfold importBundle importVerifiedBundle
  simp only [h.overLimit, h.staging, h.accepted, h.parsed]
  rfl

theorem transaction_cases (lib : SnapshotLib) (call : ImportCall) (manifest : SnapshotManifest)
    (notices : List NormalizedNotice) (store : Store) :
    ((transaction lib call manifest notices store).2.1 = store.rows ∧
        ∃ e, (transaction lib call manifest notices store).1 = .error e) ∨
      ∃ record s', (importBody lib call manifest call.bundle.inspection notices
          (bundleKey lib call manifest notices)).Returns ⟨store.rows, store.outside, 0⟩ record s' ∧
        call.commit.stores = true ∧
        (transaction lib call manifest notices store).2 = (s'.rows, s'.outside) ∧
        ((call.commit = .done ∧ call.close = none ∧
            (transaction lib call manifest notices store).1 = .ok record) ∨
          ((call.commit ≠ .done ∨ call.close ≠ none) ∧
            ∃ e, (transaction lib call manifest notices store).1 = .error e)) :=
  unitOfWork_cases

/-- A call that does not get to its transaction touches nothing. -/
theorem importBundle_unparsed (lib : SnapshotLib) (h : ∀ manifest notices, ¬ Parsed call manifest notices)
    (store : Store) : (importBundle lib call store).2 = store ∧
      ∃ e, (importBundle lib call store).1 = .error e := by
  unfold importBundle
  split
  · exact ⟨rfl, _, rfl⟩
  · rename_i hlimit
    split
    · exact ⟨rfl, _, rfl⟩
    · rename_i hstaging
      have hverified : (importVerifiedBundle lib call store).2 = store ∧
          ∃ e, (importVerifiedBundle lib call store).1 = .error e := by
        unfold importVerifiedBundle
        dsimp only
        split
        · exact ⟨rfl, _, rfl⟩
        · rename_i manifest haccepted
          split
          · exact ⟨rfl, _, rfl⟩
          · rename_i notices hparsed
            exact absurd ⟨hlimit, hstaging, haccepted, hparsed⟩ (h manifest notices)
      obtain ⟨hstore, e, he⟩ := hverified
      dsimp only
      split
      · exact ⟨hstore, _, rfl⟩
      · exact ⟨hstore, materializeError e, by rw [he]; rfl⟩

theorem importBundle_cases (call : ImportCall) {store : Store} (hr : Resting lib store) :
    Nothing lib call store (importBundle lib call store) ∨
      ∃ manifest notices record,
        Something lib call store manifest notices record (importBundle lib call store) := by
  by_cases hparsed : ∃ manifest notices, Parsed call manifest notices
  · obtain ⟨manifest, notices, hparsed⟩ := hparsed
    have hkeeps : DrawnFrom store.outside.drawn
        (transaction lib call manifest notices store).2.2 :=
      unitOfWork_keeps (importBody_keeps _ _ _ _) (Nat.le_refl store.outside.drawn)
    have hcases := transaction_cases lib call manifest notices store
    rw [importBundle_parsed hparsed]
    generalize transaction lib call manifest notices store = tx at hkeeps hcases ⊢
    rcases hcases with ⟨hrows, e, he⟩ | ⟨record, s', hret, hcommit, htx, hreport⟩
    · refine Or.inl ⟨by rw [leave_stored, hrows], by rw [leave_stored]; exact hkeeps, ?_⟩
      intro record hrecord
      have hok := (leave_ok.mp hrecord).2
      rw [he] at hok
      cases hok
    · rcases importBody_cases hr.sound hret with ⟨hrows, hmem, hkey⟩ | hstored
      · refine Or.inl ⟨by rw [leave_stored, htx, hrows], by rw [leave_stored]; exact hkeeps, ?_⟩
        intro record' hrecord
        have hok := (leave_ok.mp hrecord).2
        obtain rfl : record' = record := by
          rcases hreport with ⟨-, -, hok'⟩ | ⟨-, e, he⟩
          · rw [hok', Except.ok.injEq] at hok
            exact hok.symm
          · rw [he] at hok
            cases hok
        exact ⟨manifest, notices, hparsed, hmem, hkey⟩
      · refine Or.inr ⟨manifest, notices, record, hparsed, by rw [leave_stored, htx]; exact hstored,
          ⟨manifest, notices, hparsed, hcommit, hstored.fresh, record, s', hret⟩, ?_⟩
        rcases hreport with ⟨hdone, hclose, hok⟩ | ⟨hlate, e, he⟩
        · by_cases hcleanup : call.cleanup = none
          · refine Or.inl ⟨?_, leave_ok.mpr ⟨hcleanup, hok⟩⟩
            simp [RaisesLate, hdone, hclose, hcleanup]
          · exact Or.inr ⟨Or.inr hcleanup, leave_error (Or.inl hcleanup)⟩
        · exact Or.inr ⟨Or.inl hlate, leave_error (Or.inr ⟨e, he⟩)⟩
  · have hun := importBundle_unparsed lib (fun manifest notices h => hparsed ⟨manifest, notices, h⟩) store
    obtain ⟨hstore, e, he⟩ := hun
    refine Or.inl ⟨by rw [hstore], by rw [hstore], fun record hrecord => ?_⟩
    rw [he] at hrecord
    cases hrecord

/-! ## Histories -/

theorem Resting.empty : Resting lib {} := ⟨Sound.empty, by simp⟩

/-- What every call does, whatever it stores and however it leaves. -/
theorem importBundle_step (call : ImportCall) {store : Store} (hr : Resting lib store) :
    Resting lib (importBundle lib call store).2 ∧
      Extends store.rows (importBundle lib call store).2.rows ∧
      ∃ added, (importBundle lib call store).2.rows.imports = store.rows.imports ++ added := by
  rcases importBundle_cases call hr with hnothing | ⟨manifest, notices, record, hsome⟩
  · refine ⟨⟨?_, ?_⟩, ?_, [], ?_⟩
    · rw [hnothing.rows]
      exact hr.sound.mono hnothing.drawn
    · rw [hnothing.rows]
      exact hr.succeeded
    · rw [hnothing.rows]
      exact Extends.refl _
    · rw [hnothing.rows, List.append_nil]
  · have hstored := hsome.stored
    refine ⟨⟨hstored.sound, ?_⟩, hstored.extends', [record], hstored.imports⟩
    intro r hmem
    rw [hstored.imports] at hmem
    rcases List.mem_append.mp hmem with hmem | hmem
    · exact hr.succeeded r hmem
    · rw [List.mem_singleton.mp hmem]
      exact hstored.success

/-- The store after some calls. -/
def continued (lib : SnapshotLib) (store : Store) (calls : List ImportCall) : Store :=
  calls.foldl (fun store call => (importBundle lib call store).2) store

/-- The store after a history on an empty database. -/
def after (lib : SnapshotLib) (calls : List ImportCall) : Store := continued lib {} calls

theorem after_append (earlier later : List ImportCall) :
    after lib (earlier ++ later) = continued lib (after lib earlier) later :=
  List.foldl_append

theorem after_snoc (calls : List ImportCall) (call : ImportCall) :
    after lib (calls ++ [call]) = (importBundle lib call (after lib calls)).2 := by
  rw [after_append]
  rfl

theorem continued_step : ∀ (calls : List ImportCall) {store : Store}, Resting lib store →
    Resting lib (continued lib store calls) ∧ Extends store.rows (continued lib store calls).rows ∧
      ∃ added, (continued lib store calls).rows.imports = store.rows.imports ++ added
  | [], store, hr => ⟨hr, Extends.refl _, [], by simp [continued]⟩
  | call :: calls, store, hr => by
    obtain ⟨hr', hext, added, hadded⟩ := importBundle_step call hr
    obtain ⟨hr'', hext', added', hadded'⟩ := continued_step calls hr'
    refine ⟨hr'', hext.trans hext', added ++ added', ?_⟩
    rw [← List.append_assoc, ← hadded]
    exact hadded'

theorem after_resting (lib : SnapshotLib) (calls : List ImportCall) : Resting lib (after lib calls) :=
  (continued_step calls Resting.empty).1

theorem StoresNew.rows_ne {store : Store} (hr : Resting lib store) (h : StoresNew lib call store) :
    (importBundle lib call store).2.rows ≠ store.rows := by
  obtain ⟨manifest, notices, hparsed, hcommit, hnew, record, s', hret⟩ := h
  rw [importBundle_parsed hparsed, leave_stored, transaction, unitOfWork_stored hret hcommit]
  rcases importBody_cases hr.sound hret with ⟨-, hmem, hkey⟩ | hstored
  · exact absurd hkey (hnew record hmem)
  · intro heq
    change s'.rows = store.rows at heq
    have himports := hstored.imports
    rw [heq] at himports
    simpa using congrArg List.length himports

/-- The ledger grows by the notices of the bundle whose import a call stores. -/
theorem importBundle_written (call : ImportCall) {store : Store} (hr : Resting lib store) :
    (¬ StoresNew lib call store ∧
        (importBundle lib call store).2.rows.written = store.rows.written) ∨
      (StoresNew lib call store ∧ ∃ manifest notices, Parsed call manifest notices ∧
        (importBundle lib call store).2.rows.written =
          store.rows.written ++ notices.map (entry lib call manifest)) := by
  rcases importBundle_cases call hr with hnothing | ⟨manifest, notices, record, hsome⟩
  · exact Or.inl ⟨fun h => h.rows_ne hr hnothing.rows, by rw [hnothing.rows]⟩
  · exact Or.inr ⟨hsome.new, manifest, notices, hsome.parsed, hsome.stored.written⟩

theorem importBundle_mirrored (call : ImportCall) {store : Store} (hr : Resting lib store)
    (hm : Mirrored store.rows) : Mirrored (importBundle lib call store).2.rows := by
  rcases importBundle_cases call hr with hnothing | ⟨manifest, notices, record, hsome⟩
  · rw [hnothing.rows]
    exact hm
  · exact hsome.stored.mirrored hm

theorem after_mirrored (lib : SnapshotLib) (calls : List ImportCall) :
    Mirrored (after lib calls).rows := by
  induction calls using List.reverseRecOn with
  | nil => exact Mirrored.empty
  | append_singleton calls call ih =>
    rw [after_snoc]
    exact importBundle_mirrored call (after_resting lib calls) ih

/-! ## The law -/

/-- The environment of the call raises nothing. -/
structure Undisturbed (call : ImportCall) : Prop where
  fault : ∀ k, call.fault k = none
  staging : call.staging = none
  commit : call.commit = .done
  close : call.close = none
  cleanup : call.cleanup = none

/-- The law of a history: unique and immutable versions, and for each of its
calls, idempotency and atomicity. -/
structure ImportLaw (lib : SnapshotLib) (calls : List ImportCall) : Prop where
  unique : ((after lib calls).rows.versions.map NoticeVersion.key).Nodup
  immutable : ∀ earlier later, calls = earlier ++ later →
    ∀ v ∈ (after lib earlier).rows.versions, v ∈ (after lib calls).rows.versions ∧
      evidenceOf (after lib calls).rows v.id = evidenceOf (after lib earlier).rows v.id
  idempotent : ∀ earlier first between again later,
    calls = earlier ++ first :: between ++ again :: later → again.bundle = first.bundle →
    ∀ record, (importBundle lib first (after lib earlier)).1 = .ok record →
      let store := after lib (earlier ++ first :: between)
      (importBundle lib again store).2.rows = store.rows ∧
        (∀ record', (importBundle lib again store).1 = .ok record' → record' = record) ∧
        (Undisturbed again → (importBundle lib again store).1 = .ok record)
  atomic : ∀ earlier failing later, calls = earlier ++ failing :: later →
    ∀ e, (importBundle lib failing (after lib earlier)).1 = .error e →
      (importBundle lib failing (after lib earlier)).2.rows = (after lib earlier).rows

theorem after_unique (calls : List ImportCall) :
    ((after lib calls).rows.versions.map NoticeVersion.key).Nodup :=
  (after_resting lib calls).sound.versionKeys

theorem after_immutable (earlier later : List ImportCall) {v : NoticeVersion}
    (hv : v ∈ (after lib earlier).rows.versions) :
    v ∈ (after lib (earlier ++ later)).rows.versions ∧
      evidenceOf (after lib (earlier ++ later)).rows v.id =
        evidenceOf (after lib earlier).rows v.id := by
  rw [after_append]
  have hext := (continued_step later (after_resting lib earlier)).2.1
  exact ⟨hext.mem hv, hext.evidence v hv⟩

/-- The record a call returned is stored under the key of its bundle. -/
theorem importBundle_ok {store : Store} (hr : Resting lib store) {record : SnapshotImport}
    (h : (importBundle lib call store).1 = .ok record) :
    ∃ manifest notices, Parsed call manifest notices ∧
      record ∈ (importBundle lib call store).2.rows.imports ∧
      record.idempotencyKey = bundleKey lib call manifest notices := by
  rcases importBundle_cases call hr with hnothing | ⟨manifest, notices, stored, hsome⟩
  · obtain ⟨manifest, notices, hparsed, hmem, hkey⟩ := hnothing.found record h
    exact ⟨manifest, notices, hparsed, by rw [hnothing.rows]; exact hmem, hkey⟩
  · rcases hsome.reported with ⟨-, hok⟩ | ⟨-, e, he⟩
    · rw [hok, Except.ok.injEq] at h
      refine ⟨manifest, notices, hsome.parsed, ?_, h ▸ hsome.stored.key⟩
      rw [hsome.stored.imports, h]
      exact List.mem_append_right _ (List.mem_singleton_self record)
    · rw [he] at h
      cases h

theorem imports_unique {store : Store} (hr : Resting lib store) {r r' : SnapshotImport}
    (h : r ∈ store.rows.imports) (h' : r' ∈ store.rows.imports)
    (hkey : r.idempotencyKey = r'.idempotencyKey) : r = r' :=
  List.inj_on_of_nodup_map hr.sound.importKeys h h' hkey

/-- A bundle whose import is stored is not imported again. -/
theorem importBundle_again {store : Store} (hr : Resting lib store)
    {manifest : SnapshotManifest} {notices : List NormalizedNotice} {record : SnapshotImport}
    (hmem : record ∈ store.rows.imports)
    (hbundle : ∀ manifest' notices', Parsed call manifest' notices' →
      manifest' = manifest ∧ notices' = notices)
    (hkey : record.idempotencyKey = bundleKey lib call manifest notices) :
    (importBundle lib call store).2.rows = store.rows ∧
      ∀ record', (importBundle lib call store).1 = .ok record' → record' = record := by
  rcases importBundle_cases call hr with hnothing | ⟨manifest', notices', stored, hsome⟩
  · refine ⟨hnothing.rows, fun record' h => ?_⟩
    obtain ⟨manifest', notices', hparsed, hmem', hkey'⟩ := hnothing.found record' h
    obtain ⟨rfl, rfl⟩ := hbundle manifest' notices' hparsed
    exact imports_unique hr hmem' hmem (hkey'.trans hkey.symm)
  · obtain ⟨rfl, rfl⟩ := hbundle manifest' notices' hsome.parsed
    exact absurd hkey (hsome.stored.fresh record hmem)

/-- Undisturbed, the call that finds a record returns it. -/
theorem importBundle_found {store : Store} (hr : Resting lib store) (hu : Undisturbed call)
    {manifest : SnapshotManifest} {notices : List NormalizedNotice} {record : SnapshotImport}
    (hparsed : Parsed call manifest notices) (hmem : record ∈ store.rows.imports)
    (hkey : record.idempotencyKey = bundleKey lib call manifest notices) :
    (importBundle lib call store).1 = .ok record := by
  have hfind : store.rows.imports.find?
      (·.idempotencyKey == bundleKey lib call manifest notices) = some record := by
    cases hf : store.rows.imports.find? (·.idempotencyKey == bundleKey lib call manifest notices) with
    | none => exact absurd (List.find?_eq_none.mp hf record hmem) (by simp [hkey])
    | some found =>
      have hkey' : found.idempotencyKey = bundleKey lib call manifest notices := by
        simpa using List.find?_some hf
      rw [imports_unique hr (List.mem_of_find?_eq_some hf) hmem (hkey'.trans hkey.symm)]
  have hret : (importBody lib call manifest call.bundle.inspection notices
      (bundleKey lib call manifest notices)).Returns ⟨store.rows, store.outside, 0⟩ record
      ⟨store.rows, store.outside, 1⟩ := by
    refine then_returns.mpr ⟨some record, ⟨store.rows, store.outside, 1⟩, ?_, ?_⟩
    · unfold findImport find
      rw [query_returns]
      exact ⟨hu.fault 0, hfind.symm, rfl⟩
    · simp [Option.filter, hr.succeeded record hmem]
  rw [importBundle_parsed hparsed, leave_ok]
  refine ⟨hu.cleanup, ?_⟩
  unfold transaction unitOfWork
  rw [hret, hu.commit, hu.close]

theorem after_idempotent {earlier between : List ImportCall} {first again : ImportCall}
    (hbundle : again.bundle = first.bundle) {record : SnapshotImport}
    (h : (importBundle lib first (after lib earlier)).1 = .ok record) :
    let store := after lib (earlier ++ first :: between)
    (importBundle lib again store).2.rows = store.rows ∧
      (∀ record', (importBundle lib again store).1 = .ok record' → record' = record) ∧
      (Undisturbed again → (importBundle lib again store).1 = .ok record) := by
  intro store
  have hr : Resting lib store := after_resting lib _
  obtain ⟨manifest, notices, hparsed, hmem, hkey⟩ := importBundle_ok (after_resting lib earlier) h
  have hstore : store = continued lib (importBundle lib first (after lib earlier)).2 between :=
    after_append earlier (first :: between)
  have hmem' : record ∈ store.rows.imports := by
    obtain ⟨-, -, added, hadded⟩ := continued_step between
      (importBundle_step first (after_resting lib earlier)).1
    rw [hstore, hadded]
    exact List.mem_append_left _ hmem
  have hkey' : record.idempotencyKey = bundleKey lib again manifest notices := by
    rw [hkey, bundleKey, bundleKey, hbundle]
  obtain ⟨hrows, hsame⟩ := importBundle_again hr hmem'
    (fun _ _ hparsed' => hparsed.unique hparsed' hbundle) hkey'
  refine ⟨hrows, hsame, fun hu => importBundle_found hr hu ?_ hmem' hkey'⟩
  exact ⟨hbundle ▸ hparsed.overLimit, hu.staging, hbundle ▸ hparsed.accepted,
    hbundle ▸ hparsed.parsed⟩

/-- A call fails and changes rows exactly when it raises late. -/
theorem importBundle_atomic_iff {store : Store} (hr : Resting lib store) :
    (∀ e, (importBundle lib call store).1 = .error e →
        (importBundle lib call store).2.rows = store.rows) ↔
      ¬ (StoresNew lib call store ∧ RaisesLate call) := by
  rcases importBundle_cases call hr with hnothing | ⟨manifest, notices, record, hsome⟩
  · exact ⟨fun _ hlate => hlate.1.rows_ne hr hnothing.rows, fun _ e _ => hnothing.rows⟩
  · have hne := hsome.new.rows_ne hr
    rcases hsome.reported with ⟨hnot, hok⟩ | ⟨hlate, e, he⟩
    · refine ⟨fun _ hlate => hnot hlate.2, fun _ e he => ?_⟩
      rw [hok] at he
      cases he
    · exact ⟨fun h => absurd (h e he) hne, fun h => absurd ⟨hsome.new, hlate⟩ h⟩

/-- The law holds of a history exactly when no call raises after it stored an import. -/
theorem importLaw_iff (lib : SnapshotLib) (calls : List ImportCall) :
    ImportLaw lib calls ↔ ∀ earlier call later, calls = earlier ++ call :: later →
      ¬ (StoresNew lib call (after lib earlier) ∧ RaisesLate call) := by
  constructor
  · intro h earlier call later hcalls
    exact (importBundle_atomic_iff (after_resting lib earlier)).mp (h.atomic earlier call later hcalls)
  · intro h
    refine ⟨after_unique calls, ?_, ?_, ?_⟩
    · intro earlier later hcalls v hv
      rw [hcalls]
      exact after_immutable earlier later hv
    · intro earlier first between again later _ hbundle record hok
      exact after_idempotent hbundle hok
    · intro earlier failing later hcalls
      exact (importBundle_atomic_iff (after_resting lib earlier)).mpr (h earlier failing later hcalls)

/-! ## A failed import that is stored -/

def demoManifest (bundleId : String) : SnapshotManifest where
  bundleId := bundleId
  source := .syntheticDemo
  captureKind := .syntheticDemo
  schemaVersion := 1
  sourceUrls := [⟨"https://example.invalid/demo-1", some "example.invalid"⟩]
  retrievedAt := ⟨0, 0⟩
  retrievalOutcome := "ok"
  parserVersion := "1"
  payload := bundleId

/-- A valid bundle of these notices. -/
def demoBundle (bundleId : String) (notices : List NormalizedNotice) : Bundle where
  inspection := {
    valid := true
    bundleId := some bundleId
    errors := []
    actualHashes := [("payload/notices.json", "h")]
    manifestSha256 := some ("sha256:" ++ bundleId)
    manifest := some (demoManifest bundleId) }
  parsed := .ok notices

def demoNotice (title : String) : NormalizedNotice where
  source := .syntheticDemo
  externalId := "demo-1"
  sourceUrl := ⟨"https://example.invalid/demo-1", some "example.invalid"⟩
  captureKind := .syntheticDemo
  title := some title
  parserVersion := "1"

def demoCall (now : Int) (bundleId : String) (notices : List NormalizedNotice) : ImportCall where
  bundle := demoBundle bundleId notices
  now := now
  clock := fun _ => ⟨now, 0⟩

/-- The temporary directory cannot be removed. -/
def busyCall : ImportCall :=
  { demoCall 1 "b-1" [demoNotice "Roadworks"] with
    cleanup := some (.os "[Errno 16] Device or resource busy") }

/-- The call reports that the bundle could not be materialised, and its import
with the notice and its version is in the database. -/
theorem busyCall_stored :
    ((importBundle asciiSnapshotLib busyCall {}).1 = .error (.snapshotImport {
        message := "could not materialize bundle for import: [Errno 16] Device or resource busy" }) ∧
      (importBundle asciiSnapshotLib busyCall {}).2.rows.imports.map (·.status) = ["success"] ∧
      (importBundle asciiSnapshotLib busyCall {}).2.rows.versions.length = 1) ∧
    ¬ ImportLaw asciiSnapshotLib [busyCall] := by
  have hrun : (importBundle asciiSnapshotLib busyCall {}).1 = .error (.snapshotImport {
        message := "could not materialize bundle for import: [Errno 16] Device or resource busy" }) ∧
      (importBundle asciiSnapshotLib busyCall {}).2.rows.imports.map (·.status) = ["success"] ∧
      (importBundle asciiSnapshotLib busyCall {}).2.rows.versions.length = 1 := by
    decide +kernel
  refine ⟨hrun, fun h => ?_⟩
  have hatomic := h.atomic [] busyCall [] rfl
  rw [show after asciiSnapshotLib [] = {} from rfl] at hatomic
  have hlen := hrun.2.2
  rw [hatomic _ hrun.1] at hlen
  cases hlen

/-- The task is cancelled while it awaits the reply to its commit. -/
def cancelledCall : ImportCall :=
  { demoCall 1 "b-1" [demoNotice "Roadworks"] with commit := .lost (.other "CancelledError") }

example : (importBundle asciiSnapshotLib cancelledCall {}).1 = .error (.other "CancelledError") ∧
    (importBundle asciiSnapshotLib cancelledCall {}).2.rows.versions.length = 1 := by
  decide +kernel

end BidScope.L5
