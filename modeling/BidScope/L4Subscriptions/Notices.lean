import BidScope.Core.Dict
import BidScope.Core.KeyOrder
import BidScope.L1Domain.Deduplication

/-!
# Notices, views and the diff

The part of `subscriptions/service.py` that turns stored notices into inbox
events. A source notice keeps one version a content hash (a unique
constraint); a version keeps its evidence rows, whose ids the database draws at
random and whose texts are read back in id order.

`loadSeenViews` rebuilds what a subscription has seen from the stored hashes,
`noticeViewsFromReport` reads the latest version of every notice a report
cites, `diffAndEmit` compares the two and `advanceSeen` moves the hashes on.
Of two versions created at one time the query that looks for the latest may
return either one last: its order is an argument, `order`.

* `latestVersion_get`: the latest version is one that its own hash finds again.
* `verdict_new`, `verdict_same`: a notice is new when no view of it could be
  rebuilt, and unchanged when the hashes agree.
* `get_advanceSeen`: after a run the notices of the report are seen as read.
-/
namespace BidScope.L4

open BidScope.L1

/-! ## Tables -/

/-- mirrors persistence/models.py:124-132; only the id's order is read. -/
structure EvidenceRow where
  id : Nat
  text : String
  deriving DecidableEq, Repr

/-- A version; its content hash is its key in `SourceNotice.versions`.
mirrors persistence/models.py:78-121 -/
structure NoticeVersion where
  id : String
  createdAt : Nat
  title : Option String := none
  purchaser : Option String := none
  region : Option String := none
  budgetMinorUnits : Option Int := none
  budgetCurrency : Option String := none
  deadline : Option Datetime := none
  cancellation : Bool := false
  evidence : List EvidenceRow := []
  deriving DecidableEq

structure SourceNotice where
  source : String
  externalId : String
  sourceUrl : String
  projectNumber : Option String := none
  versions : Dict String NoticeVersion := .empty
  deriving DecidableEq

/-- The source notices by id. -/
abbrev NoticeDb := Dict String SourceNotice

/-- The seen items of a subscription: notice id to content hash. -/
abbrev SeenItems := Dict String String

/-- mirrors persistence/models.py:472-483 -/
structure InboxEvent where
  eventType : String
  noticeId : String
  title : Option String
  message : String
  deriving DecidableEq, Repr

/-- The outcome a run reports. -/
structure Stats where
  newNotices : Nat := 0
  materialChanges : Nat := 0
  unchanged : Nat := 0
  failed : Bool := false
  skipped : Bool := false
  deriving DecidableEq, Repr

/-! ## Views -/

/-- `SELECT text … ORDER BY id` -/
def evidenceTexts (version : NoticeVersion) : List String :=
  (KeyOrder.orderBy EvidenceRow.id version.evidence).map (·.text)

/-- mirrors subscriptions/service.py:797-817 -/
def buildNoticeView (source : SourceNotice) (contentHash : String) (version : NoticeVersion) :
    NoticeView where
  source := source.source
  externalId := source.externalId
  canonicalUrl := source.sourceUrl
  projectNumber := source.projectNumber
  contentHash := contentHash
  title := version.title
  purchaser := version.purchaser
  region := version.region
  budgetMinorUnits := version.budgetMinorUnits
  budgetCurrency := version.budgetCurrency
  deadline := version.deadline
  cancellation := version.cancellation
  claimSupportingTexts := evidenceTexts version

/-- The versions of a source notice created last: several where one transaction
stored them, as `created_at` is the time the transaction began. -/
def newestVersions (source : SourceNotice) : List (String × NoticeVersion) :=
  let newest := (source.versions.entries.map (·.2.createdAt)).max?
  source.versions.entries.filter fun e => newest == some e.2.createdAt

/-- The one of them a query reads last; `order` are the version ids in the order
it returns them, which no `ORDER BY` fixes. -/
def lastRead (order : List String) (versions : List (String × NoticeVersion)) :
    Option (String × NoticeVersion) :=
  (KeyOrder.orderBy (fun e => order.idxOf e.2.id) versions).getLast?

/-- Among rows created at one time the last one read stays in the dictionary.
mirrors subscriptions/service.py:819-844 -/
def latestVersion (order : List String) (source : SourceNotice) : Option (String × NoticeVersion) :=
  lastRead order (newestVersions source)

def latestView (order : List String) (db : NoticeDb) (noticeId : String) : Option NoticeView :=
  (db.get noticeId).bind fun source =>
    (latestVersion order source).map fun (hash, version) => buildNoticeView source hash version

/-- The source notice of a version. -/
def sourceNoticeOf (db : NoticeDb) (versionId : String) : Option String :=
  (db.entries.find? fun e => e.2.versions.entries.any (·.2.id == versionId)).map (·.1)

/-- `cited` are the notice ids of the report's items.
mirrors subscriptions/service.py:744-794 -/
def noticeViewsFromReport (order : List String) (db : NoticeDb) (cited : List String) :
    Dict String NoticeView :=
  let sourceNoticeIds := (cited.filter (· != "")).filterMap (sourceNoticeOf db)
  .ofList (sourceNoticeIds.filterMap fun n => (latestView order db n).map (n, ·))

/-- The view of the version a seen item names. -/
def seenView (db : NoticeDb) (noticeId versionContentHash : String) : Option NoticeView :=
  (db.get noticeId).bind fun source =>
    (source.versions.get versionContentHash).map (buildNoticeView source versionContentHash)

/-- mirrors subscriptions/service.py:915-962 -/
def loadSeenViews (db : NoticeDb) (seen : SeenItems) : Dict String NoticeView :=
  seen.filterMap (seenView db)

/-! ## Imports and deletions -/

/-- A version is appended only under a new content hash; what the source notice
was created with stays. `noticeId` is the id of the row of `(source, externalId)`.
mirrors snapshots/importer.py:381-432, persistence/repositories.py:129-177 -/
def importVersion (db : NoticeDb) (noticeId : String) (row : SourceNotice) (contentHash : String)
    (version : NoticeVersion) : NoticeDb :=
  let source := (db.get noticeId).getD { row with versions := .empty }
  match source.versions.get contentHash with
  | some _ => db
  | none => db.set noticeId { source with versions := source.versions.set contentHash version }

/-- `DELETE FROM notice_versions` of one row. -/
def deleteVersion (db : NoticeDb) (noticeId contentHash : String) : NoticeDb :=
  match db.get noticeId with
  | some source =>
    db.set noticeId { source with
      versions := source.versions.filterMap fun h v => if h = contentHash then none else some v }
  | none => db

/-! ## The diff -/

inductive Verdict where
  | newNotice
  | materialChange (changes : List MaterialChange)
  | unchanged
  deriving DecidableEq, Repr

variable (lib : Lib)

/-- One turn of the loop of `_diff_and_emit`. -/
def verdict (previousViews : Dict String NoticeView) (noticeId : String) (view : NoticeView) :
    Verdict :=
  let previous := previousViews.get noticeId
  let seenHashes := previousViews.filterMap fun _ v => some v.contentHash
  match seenHashes.get noticeId with
  | none => .newNotice
  | some previousHash =>
    if previousHash ≠ view.contentHash then
      let changes :=
        match previous with
        | some p => detectMaterialChanges lib p view
        | none => [⟨.contentHash, previousHash, view.contentHash⟩]
      if changes ≠ [] then .materialChange changes else .unchanged
    else .unchanged

/-- A title in an f-string. -/
def titleStr : Option String → String
  | some title => title
  | none => "None"

def Verdict.event (noticeId : String) (view : NoticeView) : Verdict → Option InboxEvent
  | .newNotice =>
    some ⟨"new_notice", noticeId, view.title, "New notice: " ++ titleStr view.title⟩
  | .materialChange _ =>
    some ⟨"material_change", noticeId, view.title, "Material change in: " ++ titleStr view.title⟩
  | .unchanged => none

def Stats.count (s : Stats) : Verdict → Stats
  | .newNotice => { s with newNotices := s.newNotices + 1 }
  | .materialChange _ => { s with materialChanges := s.materialChanges + 1 }
  | .unchanged => { s with unchanged := s.unchanged + 1 }

/-- mirrors subscriptions/service.py:846-913 -/
def diffAndEmit (previousViews matched : Dict String NoticeView) : List InboxEvent × Stats :=
  (matched.entries.filterMap fun e => (verdict lib previousViews e.1 e.2).event e.1 e.2,
    matched.entries.foldl (fun s e => s.count (verdict lib previousViews e.1 e.2)) {})

/-- mirrors subscriptions/service.py:964-990 -/
def advanceSeen (seen : SeenItems) (matched : Dict String NoticeView) : SeenItems :=
  seen.merge (matched.filterMap fun _ view => some view.contentHash)

/-! ## What they mean -/

variable {lib} {previousViews : Dict String NoticeView} {n : String} {view : NoticeView}

/-- The branch that compares hashes only is never taken. -/
theorem verdict_eq : verdict lib previousViews n view =
    match previousViews.get n with
    | none => .newNotice
    | some p =>
      if p.contentHash ≠ view.contentHash ∧ detectMaterialChanges lib p view ≠ [] then
        .materialChange (detectMaterialChanges lib p view)
      else .unchanged := by
  unfold verdict
  simp only [Dict.get_filterMap]
  cases previousViews.get n with
  | none => rfl
  | some p =>
    by_cases h : p.contentHash = view.contentHash
    · simp [h]
    · by_cases hc : detectMaterialChanges lib p view = []
      · simp [hc]
      · simp [h, hc]

theorem verdict_new : verdict lib previousViews n view = .newNotice ↔ previousViews.get n = none := by
  rw [verdict_eq]
  cases previousViews.get n with
  | none => simp
  | some p => simp only [reduceCtorEq, iff_false]; split <;> simp

theorem verdict_same {p : NoticeView} (h : previousViews.get n = some p)
    (hh : p.contentHash = view.contentHash) : verdict lib previousViews n view = .unchanged := by
  rw [verdict_eq, h]
  simp [hh]

theorem mem_diffAndEmit {matched : Dict String NoticeView} {e : InboxEvent} :
    e ∈ (diffAndEmit lib previousViews matched).1 ↔
      ∃ n view, matched.get n = some view ∧
        (verdict lib previousViews n view).event n view = some e := by
  simp only [diffAndEmit, List.mem_filterMap, Prod.exists, Dict.mem_iff_get]

theorem event_noticeId {v : Verdict} {e : InboxEvent} (h : v.event n view = some e) :
    e.noticeId = n := by
  cases v <;> cases h <;> rfl

theorem event_new {v : Verdict} {e : InboxEvent} (h : v.event n view = some e) :
    e.eventType = "new_notice" ↔ v = .newNotice := by
  cases v <;> cases h <;> simp

/-- A change is announced between two hashes that differ. -/
theorem event_change {e : InboxEvent}
    (h : (verdict lib previousViews n view).event n view = some e)
    (he : e.eventType = "material_change") :
    ∃ p, previousViews.get n = some p ∧ p.contentHash ≠ view.contentHash := by
  rw [verdict_eq] at h
  cases hp : previousViews.get n with
  | none =>
    rw [hp] at h
    cases h
    simp at he
  | some p =>
    refine ⟨p, rfl, fun hsame => ?_⟩
    simp [hp, hsame, Verdict.event] at h

theorem get_loadSeenViews (db : NoticeDb) (seen : SeenItems) (n : String) :
    (loadSeenViews db seen).get n = (seen.get n).bind (seenView db n) :=
  Dict.get_filterMap ..

theorem get_advanceSeen (seen : SeenItems) (matched : Dict String NoticeView) (n : String) :
    (advanceSeen seen matched).get n = ((matched.get n).map (·.contentHash)).or (seen.get n) := by
  rw [advanceSeen, Dict.get_merge, Dict.get_filterMap]
  cases matched.get n <;> rfl

theorem lastRead_mem {order : List String} {versions : List (String × NoticeVersion)}
    {e : String × NoticeVersion} (h : lastRead order versions = some e) : e ∈ versions :=
  (KeyOrder.orderBy_perm _ _).subset (List.mem_of_getLast? h)

/-- A version created later than all others is read whatever the order. -/
theorem lastRead_singleton (order : List String) (e : String × NoticeVersion) :
    lastRead order [e] = some e := rfl

theorem latestVersion_get {order : List String} {source : SourceNotice} {hash : String}
    {version : NoticeVersion} (h : latestVersion order source = some (hash, version)) :
    source.versions.get hash = some version := by
  rw [← Dict.mem_iff_get]
  exact List.mem_of_mem_filter (lastRead_mem h)

/-- The view of the latest version is the one its own hash names. -/
theorem seenView_latest {order : List String} {db : NoticeDb}
    (h : latestView order db n = some view) :
    seenView db n view.contentHash = some view := by
  simp only [latestView, Option.bind_eq_some_iff, Option.map_eq_some_iff] at h
  obtain ⟨source, hs, ⟨hash, version⟩, hv, rfl⟩ := h
  simp only [seenView, hs, Option.bind_some, Option.map_eq_some_iff]
  exact ⟨version, latestVersion_get hv, rfl⟩

theorem seenView_hash {db : NoticeDb} {hash : String} (h : seenView db n hash = some view) :
    view.contentHash = hash := by
  simp only [seenView, Option.bind_eq_some_iff, Option.map_eq_some_iff] at h
  obtain ⟨source, -, version, -, rfl⟩ := h
  rfl

/-- What a report's notices are compared by is their latest view. -/
theorem get_noticeViews {order : List String} {db : NoticeDb} {cited : List String}
    (h : (noticeViewsFromReport order db cited).get n = some view) :
    latestView order db n = some view := by
  -- every pair the dictionary is built from holds a latest view
  have hinv : ∀ (es : List (String × NoticeView)) (d : Dict String NoticeView),
      (∀ e ∈ es, latestView order db e.1 = some e.2) →
      (∀ k v, d.get k = some v → latestView order db k = some v) →
        ∀ k v, (es.foldl (fun d e => d.set e.1 e.2) d).get k = some v →
          latestView order db k = some v := by
    intro es
    induction es with
    | nil => intro d _ hd; exact hd
    | cons e es ih =>
      intro d he hd
      refine ih (d.set e.1 e.2) (fun e' he' => he e' (List.mem_cons_of_mem _ he')) ?_
      intro k v hk
      rw [Dict.get_set] at hk
      split at hk
      · rename_i heq
        cases hk
        rw [← heq]
        exact he e (List.mem_cons_self ..)
      · exact hd k v hk
  refine hinv _ _ ?_ ?_ n view h
  · intro e he
    simp only [List.mem_filterMap, Option.map_eq_some_iff] at he
    obtain ⟨m, -, v, hv, rfl⟩ := he
    exact hv
  · intro k v hk
    simp at hk

end BidScope.L4
