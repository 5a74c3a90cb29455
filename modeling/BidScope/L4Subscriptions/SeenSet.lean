import BidScope.L4Subscriptions.Notices

/-!
# The seen set over histories

One subscription over a serial history of imports, deletions of versions and
successful runs. A seen item is stored as a hash, but the diff knows a notice
only through the version row that the hash names: `_load_seen_views` skips an
item without its row, and the hashes `_diff_and_emit` compares are taken from
the views that are left, so its hash-only branch is never reached. And of two
versions stored in one transaction a run may read either as the latest.

* `repeat_silent_iff`: a run repeated on the same newest versions is silent
  exactly when it reads the same ones of them last; `samePick_of_alone`: it does
  where no two of them were created at one time.
* `seen_law_iff`: a history obeys the seen-set law exactly when every run in it
  still finds the version rows that its notices' seen items name, and every
  repeated run reads the same versions last.
-/
namespace BidScope.L4

open BidScope.L1

/-- What the history of one subscription changes. -/
structure History where
  db : NoticeDb := .empty
  seen : SeenItems := .empty
  inbox : List InboxEvent := []

inductive HOp where
  | importVersion (noticeId : String) (row : SourceNotice) (contentHash : String)
      (version : NoticeVersion)
  | deleteVersion (noticeId contentHash : String)
  /-- A successful run; its report cites these version ids, and its query for
  the latest versions returns its rows in this order. -/
  | run (order cited : List String)

def HOp.isRun : HOp → Bool
  | .run _ _ => true
  | _ => false

variable (lib : Lib)

/-- The views a run at `s` compares. -/
def History.matched (s : History) (order cited : List String) : Dict String NoticeView :=
  noticeViewsFromReport order s.db cited

/-- What a run at `s` adds to the inbox. -/
def History.emitted (s : History) (order cited : List String) : List InboxEvent :=
  (diffAndEmit lib (loadSeenViews s.db s.seen) (s.matched order cited)).1

/-- A run is `_diff_and_emit` followed by `_advance_seen`.
mirrors subscriptions/service.py:712-717 -/
def History.apply (s : History) : HOp → History
  | .importVersion n row hash version => { s with db := L4.importVersion s.db n row hash version }
  | .deleteVersion n hash => { s with db := L4.deleteVersion s.db n hash }
  | .run order cited =>
    { s with
      seen := advanceSeen s.seen (s.matched order cited)
      inbox := s.inbox ++ s.emitted lib order cited }

def History.after (s : History) (ops : List HOp) : History := ops.foldl (History.apply lib) s

/-- The newest versions of a notice, with their evidence. -/
def History.newest (s : History) (noticeId : String) : List (String × NoticeVersion) :=
  ((s.db.get noticeId).map newestVersions).getD []

/-! ## The law -/

/-- What the law asks of a run at `s`: no `new_notice` for a notice with a seen
item, and a `material_change` where the version of the item is gone. -/
structure RunLaw (s : History) (order cited : List String) : Prop where
  never_new : ∀ e ∈ s.emitted lib order cited,
    e.eventType = "new_notice" → s.seen.get e.noticeId = none
  fallback : ∀ n view hash, (s.matched order cited).get n = some view → s.seen.get n = some hash →
    seenView s.db n hash = none →
      ∃ e ∈ s.emitted lib order cited, e.noticeId = n ∧ e.eventType = "material_change"

/-- A run at `s` is silent and leaves the seen items as they are. -/
def Silent (s : History) (order cited : List String) : Prop :=
  s.emitted lib order cited = [] ∧ (s.apply lib (.run order cited)).seen = s.seen

/-- A run at `s` compares only notices that one at `s₀` compared, and their
newest versions, with their evidence, are those of then. -/
def Unchanged (s₀ : History) (order₀ cited₀ : List String) (s : History)
    (order cited : List String) : Prop :=
  ∀ n view, (s.matched order cited).get n = some view →
    (∃ view₀, (s₀.matched order₀ cited₀).get n = some view₀) ∧ (s.newest n).Perm (s₀.newest n)

/-- A run of the history `ops` from `s₀` and the next one, on the same newest
versions. -/
structure Repetition (s₀ : History) (ops : List HOp) where
  pre : List HOp
  order₀ : List String
  cited₀ : List String
  mid : List HOp
  order : List String
  cited : List String
  post : List HOp
  runs : ops = pre ++ .run order₀ cited₀ :: mid ++ .run order cited :: post
  next : ∀ op ∈ mid, op.isRun = false
  unchanged : Unchanged (s₀.after lib pre) order₀ cited₀
    (s₀.after lib (pre ++ .run order₀ cited₀ :: mid)) order cited

/-- The history before the run that is repeated. -/
def Repetition.first {lib : Lib} {s₀ : History} {ops : List HOp} (r : Repetition lib s₀ ops) : History :=
  s₀.after lib r.pre

/-- The history before its repetition. -/
def Repetition.again {lib : Lib} {s₀ : History} {ops : List HOp} (r : Repetition lib s₀ ops) : History :=
  s₀.after lib (r.pre ++ .run r.order₀ r.cited₀ :: r.mid)

/-- The seen-set law over a history from `s₀`. -/
structure SeenLaw (s₀ : History) (ops : List HOp) : Prop where
  run : ∀ pre order cited post, ops = pre ++ .run order cited :: post →
    RunLaw lib (s₀.after lib pre) order cited
  repeated : ∀ r : Repetition lib s₀ ops, Silent lib r.again r.order r.cited

/-- The seen items of the notices a run compares still have the version row
that their hash names. -/
def VersionsKept (s : History) (order cited : List String) : Prop :=
  ∀ n view hash, (s.matched order cited).get n = some view → s.seen.get n = some hash →
    (seenView s.db n hash).isSome

/-- Of the newest versions of each notice it compares, a run at `s` reads the
one last that the order `order₀` puts last at `s₀`. -/
def SamePick (s₀ : History) (order₀ : List String) (s : History) (order cited : List String) :
    Prop :=
  ∀ n view, (s.matched order cited).get n = some view →
    lastRead order (s.newest n) = lastRead order₀ (s₀.newest n)

/-! ## One run -/

variable {lib} {s : History} {order cited : List String}

theorem previous_none {n : String} : (loadSeenViews s.db s.seen).get n = none ↔
    ∀ hash, s.seen.get n = some hash → seenView s.db n hash = none := by
  rw [get_loadSeenViews]
  cases s.seen.get n <;> simp

/-- A run obeys the law exactly when the version rows are still there. -/
theorem runLaw_iff : RunLaw lib s order cited ↔ VersionsKept s order cited := by
  constructor
  · intro hlaw n view hash hm hs
    by_contra hgone
    have hnone : seenView s.db n hash = none := by simpa using hgone
    -- without its row the notice counts as new
    have hnew : verdict lib (loadSeenViews s.db s.seen) n view = .newNotice := by
      rw [verdict_new, previous_none]
      intro hash' hs'
      rw [hs] at hs'
      cases hs'
      exact hnone
    have hmem : ⟨"new_notice", n, view.title, "New notice: " ++ titleStr view.title⟩ ∈
        s.emitted lib order cited := mem_diffAndEmit.mpr ⟨n, view, hm, by rw [hnew]; rfl⟩
    have := hlaw.never_new _ hmem rfl
    rw [hs] at this
    cases this
  · intro hkept
    constructor
    · intro e he hnew
      obtain ⟨n, view, hm, hev⟩ := mem_diffAndEmit.mp he
      rw [event_noticeId hev]
      have hprev := verdict_new.mp ((event_new hev).mp hnew)
      by_contra hseen
      obtain ⟨hash, hs⟩ := Option.ne_none_iff_exists'.mp hseen
      have hrow := hkept n view hash hm hs
      rw [previous_none.mp hprev hash hs] at hrow
      cases hrow
    · intro n view hash hm hs hgone
      have hrow := hkept n view hash hm hs
      rw [hgone] at hrow
      cases hrow

/-! ## A run repeated -/

theorem after_append (s : History) (pre post : List HOp) :
    s.after lib (pre ++ post) = (s.after lib pre).after lib post := List.foldl_append ..

theorem after_run (s : History) (order cited : List String) (ops : List HOp) :
    s.after lib (.run order cited :: ops) = (s.apply lib (.run order cited)).after lib ops := rfl

/-- Only runs write seen items. -/
theorem after_seen {ops : List HOp} (h : ∀ op ∈ ops, op.isRun = false) :
    (s.after lib ops).seen = s.seen := by
  induction ops generalizing s with
  | nil => rfl
  | cons op ops ih =>
    have hop := h op (List.mem_cons_self ..)
    show ((s.apply lib op).after lib ops).seen = s.seen
    rw [ih fun op' hop' => h op' (List.mem_cons_of_mem _ hop')]
    cases op with
    | importVersion n row hash version => rfl
    | deleteVersion n hash => rfl
    | run order cited => cases hop

/-- Where every notice is seen as read, a run finds nothing to say. -/
theorem silent_of_seen
    (h : ∀ n view, (s.matched order cited).get n = some view → s.seen.get n = some view.contentHash) :
    Silent lib s order cited := by
  constructor
  · rw [List.eq_nil_iff_forall_not_mem]
    intro e he
    obtain ⟨n, view, hm, hev⟩ := mem_diffAndEmit.mp he
    have hlatest : seenView s.db n view.contentHash = some view :=
      seenView_latest (get_noticeViews hm)
    have hprev : (loadSeenViews s.db s.seen).get n = some view := by
      rw [get_loadSeenViews, h n view hm, Option.bind_some, hlatest]
    rw [verdict_same hprev rfl] at hev
    cases hev
  · refine Dict.merge_self fun n hash hn => ?_
    rw [Dict.get_filterMap, Option.bind_eq_some_iff] at hn
    obtain ⟨view, hm, hhash⟩ := hn
    rw [h n view hm, hhash]

/-- A compared view is of the newest version that is read last. -/
theorem matched_pick {n : String} {view : NoticeView}
    (h : (s.matched order cited).get n = some view) :
    ∃ version, lastRead order (s.newest n) = some (view.contentHash, version) := by
  have hlatest := get_noticeViews h
  simp only [latestView, Option.bind_eq_some_iff, Option.map_eq_some_iff] at hlatest
  obtain ⟨source, hs, ⟨hash, version⟩, hv, rfl⟩ := hlatest
  refine ⟨version, ?_⟩
  show lastRead order (s.newest n) = some (hash, version)
  simpa only [History.newest, hs, Option.map_some, Option.getD_some, latestVersion] using hv

theorem newest_get {n : String} {e : String × NoticeVersion} (h : e ∈ s.newest n) :
    ∃ source, s.db.get n = some source ∧ source.versions.get e.1 = some e.2 := by
  cases hs : s.db.get n with
  | none => simp [History.newest, hs] at h
  | some source =>
    simp only [History.newest, hs, Option.map_some, Option.getD_some] at h
    exact ⟨source, rfl, (Dict.mem_iff_get ..).mp (List.mem_of_mem_filter h)⟩

/-- One hash names one of the newest versions. -/
theorem newest_unique {n : String} {a b : String × NoticeVersion} (ha : a ∈ s.newest n)
    (hb : b ∈ s.newest n) (h : a.1 = b.1) : a = b := by
  obtain ⟨source, hs, hga⟩ := newest_get ha
  obtain ⟨source', hs', hgb⟩ := newest_get hb
  rw [hs, Option.some.injEq] at hs'
  subst hs'
  rw [h, hgb, Option.some.injEq] at hga
  exact Prod.ext h hga.symm

/-- What a run leaves of a notice it compares, until the next run. -/
theorem seen_after_run {s : History} {order cited : List String} {mid : List HOp}
    (hmid : ∀ op ∈ mid, op.isRun = false) {n : String} {view : NoticeView}
    (h : (s.matched order cited).get n = some view) :
    (s.after lib (.run order cited :: mid)).seen.get n = some view.contentHash := by
  rw [after_run, after_seen hmid]
  show (advanceSeen s.seen (s.matched order cited)).get n = some view.contentHash
  rw [get_advanceSeen, h]
  rfl

/-- **A repeated run is silent exactly when it reads the same versions last.**
Imports and deletions in between do not matter as long as the newest versions
of the notices it compares are those of the first run. -/
theorem repeat_silent_iff {s : History} {order₀ cited₀ order cited : List String} {mid : List HOp}
    (hmid : ∀ op ∈ mid, op.isRun = false)
    (hsame : Unchanged s order₀ cited₀ (s.after lib (.run order₀ cited₀ :: mid)) order cited) :
    Silent lib (s.after lib (.run order₀ cited₀ :: mid)) order cited ↔
      SamePick s order₀ (s.after lib (.run order₀ cited₀ :: mid)) order cited := by
  constructor
  · intro hsilent n view hm
    obtain ⟨⟨view₀, hm₀⟩, hperm⟩ := hsame n view hm
    obtain ⟨version, hpick⟩ := matched_pick hm
    obtain ⟨version₀, hpick₀⟩ := matched_pick hm₀
    -- the seen item is as the first run left it and as the second leaves it
    have hseen := congrArg (·.get n) hsilent.2
    have hleft : ((s.after lib (.run order₀ cited₀ :: mid)).after lib [.run order cited]).seen.get n =
        some view.contentHash := seen_after_run (List.forall_mem_nil _) hm
    change ((s.after lib (.run order₀ cited₀ :: mid)).apply lib (.run order cited)).seen.get n = _
      at hleft
    have hhash : view.contentHash = view₀.contentHash := by
      have hboth := (hleft.symm.trans hseen).trans (seen_after_run hmid hm₀)
      exact Option.some.inj hboth
    have hmem := hperm.subset (lastRead_mem hpick)
    rw [hpick, hpick₀, newest_unique hmem (lastRead_mem hpick₀) hhash]
  · intro hpicks
    apply silent_of_seen
    intro n view hm
    obtain ⟨⟨view₀, hm₀⟩, -⟩ := hsame n view hm
    obtain ⟨version, hpick⟩ := matched_pick hm
    obtain ⟨version₀, hpick₀⟩ := matched_pick hm₀
    have hboth := hpicks n view hm
    rw [hpick, hpick₀, Option.some.injEq, Prod.mk.injEq] at hboth
    rw [seen_after_run hmid hm₀, hboth.1]

/-- Where no two newest versions were created at one time, every order reads
the same. -/
theorem samePick_of_alone {s₀ : History} {order₀ cited₀ : List String}
    (hsame : Unchanged s₀ order₀ cited₀ s order cited)
    (halone : ∀ n view, (s.matched order cited).get n = some view → (s.newest n).length ≤ 1) :
    SamePick s₀ order₀ s order cited := by
  intro n view hm
  obtain ⟨version, hpick⟩ := matched_pick hm
  obtain ⟨e, he⟩ : ∃ e, s.newest n = [e] := by
    refine List.length_eq_one_iff.mp (le_antisymm (halone n view hm) ?_)
    exact List.length_pos_of_mem (lastRead_mem hpick)
  have hperm := (hsame n view hm).2
  rw [he, List.singleton_perm] at hperm
  rw [he, ← hperm, lastRead_singleton, lastRead_singleton]

/-! ## Histories -/

/-- **The seen-set law holds of a history exactly when its runs find the version
rows of their seen items, and repeated runs read the same versions last.** -/
theorem seen_law_iff (lib : Lib) (s₀ : History) (ops : List HOp) :
    SeenLaw lib s₀ ops ↔
      (∀ pre order cited post, ops = pre ++ .run order cited :: post →
        VersionsKept (s₀.after lib pre) order cited) ∧
      ∀ r : Repetition lib s₀ ops, SamePick r.first r.order₀ r.again r.order r.cited := by
  have hrepeated : ∀ r : Repetition lib s₀ ops, Silent lib r.again r.order r.cited ↔
      SamePick r.first r.order₀ r.again r.order r.cited := by
    intro r
    have hsame := r.unchanged
    unfold Repetition.again
    rw [after_append] at hsame ⊢
    exact repeat_silent_iff r.next hsame
  constructor
  · intro hlaw
    refine ⟨fun pre order cited post hops => ?_, fun r => (hrepeated r).mp (hlaw.repeated r)⟩
    exact runLaw_iff.mp (hlaw.run pre order cited post hops)
  · rintro ⟨hkept, hpicks⟩
    refine ⟨fun pre order cited post hops => ?_, fun r => (hrepeated r).mpr (hpicks r)⟩
    exact runLaw_iff.mpr (hkept pre order cited post hops)

/-! ## A version deleted, two versions of one time -/

def road : SourceNotice := ⟨"ccgp", "T-1", "https://example.org/t-1", none, .empty⟩

/-- Seen at the first version, which is deleted after a second is imported. -/
def vanished : List HOp :=
  [.importVersion "notice-1" road "h1" { id := "v1", createdAt := 1, title := some "Road works" },
    .run ["v1"] ["v1"],
    .importVersion "notice-1" road "h2" { id := "v2", createdAt := 2, title := some "Road works" },
    .deleteVersion "notice-1" "h1"]

/-- Two versions stored by one import, and a run. -/
def paired : List HOp :=
  [.importVersion "notice-1" road "h1" { id := "v1", createdAt := 1, purchaser := some "City" },
    .importVersion "notice-1" road "h2" { id := "v2", createdAt := 1, purchaser := some "County" }]

/-- The run again, and its query returns the two the other way round. -/
def pairedTwice : List HOp := paired ++ [.run ["v1", "v2"] ["v1"], .run ["v2", "v1"] ["v1"]]

def pairedAgain : Repetition asciiLib {} pairedTwice where
  pre := paired
  order₀ := ["v1", "v2"]
  cited₀ := ["v1"]
  mid := []
  order := ["v2", "v1"]
  cited := ["v1"]
  post := []
  runs := rfl
  next := by simp
  unchanged := by
    intro n view hm
    have hn : n = "notice-1" := by
      have hmem := (Dict.mem_iff_get ..).mpr hm
      have hkeys : (((History.after asciiLib {} (paired ++ [.run ["v1", "v2"] ["v1"]])).matched
          ["v2", "v1"] ["v1"]).entries.map Prod.fst) = ["notice-1"] := by decide +kernel
      exact List.mem_singleton.mp (hkeys ▸ List.mem_map_of_mem hmem)
    subst hn
    refine ⟨Option.isSome_iff_exists.mp (by decide +kernel), List.Perm.of_eq (by decide +kernel)⟩

/-- A notice seen is announced as new a second time; and a run repeated on
unchanged rows reports a change and moves the seen hash. -/
theorem vanished_announced_again :
    ((History.emitted asciiLib (History.after asciiLib {} vanished) ["v2"] ["v2"]).map
        (·.eventType) = ["new_notice"] ∧
      (History.after asciiLib {} vanished).seen.get "notice-1" = some "h1" ∧
      ¬ SeenLaw asciiLib {} (vanished ++ [.run ["v2"] ["v2"]])) ∧
    (pairedAgain.again.emitted asciiLib ["v2", "v1"] ["v1"]).map (·.eventType) =
        ["material_change"] ∧
      pairedAgain.again.seen.get "notice-1" = some "h2" ∧
      (History.after asciiLib {} pairedTwice).seen.get "notice-1" = some "h1" ∧
      ¬ SeenLaw asciiLib {} pairedTwice := by
  have hevents : (History.emitted asciiLib (History.after asciiLib {} vanished) ["v2"] ["v2"]).map
      (fun e => (e.eventType, e.noticeId)) = [("new_notice", "notice-1")] := by decide +kernel
  have hseen : (History.after asciiLib {} vanished).seen.get "notice-1" = some "h1" := by
    decide +kernel
  have hchange : (pairedAgain.again.emitted asciiLib ["v2", "v1"] ["v1"]).map (·.eventType) =
      ["material_change"] := by decide +kernel
  refine ⟨⟨?_, hseen, fun hlaw => ?_⟩, hchange, by decide +kernel, by decide +kernel,
    fun hlaw => ?_⟩
  · have := congrArg (List.map Prod.fst) hevents
    simpa [Function.comp_def] using this
  · obtain ⟨e, he, hev⟩ := List.mem_map.mp (hevents ▸ List.mem_singleton.mpr rfl :
      ("new_notice", "notice-1") ∈ _)
    have hnone := (hlaw.run vanished ["v2"] ["v2"] [] rfl).never_new e he (congrArg Prod.fst hev)
    rw [show e.noticeId = "notice-1" from congrArg Prod.snd hev, hseen] at hnone
    cases hnone
  · have hnil : pairedAgain.again.emitted asciiLib ["v2", "v1"] ["v1"] = [] :=
      (hlaw.repeated pairedAgain).1
    rw [hnil] at hchange
    cases hchange

end BidScope.L4
