import Mathlib.Data.List.Permutation
import BidScope.L4Subscriptions.Serial

/-!
# Updates of one subscription under concurrent executions

Executions of one subscription in different minutes have different locks, and
each writes, long after it read them, inbox events, seen items and the whole
`normalized_intent`.

**No lost or duplicated update (`concurrent_updates`).** While every commit is
current, the rows are those of the commit order, a notice is announced once, a
change between two versions is announced once, and the next run never moves
back. `overlapping` is a run of one scheduled and two direct executions that
are not: the notice is announced twice, and a failure writes the next run back
that the scheduled execution had moved on.
-/
namespace BidScope.L4

open BidScope.L1

variable {env : Env} {subs : String → Option Subscription} {s s' : CState}

/-! ## Inbox rows -/

def Filed.isNew (f : Filed) : Bool := f.event.eventType == "new_notice"

def Filed.isChange (f : Filed) : Bool := f.event.eventType == "material_change"

/-- The notices announced as new. -/
def newNotices (inbox : List Filed) : List String :=
  (inbox.filter Filed.isNew).map (·.event.noticeId)

/-- The changes announced: notice and pair of seen hashes. -/
def changes (inbox : List Filed) : List (String × Option String × String) :=
  (inbox.filter Filed.isChange).map fun f => (f.event.noticeId, f.before, f.after)

@[simp] theorem newNotices_append (l r : List Filed) :
    newNotices (l ++ r) = newNotices l ++ newNotices r := by
  simp [newNotices]

@[simp] theorem changes_append (l r : List Filed) : changes (l ++ r) = changes l ++ changes r := by
  simp [changes]

variable {previous matched : Dict String NoticeView}

theorem mem_file {f : Filed} (h : f ∈ file env previous matched) :
    ∃ view, matched.get f.event.noticeId = some view ∧
      (verdict env.lib previous f.event.noticeId view).event f.event.noticeId view = some f.event ∧
      f.before = (previous.get f.event.noticeId).map (·.contentHash) ∧
      f.after = view.contentHash := by
  simp only [file, List.mem_filterMap, Option.map_eq_some_iff] at h
  obtain ⟨⟨n, view⟩, he, event, hev, rfl⟩ := h
  have hid := event_noticeId hev
  simp only at hid hev ⊢
  rw [hid]
  exact ⟨view, (Dict.mem_iff_get ..).mp he, hev, rfl, rfl⟩

/-- One row a notice. -/
theorem file_ids (previous matched : Dict String NoticeView) :
    ((file env previous matched).map (·.event.noticeId)).Nodup := by
  refine matched.distinct.sublist ?_
  unfold file
  induction matched.entries with
  | nil => exact List.Sublist.refl _
  | cons e es ih =>
    rw [List.filterMap_cons]
    cases hev : (verdict env.lib previous e.1 e.2).event e.1 e.2 with
    | none => exact ih.cons _
    | some event =>
      simp only [Option.map_some, List.map_cons]
      rw [event_noticeId hev]
      exact ih.cons_cons _

theorem newNotices_file_nodup (previous matched : Dict String NoticeView) :
    (newNotices (file env previous matched)).Nodup :=
  (file_ids previous matched).sublist (List.filter_sublist.map _)

theorem changes_file_nodup (previous matched : Dict String NoticeView) :
    (changes (file env previous matched)).Nodup := by
  refine List.Nodup.of_map Prod.fst ?_
  rw [changes, List.map_map]
  exact (file_ids previous matched).sublist (List.filter_sublist.map _)

theorem mem_newNotices_file {n : String} (h : n ∈ newNotices (file env previous matched)) :
    previous.get n = none ∧ ∃ view, matched.get n = some view := by
  obtain ⟨f, hf, rfl⟩ := List.mem_map.mp h
  obtain ⟨hfile, hnew⟩ := List.mem_filter.mp hf
  obtain ⟨view, hm, hev, -, -⟩ := mem_file hfile
  have hverdict := (event_new hev).mp (by simpa [Filed.isNew] using hnew)
  exact ⟨verdict_new.mp hverdict, view, hm⟩

theorem mem_changes_file {x : String × Option String × String}
    (h : x ∈ changes (file env previous matched)) :
    ∃ p view, previous.get x.1 = some p ∧ matched.get x.1 = some view ∧
      x.2.1 = some p.contentHash ∧ x.2.2 = view.contentHash ∧ p.contentHash ≠ view.contentHash := by
  obtain ⟨f, hf, rfl⟩ := List.mem_map.mp h
  obtain ⟨hfile, hchange⟩ := List.mem_filter.mp hf
  obtain ⟨view, hm, hev, hbefore, hafter⟩ := mem_file hfile
  simp only [Filed.isChange, beq_iff_eq] at hchange
  obtain ⟨p, hp, hne⟩ := event_change hev hchange
  exact ⟨p, view, hp, hm, by rw [hbefore, hp]; rfl, hafter, hne⟩

/-! ## The inbox against the seen items -/

structure InboxOK (db : NoticeDb) (t : Tables) : Prop where
  newSeen : ∀ n ∈ newNotices t.inbox, (t.seen.get n).isSome
  newOnce : (newNotices t.inbox).Nodup
  /-- A change went to a later version, and the seen item is not older than that. -/
  changed : ∀ x ∈ changes t.inbox, ∃ before seen, x.2.1 = some before ∧
    t.seen.get x.1 = some seen ∧ Older db x.1 before x.2.2 ∧ ¬ Older db x.1 seen x.2.2 ∧
    (seenView db x.1 before).isSome ∧ (seenView db x.1 x.2.2).isSome
  changeOnce : (changes t.inbox).Nodup

theorem not_older_trans {db : NoticeDb} {n a b c : String} (h₁ : ¬ Older db n b a)
    (h₂ : ¬ Older db n c b) : ¬ Older db n c a := by
  unfold Older at *
  omega

theorem not_older_self (db : NoticeDb) (n a : String) : ¬ Older db n a a := by
  unfold Older
  omega

/-- No execution moves a seen item back. -/
theorem seen_not_older (env : Env) {db : NoticeDb} {e : Entry} {t : Tables} (hadm : Admissible db e t)
    {n hash : String} (h : t.seen.get n = some hash) :
    ∃ hash', (e.run env t).seen.get n = some hash' ∧ ¬ Older db n hash' hash := by
  rcases run_seen env e t n with hsame | ⟨seenDb, matched, view, hout, hm, hn⟩
  · exact ⟨hash, by rw [hsame, h], not_older_self db n hash⟩
  · exact ⟨view.contentHash, hn, ((hadm seenDb matched hout n view hm).2 hash h).2⟩

section Executed

variable {db seenDb : NoticeDb} {e : Entry} {t : Tables} {matched : Dict String NoticeView}

/-- What the diff loads of a seen item of a matched notice is its version. -/
theorem loaded_of_matched (hadm : Admissible db e t) (hout : e.outcome = .success seenDb matched)
    {n : String} {view : NoticeView} (hm : matched.get n = some view) :
    ((loadSeenViews seenDb t.seen).get n = none → t.seen.get n = none) ∧
      ∀ p, (loadSeenViews seenDb t.seen).get n = some p → t.seen.get n = some p.contentHash := by
  rw [get_loadSeenViews]
  cases hs : t.seen.get n with
  | none => simp
  | some hash =>
    have hload := ((hadm seenDb matched hout n view hm).2 hash hs).1
    rw [Option.bind_some]
    constructor
    · intro hnone
      rw [hnone] at hload
      cases hload
    · intro p hp
      rw [seenView_hash hp]

/-- A notice announced as new was not seen before. -/
theorem fresh_of_new (hadm : Admissible db e t) (hout : e.outcome = .success seenDb matched)
    {n : String} (hn : n ∈ newNotices (file env (loadSeenViews seenDb t.seen) matched)) :
    t.seen.get n = none ∧ ∃ view, matched.get n = some view := by
  obtain ⟨hnone, view, hm⟩ := mem_newNotices_file hn
  exact ⟨(loaded_of_matched hadm hout hm).1 hnone, view, hm⟩

/-- A change is announced from the seen item to the matched view, a later version. -/
theorem later_of_change (hadm : Admissible db e t) (hout : e.outcome = .success seenDb matched)
    (hkept : ∀ n hash, t.seen.get n = some hash → (seenView db n hash).isSome)
    {x : String × Option String × String}
    (hx : x ∈ changes (file env (loadSeenViews seenDb t.seen) matched)) :
    ∃ before view, x.2.1 = some before ∧ t.seen.get x.1 = some before ∧
      matched.get x.1 = some view ∧ x.2.2 = view.contentHash ∧ Older db x.1 before x.2.2 ∧
      (seenView db x.1 before).isSome ∧ (seenView db x.1 x.2.2).isSome := by
  obtain ⟨p, view, hp, hm, hb, ha, hne⟩ := mem_changes_file hx
  have hs := (loaded_of_matched hadm hout hm).2 p hp
  obtain ⟨hview, hpast⟩ := hadm seenDb matched hout x.1 view hm
  have hrow := hkept x.1 p.contentHash hs
  rw [ha]
  exact ⟨p.contentHash, view, hb, hs, hm, rfl, older_of_ne hrow hne (hpast p.contentHash hs).2,
    hrow, hview⟩

end Executed

theorem inboxOK_run {db : NoticeDb} {e : Entry} {t : Tables} (h : InboxOK db t)
    (hkept : ∀ n hash, t.seen.get n = some hash → (seenView db n hash).isSome)
    (hadm : Admissible db e t) : InboxOK db (e.run env t) := by
  -- earlier changes stay behind the seen items
  have hold : ∀ x ∈ changes t.inbox, ∃ before seen, x.2.1 = some before ∧
      (e.run env t).seen.get x.1 = some seen ∧ Older db x.1 before x.2.2 ∧
      ¬ Older db x.1 seen x.2.2 ∧ (seenView db x.1 before).isSome ∧
      (seenView db x.1 x.2.2).isSome := by
    intro x hx
    obtain ⟨before, seen, hb, hs, hlt, hle, hst⟩ := h.changed x hx
    obtain ⟨seen', hs', hle'⟩ := seen_not_older env hadm hs
    exact ⟨before, seen', hb, hs', hlt, not_older_trans hle hle', hst⟩
  rcases run_cases env e t with ⟨-, hinbox⟩ | ⟨seenDb, matched, hout, hseen, hinbox⟩
  · refine ⟨?_, ?_, ?_, ?_⟩
    · intro n hn
      rw [hinbox] at hn
      exact run_seen_isSome e (h.newSeen n hn)
    · rw [hinbox]
      exact h.newOnce
    · rw [hinbox]
      exact hold
    · rw [hinbox]
      exact h.changeOnce
  · have hmatched : ∀ n view, matched.get n = some view →
        (e.run env t).seen.get n = some view.contentHash := by
      intro n view hm
      rw [hseen, get_advanceSeen, hm]
      rfl
    refine ⟨?_, ?_, ?_, ?_⟩
    · intro n hn
      rw [hinbox, newNotices_append, List.mem_append] at hn
      rcases hn with hn | hn
      · exact run_seen_isSome e (h.newSeen n hn)
      · obtain ⟨-, view, hm⟩ := fresh_of_new hadm hout hn
        rw [hmatched n view hm]
        rfl
    · rw [hinbox, newNotices_append, List.nodup_append]
      refine ⟨h.newOnce, newNotices_file_nodup _ _, ?_⟩
      intro n hn n' hn' heq
      subst heq
      have hsome := h.newSeen n hn
      rw [(fresh_of_new hadm hout hn').1] at hsome
      cases hsome
    · intro x hx
      rw [hinbox, changes_append, List.mem_append] at hx
      rcases hx with hx | hx
      · exact hold x hx
      · obtain ⟨before, view, hb, -, hm, hafter, hlt, hst⟩ := later_of_change hadm hout hkept hx
        exact ⟨before, x.2.2, hb, hafter ▸ hmatched x.1 view hm, hlt,
          not_older_self db x.1 x.2.2, hst⟩
    · rw [hinbox, changes_append, List.nodup_append]
      refine ⟨h.changeOnce, changes_file_nodup _ _, ?_⟩
      intro x hx x' hx' heq
      subst heq
      -- the seen item is not older than where an earlier change went
      obtain ⟨b, seen, hb, hs, -, hle, -⟩ := h.changed x hx
      obtain ⟨before, view, -, hs', -, -, hlt, -⟩ := later_of_change hadm hout hkept hx'
      rw [hs, Option.some.injEq] at hs'
      subst hs'
      exact hle hlt

theorem inboxOK_kept {db db' : NoticeDb} {t : Tables} (h : InboxOK db t)
    (hkept : ∀ n hash, t.seen.get n = some hash → (seenView db n hash).isSome)
    (hdb : ∀ n hash, (seenView db n hash).isSome → (seenView db' n hash).isSome ∧
      createdAt db' n hash = createdAt db n hash ∧ position db' n hash = position db n hash) :
    InboxOK db' t := by
  have holder : ∀ n a b, (seenView db n a).isSome → (seenView db n b).isSome →
      (Older db' n a b ↔ Older db n a b) := by
    intro n a b ha hb
    obtain ⟨-, hca, hpa⟩ := hdb n a ha
    obtain ⟨-, hcb, hpb⟩ := hdb n b hb
    rw [Older, Older, hca, hcb, hpa, hpb]
  refine ⟨h.newSeen, h.newOnce, fun x hx => ?_, h.changeOnce⟩
  obtain ⟨before, seen, hb, hs, hlt, hle, hst, hst'⟩ := h.changed x hx
  exact ⟨before, seen, hb, hs, (holder _ _ _ hst hst').mpr hlt,
    fun ho => hle ((holder _ _ _ (hkept _ _ hs) hst').mp ho), (hdb _ _ hst).1, (hdb _ _ hst').1⟩

theorem inbox_step {ev : CEv} (hcron : env.FiresLater) (hS : Sound env s)
    (hI : ∀ id t, s.tables id = some t → InboxOK s.db t) (hcur : Current s ev)
    (hev : ev.isExecution = true) (h : cstep env s ev = some s') :
    ∀ id t, s'.tables id = some t → InboxOK s'.db t := by
  intro id t' ht'
  obtain ⟨t, ht, rfl | ⟨e, rfl, hadm, hdb⟩⟩ := (ran_of_step hcron hS hcur hev h).back ht'
  · exact inboxOK_kept (hI id _ ht) (fun n hash => hS.kept id _ n hash ht)
      fun n hash => db_kept hev h
  · rw [hdb]
    exact inboxOK_run (hI id t ht) (fun n hash => hS.kept id t n hash ht) hadm

/-! ## The next run -/

theorem successRow_forward {advance : Bool} {scheduledAt : Int} {t sub : Subscription}
    (hcron : env.FiresLater) (hdue : advance = true → t.nextRunAt = some scheduledAt)
    (h : successRow env advance scheduledAt t t = some sub) :
    sub.nextRunAt = t.nextRunAt ∨
      ∃ now next, t.nextRunAt = some now ∧ sub.nextRunAt = some next ∧ now < next := by
  cases advance with
  | false =>
    left
    simp only [successRow, Bool.false_eq_true, if_false, Option.map_some, Option.some.injEq] at h
    subst h
    show (Intent.flush _ _ _).nextRunAt = _
    rw [flush_reset]
    split <;> rfl
  | true =>
    right
    simp only [successRow, if_true, Option.map_eq_some_iff] at h
    obtain ⟨intent, ⟨next, hnext, rfl⟩, rfl⟩ := h
    have hlt := hcron _ _ _ _ hnext
    refine ⟨scheduledAt, next, hdue rfl, ?_, hlt⟩
    show (Intent.flush _ _ _).nextRunAt = some next
    rw [flush_next (hdue rfl) hlt]

/-- An execution leaves the next run alone or moves it on. -/
theorem run_next (hcron : env.FiresLater) (e : Entry) (t : Tables) :
    (e.run env t).sub.nextRunAt = t.sub.nextRunAt ∨
      ∃ now next, t.sub.nextRunAt = some now ∧ (e.run env t).sub.nextRunAt = some next ∧
        now < next := by
  unfold Entry.run
  split
  · exact Or.inl rfl
  · rename_i hskip
    split
    · exact Or.inl rfl
    · split
      · rename_i sub hsub
        refine successRow_forward hcron (fun hadv => matches_next ?_) hsub
        simpa [hadv] using hskip
      · exact Or.inl rfl

/-! ## The law -/

/-- What concurrent executions, the steps of `M`, leave at `s`. -/
structure UpdateLaw (env : Env) (subs : String → Option Subscription) (M : LTS CState CEv)
    (s : CState) : Prop where
  serial : ∃ order : List Entry, order.Perm s.log ∧ s.tables = serially env subs order
  newOnce : ∀ id t, s.tables id = some t → (newNotices t.inbox).Nodup
  changeOnce : ∀ id t, s.tables id = some t → (changes t.inbox).Nodup
  forward : ∀ ev s' id t t' now, M.step s ev s' → s.tables id = some t →
    s'.tables id = some t' → t.sub.nextRunAt = some now →
      ∃ next, t'.sub.nextRunAt = some next ∧ now ≤ next

theorem inbox_inductive (hcron : env.FiresLater) :
    (currentExecutions env subs).Inductive (fun s =>
      (Sound env s ∧ s.tables = serially env subs s.log) ∧
        ∀ id t, s.tables id = some t → InboxOK s.db t) := by
  refine (serial_inductive hcron).and (fun s hs id t ht => ?_) (fun s ev s' hS hI hs => ?_)
  · have hstart : s = { tables := fresh subs } := hs
    subst hstart
    obtain ⟨sub, -, rfl⟩ := Option.map_eq_some_iff.mp ht
    refine ⟨?_, List.nodup_nil, ?_, List.nodup_nil⟩
    · intro n hn
      cases hn
    · intro x hx
      cases hx
  · exact inbox_step hcron hS.1 hI hs.1.1 hs.1.2 hs.2

/-- **No update is lost or duplicated while every commit is current.** -/
theorem concurrent_updates (hcron : env.FiresLater)
    (hs : (currentExecutions env subs).Reachable s) :
    UpdateLaw env subs (currentExecutions env subs) s := by
  obtain ⟨⟨hS, hserial⟩, hI⟩ := (inbox_inductive hcron).reachable s hs
  refine ⟨⟨s.log, List.Perm.refl _, hserial⟩, fun id t ht => (hI id t ht).newOnce,
    fun id t ht => (hI id t ht).changeOnce, ?_⟩
  intro ev s' id t t' now hstep ht ht' hnow
  have hran := ran_of_step hcron hS hstep.1.1 hstep.1.2 hstep.2
  obtain ⟨t₀, ht₀, hrun⟩ := hran.back ht'
  rw [ht] at ht₀
  cases ht₀
  rcases hrun with rfl | ⟨e, rfl, -, -⟩
  · exact ⟨now, hnow, le_refl _⟩
  · rcases run_next hcron e t with hsame | ⟨now', next, hnow', hnext, hlt⟩
    · exact ⟨now, by rw [hsame, hnow], le_refl _⟩
    · rw [hnow, Option.some.injEq] at hnow'
      exact ⟨next, hnext, by omega⟩

/-! ## Overlapping executions -/

def works (w : Nat) (evs : List CallEv) : List CEv := evs.map (.call w)

/-- A scheduled execution and a direct one, five minutes later on the clock. The
direct one reads the row first and the seen items after the commit. -/
def staggered : List CEv :=
  [imported, .scan 0 "sub-1" 5, .request 1 "sub-1" 300000000] ++
  works 0 [.acquire, .read, .enter, .execute true (some ["v1"])] ++
  works 1 [.acquire, .read, .enter, .execute true (some ["v1"]), .gate, .views ["v1"]] ++
  works 0 [.gate, .views ["v1"], .diff, .advance, .commit, .release] ++
  works 1 [.diff, .advance, .commit, .release]

def currentStep (s : CState) (ev : CEv) : Option CState :=
  if Current s ev ∧ ev.isExecution = true then cstep everyMinute s ev else none

def afterStaggered : CState :=
  (LTS.exec currentStep { tables := fresh oneSub } staggered).get (by decide +kernel)

theorem concurrent_updates_staggered :
    UpdateLaw everyMinute oneSub (currentExecutions everyMinute oneSub) afterStaggered := by
  have hs : (currentExecutions everyMinute oneSub).Reachable afterStaggered :=
    LTS.reachable_of_execGuarded staggered (by rfl) _
  exact concurrent_updates everyMinute_firesLater hs

example : afterStaggered.log.length = 2 ∧
    (afterStaggered.tables "sub-1").map (fun t => (t.sub.nextRunAt, t.inbox.length)) =
      some (some 60000000, 1) := by
  decide +kernel

/-- A scheduled execution and two direct ones, in three minutes. -/
def overlapping : List CEv :=
  [imported, .scan 0 "sub-1" 5, .request 1 "sub-1" 300000000, .request 2 "sub-1" 600000000] ++
  works 0 [.acquire, .read, .enter, .execute true (some ["v1"]), .gate, .views ["v1"], .diff] ++
  works 1 [.acquire, .read, .enter, .execute true (some ["v1"]), .gate, .views ["v1"], .diff] ++
  works 2 [.acquire, .read, .enter, .execute false none] ++
  works 0 [.advance, .commit, .release] ++
  works 1 [.advance, .commit, .release]

def executionStep (s : CState) (ev : CEv) : Option CState :=
  if ev.isExecution = true then cstep everyMinute s ev else none

/-- Both that deliver have committed. -/
def doubled : CState :=
  (LTS.exec executionStep { tables := fresh oneSub } overlapping).get (by decide +kernel)

/-- The third has recorded its failure. -/
def rewound : CState := (cstep everyMinute doubled (.call 2 .recordFailure)).get (by decide +kernel)

def nextRunOf (tables : String → Option Tables) : Option Int :=
  (tables "sub-1").bind (·.sub.nextRunAt)

theorem doubled_inbox :
    (doubled.tables "sub-1").map (fun t => newNotices t.inbox) = some ["notice-1", "notice-1"] := by
  decide +kernel

/-- Every order moves the row on to the next minute. -/
theorem rewound_not_serial (order : List Entry) (h : order.Perm rewound.log) :
    rewound.tables ≠ serially everyMinute oneSub order := by
  have hall : ∀ order ∈ rewound.log.permutations',
      nextRunOf (serially everyMinute oneSub order) ≠ nextRunOf rewound.tables := by
    decide +kernel
  intro htables
  exact hall order (List.mem_permutations'.mpr h) (by rw [htables])

/-- A notice is announced twice, the last step moves the next run back, and no
serial order explains the rows it leaves. -/
theorem overlapping_loses_updates :
    ((executions everyMinute oneSub).Reachable doubled ∧
      ¬ UpdateLaw everyMinute oneSub (executions everyMinute oneSub) doubled) ∧
    (executions everyMinute oneSub).step doubled (.call 2 .recordFailure) rewound ∧
    nextRunOf doubled.tables = some 60000000 ∧ nextRunOf rewound.tables = some 0 ∧
    ∀ order : List Entry, order.Perm rewound.log →
      rewound.tables ≠ serially everyMinute oneSub order := by
  refine ⟨⟨LTS.reachable_of_execGuarded overlapping (by rfl) _, fun hlaw => ?_⟩,
    ⟨by rfl, (Option.some_get _).symm⟩, by decide +kernel, by decide +kernel, rewound_not_serial⟩
  obtain ⟨t, ht, htwice⟩ := Option.map_eq_some_iff.mp doubled_inbox
  have honce := hlaw.newOnce "sub-1" t ht
  rw [htwice] at honce
  simp at honce

end BidScope.L4
