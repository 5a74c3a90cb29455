import BidScope.L4Subscriptions.Cycle

/-!
# Concurrent executions in commit order

`Entry.run` is one execution of `run_subscription` alone, from its check to its
commit. A committed call of the machine has its effect, at its place in the
log, when what it read earlier still stands where its writes depend on it
(`Call.current`); and what it read stays meaningful until then (`Sound`):

* the row it read differs from the stored one at most in `__next_run_at`,
  `__consecutive_failures` and status;
* the version rows that seen items and views name are never lost;
* each pending write is the one that the seen item as read asks for.

**Commit order (`serial_inductive`).** While every commit is current, the rows
of all subscriptions are those of running the log serially.
-/
namespace BidScope.L4

open BidScope.L1

variable (env : Env)

/-! ## One execution alone -/

/-- mirrors subscriptions/service.py:514-731, 846-999 -/
def Entry.run (e : Entry) (t : Tables) : Tables :=
  if e.advance && !matchesScheduledOccurrence t.sub e.scheduledAt then t
  else
    match e.outcome with
    | .failure => { t with sub := failureRow t.sub t.sub }
    | .success db matched =>
      match successRow env e.advance e.scheduledAt t.sub t.sub with
      | some sub =>
        { sub
          seen := advanceSeen t.seen matched
          inbox := t.inbox ++ file env (loadSeenViews db t.seen) matched }
      | none => t

def runEntry (tables : String → Option Tables) (e : Entry) : String → Option Tables :=
  match tables e.sub with
  | some t => Function.update tables e.sub (some (e.run env t))
  | none => tables

/-- The executions of `log`, one after the other. -/
def serially (subs : String → Option Subscription) (log : List Entry) : String → Option Tables :=
  log.foldl (runEntry env) (fresh subs)

/-! ## What a commit depends on -/

/-- Executions, and the imports around them. -/
def CEv.isExecution : CEv → Bool
  | .deleteVersion _ _ | .setStatus _ _ => false
  | _ => true

def executions (subs : String → Option Subscription) : LTS CState CEv :=
  (cycle env subs).restrict fun _ ev => ev.isExecution = true

def createdAt (db : NoticeDb) (noticeId contentHash : String) : Nat :=
  (((db.get noticeId).bind fun source => source.versions.get contentHash).map (·.createdAt)).getD 0

/-- The place of a version among those of its notice, as they were stored. -/
def position (db : NoticeDb) (noticeId contentHash : String) : Nat :=
  ((db.get noticeId).map fun source => source.versions.keys.idxOf contentHash).getD 0

/-- Version `a` of a notice was created before version `b`, or at the same time
and stored before it. -/
def Older (db : NoticeDb) (noticeId a b : String) : Prop :=
  createdAt db noticeId a < createdAt db noticeId b ∨
    createdAt db noticeId a = createdAt db noticeId b ∧
      position db noticeId a < position db noticeId b

instance (db : NoticeDb) (noticeId a b : String) : Decidable (Older db noticeId a b) :=
  inferInstanceAs (Decidable (_ ∨ _))

/-- What call `c` read still stands at its commit on the rows `t`, where its
writes depend on it. -/
def Call.current (db : NoticeDb) (c : Call) (t : Tables) : Prop :=
  match c.pc with
  | .advancing row txn _ =>
    (if c.advance then matchesScheduledOccurrence t.sub c.scheduledAt = true
    -- a success that read no failures writes no intent
    else t.sub.failures = row.failures ∧ (row.failures = 0 ∨ t.sub.nextRunAt = row.nextRunAt)) ∧
    ∀ e ∈ txn.matched.entries, t.seen.get e.1 = txn.seenRead.get e.1 ∧
      ∀ hash ∈ t.seen.get e.1, ¬ Older db e.1 e.2.contentHash hash
  | .failing row =>
    t.sub.failures = row.failures ∧ t.sub.nextRunAt = row.nextRunAt ∧ t.sub.status = row.status
  | _ => True

def Current (s : CState) : CEv → Prop
  | .call w .commit | .call w .recordFailure =>
    ∀ c ∈ s.calls w, ∀ t ∈ s.tables c.sub, c.current s.db t
  | _ => True

instance (db : NoticeDb) (c : Call) (t : Tables) : Decidable (c.current db t) := by
  unfold Call.current
  split <;> infer_instance

instance (s : CState) (ev : CEv) : Decidable (Current s ev) := by
  unfold Current
  split <;> infer_instance

/-! ## Versions that stay -/

variable {env} {subs : String → Option Subscription} {s s' : CState}

theorem seenView_isSome {db : NoticeDb} {n hash : String} : (seenView db n hash).isSome ↔
    ∃ source version, db.get n = some source ∧ source.versions.get hash = some version := by
  simp only [seenView]
  cases db.get n with
  | none => simp
  | some source => cases h : source.versions.get hash <;> simp [h]

/-- An import touches no version that is there. -/
theorem import_kept {db : NoticeDb} {n hash m contentHash : String} {row : SourceNotice}
    {version : NoticeVersion} (h : (seenView db n hash).isSome) :
    (seenView (importVersion db m row contentHash version) n hash).isSome ∧
      createdAt (importVersion db m row contentHash version) n hash = createdAt db n hash ∧
      position (importVersion db m row contentHash version) n hash = position db n hash := by
  obtain ⟨source, v, hs, hv⟩ := seenView_isSome.mp h
  unfold importVersion
  simp only
  split
  · exact ⟨h, rfl, rfl⟩
  · rename_i hnew
    by_cases hn : m = n
    · subst hn
      rw [hs, Option.getD_some] at hnew ⊢
      have hne : contentHash ≠ hash := fun he => by rw [he, hv] at hnew; cases hnew
      have hmem : hash ∈ source.versions.keys := by
        by_contra hmem
        rw [(Dict.get_eq_none ..).mpr hmem] at hv
        cases hv
      refine ⟨seenView_isSome.mpr ⟨_, v, Dict.get_set_self .., ?_⟩, ?_, ?_⟩
      · rw [Dict.get_set_ne _ _ hne, hv]
      · simp only [createdAt, Dict.get_set_self, hs, Option.bind_some]
        rw [Dict.get_set_ne _ _ hne]
      · simp only [position, Dict.get_set_self, hs, Option.map_some, Option.getD_some]
        rw [Dict.keys_set hnew, List.idxOf_append_of_mem hmem]
    · have hget : ∀ x : SourceNotice, (db.set m x).get n = db.get n := fun x =>
        Dict.get_set_ne _ _ hn
      refine ⟨seenView_isSome.mpr ⟨source, v, by rw [hget, hs], hv⟩, ?_, ?_⟩
      · rw [createdAt, createdAt, hget]
      · rw [position, position, hget]

/-- Versions at one place are one version. -/
theorem older_of_ne {db : NoticeDb} {n a b : String} (ha : (seenView db n a).isSome) (hne : a ≠ b)
    (h : ¬ Older db n b a) : Older db n a b := by
  obtain ⟨source, v, hs, hv⟩ := seenView_isSome.mp ha
  have hmem : a ∈ source.versions.keys := by
    by_contra hmem
    rw [(Dict.get_eq_none ..).mpr hmem] at hv
    cases hv
  have hpos : position db n a ≠ position db n b := by
    simp only [position, hs, Option.map_some, Option.getD_some]
    intro he
    exact hne ((List.idxOf_inj hmem).mp he)
  unfold Older at h ⊢
  omega

theorem db_kept {ev : CEv} {n hash : String} (hev : ev.isExecution = true)
    (h : cstep env s ev = some s') (hrow : (seenView s.db n hash).isSome) :
    (seenView s'.db n hash).isSome ∧ createdAt s'.db n hash = createdAt s.db n hash ∧
      position s'.db n hash = position s.db n hash := by
  cases ev with
  | importVersion m row contentHash version =>
    cases h
    exact import_kept hrow
  | deleteVersion | setStatus => cases hev
  | scan w sub now =>
    obtain ⟨t, -, rfl⟩ := scan_cases h
    exact ⟨hrow, rfl, rfl⟩
  | request w sub t =>
    obtain ⟨-, rfl⟩ := request_cases h
    exact ⟨hrow, rfl, rfl⟩
  | delivered key items =>
    obtain ⟨runs, rfl⟩ := delivered_cases h
    exact ⟨hrow, rfl, rfl⟩
  | call w cev =>
    obtain ⟨c, -, hs⟩ := call_cases h
    cases hs <;> exact ⟨hrow, rfl, rfl⟩

/-! ## What a serial execution changes -/

theorem successRow_keeps {advance : Bool} {scheduledAt : Int} {t sub : Subscription}
    (h : successRow env advance scheduledAt t t = some sub) :
    sub.normalizedIntent.userRequest = t.normalizedIntent.userRequest ∧
      sub.cronExpression = t.cronExpression ∧ sub.timezone = t.timezone := by
  simp only [successRow, Option.map_eq_some_iff] at h
  obtain ⟨intent, hintent, rfl⟩ := h
  refine ⟨?_, rfl, rfl⟩
  have hreq : intent.userRequest = t.normalizedIntent.userRequest := by
    split at hintent
    · obtain ⟨next, -, rfl⟩ := Option.map_eq_some_iff.mp hintent
      rfl
    · cases hintent
      rfl
  show (Intent.flush _ _ _).userRequest = _
  unfold Intent.flush
  split
  · rfl
  · exact hreq

/-- What identifies a subscription stays. -/
theorem run_keeps (env : Env) (e : Entry) (t : Tables) :
    (e.run env t).sub.normalizedIntent.userRequest = t.sub.normalizedIntent.userRequest ∧
      (e.run env t).sub.cronExpression = t.sub.cronExpression ∧
      (e.run env t).sub.timezone = t.sub.timezone := by
  unfold Entry.run
  split
  · exact ⟨rfl, rfl, rfl⟩
  · split
    · exact ⟨rfl, rfl, rfl⟩
    · split
      · rename_i hsub
        exact successRow_keeps hsub
      · exact ⟨rfl, rfl, rfl⟩

/-- An execution leaves the seen items and the inbox alone, or advances both. -/
theorem run_cases (env : Env) (e : Entry) (t : Tables) :
    ((e.run env t).seen = t.seen ∧ (e.run env t).inbox = t.inbox) ∨
      ∃ db matched, e.outcome = .success db matched ∧
        (e.run env t).seen = advanceSeen t.seen matched ∧
        (e.run env t).inbox = t.inbox ++ file env (loadSeenViews db t.seen) matched := by
  unfold Entry.run
  split
  · exact Or.inl ⟨rfl, rfl⟩
  · split
    · exact Or.inl ⟨rfl, rfl⟩
    · rename_i db matched hout
      split
      · exact Or.inr ⟨db, matched, hout, rfl, rfl⟩
      · exact Or.inl ⟨rfl, rfl⟩

/-- A seen item is as before, or as a matched view has it. -/
theorem run_seen (env : Env) (e : Entry) (t : Tables) (n : String) :
    (e.run env t).seen.get n = t.seen.get n ∨ ∃ db matched view,
      e.outcome = .success db matched ∧ matched.get n = some view ∧
        (e.run env t).seen.get n = some view.contentHash := by
  rcases run_cases env e t with ⟨hseen, -⟩ | ⟨db, matched, hout, hseen, -⟩
  · exact Or.inl (by rw [hseen])
  · rw [hseen, get_advanceSeen]
    cases hm : matched.get n with
    | none => exact Or.inl rfl
    | some view => exact Or.inr ⟨db, matched, view, hout, hm, rfl⟩

theorem run_seen_isSome (e : Entry) {t : Tables} {n : String} (h : (t.seen.get n).isSome) :
    ((e.run env t).seen.get n).isSome := by
  rcases run_seen env e t n with hsame | ⟨db, matched, view, -, -, hn⟩
  · rw [hsame]
    exact h
  · rw [hn]
    rfl

/-! ## What a call has read -/

/-- The row a call read and the stored one. -/
structure ReadOK (c : Call) (row stored : Subscription) : Prop where
  request : row.normalizedIntent.userRequest = stored.normalizedIntent.userRequest
  cron : row.cronExpression = stored.cronExpression
  timezone : row.timezone = stored.timezone
  due : c.advance = true → matchesScheduledOccurrence row c.scheduledAt = true

/-- The write pending for a view: what the seen item asks for that the diff
read, unless one was inserted since. -/
def WriteOK (txn : Txn) (t : Tables) (e : String × NoticeView) (x : String × SeenWrite) : Prop :=
  x.1 = e.1 ∧
    match txn.seenRead.get e.1 with
    | some hash => x.2 = if hash = e.2.contentHash then .touch else .update e.2.contentHash
    | none => x.2 = .insert e.2.contentHash ∨ (t.seen.get e.1).isSome

structure TxnOK (env : Env) (txn : Txn) (t : Tables) (rest : List (String × NoticeView)) : Prop where
  events : txn.events = file env (loadSeenViews txn.db txn.seenRead) txn.matched
  loads : ∀ n hash, txn.seenRead.get n = some hash → (seenView txn.db n hash).isSome
  grows : ∀ n, (txn.seenRead.get n).isSome → (t.seen.get n).isSome
  writes : ∃ done, txn.matched.entries = done ++ rest ∧
    List.Forall₂ (WriteOK txn t) done txn.writes

def Pc.views : Pc → Option (Dict String NoticeView)
  | .matched _ views => some views
  | .advancing _ txn _ => some txn.matched
  | _ => none

structure Sound (env : Env) (s : CState) : Prop where
  rows : ∀ w c row, s.calls w = some c → c.pc.row = some row →
    ∃ t, s.tables c.sub = some t ∧ ReadOK c row t.sub
  kept : ∀ id t n hash, s.tables id = some t → t.seen.get n = some hash →
    (seenView s.db n hash).isSome
  views : ∀ w c views n view, s.calls w = some c → c.pc.views = some views →
    views.get n = some view → (seenView s.db n view.contentHash).isSome
  txns : ∀ w c row txn rest t, s.calls w = some c → c.pc = .advancing row txn rest →
    s.tables c.sub = some t → TxnOK env txn t rest

theorem Sound.read {w : Nat} {c : Call} {row : Subscription} {t : Tables} (hS : Sound env s)
    (hc : s.calls w = some c) (hrow : c.pc.row = some row) (ht : s.tables c.sub = some t) :
    ReadOK c row t.sub := by
  obtain ⟨t₀, ht₀, hread⟩ := hS.rows w c row hc hrow
  rw [ht] at ht₀
  cases ht₀
  exact hread

/-! ## A current commit is a serial execution -/

theorem file_congr {previous previous' matched : Dict String NoticeView}
    (h : ∀ n view, matched.get n = some view → previous.get n = previous'.get n) :
    file env previous matched = file env previous' matched := by
  unfold file
  refine List.filterMap_congr fun e he => ?_
  have hn := h e.1 e.2 ((Dict.mem_iff_get ..).mp he)
  rw [verdict_eq, verdict_eq, hn]

/-- The pending writes set every seen item to the hash of its view. -/
theorem apply_writes {txn : Txn} {t : Tables} {done : List (String × NoticeView)}
    {writes : List (String × SeenWrite)} (h : List.Forall₂ (WriteOK txn t) done writes)
    (hseen : ∀ e ∈ done, t.seen.get e.1 = txn.seenRead.get e.1)
    (hkeys : (done.map Prod.fst).Nodup) :
    ∀ seen : SeenItems, (∀ e ∈ done, seen.get e.1 = t.seen.get e.1) →
      writes.foldl (fun seen x => x.2.apply seen x.1) seen =
        done.foldl (fun seen e => seen.set e.1 e.2.contentHash) seen := by
  induction h with
  | nil => intro seen _; rfl
  | @cons e x done writes hx hrest ih =>
    intro seen hsame
    rw [List.map_cons, List.nodup_cons] at hkeys
    have he := hsame e (List.mem_cons_self ..)
    have hnow := hseen e (List.mem_cons_self ..)
    have happly : x.2.apply seen x.1 = seen.set e.1 e.2.contentHash := by
      obtain ⟨hkey, hwrite⟩ := hx
      rw [hkey]
      cases hread : txn.seenRead.get e.1 with
      | none =>
        simp only [hread] at hwrite
        rcases hwrite with hins | hsome
        · rw [hins]
          rfl
        · rw [hnow, hread] at hsome
          cases hsome
      | some hash =>
        simp only [hread] at hwrite
        rw [hwrite]
        split
        · rename_i heq
          rw [Dict.set_self (by rw [he, hnow, hread, heq])]
          rfl
        · rfl
    rw [List.foldl_cons, List.foldl_cons, happly]
    refine ih (fun e' he' => hseen e' (List.mem_cons_of_mem _ he')) hkeys.2 _ ?_
    intro e' he'
    have hne : e.1 ≠ e'.1 := fun heq => hkeys.1 (heq ▸ List.mem_map_of_mem he')
    rw [Dict.get_set_ne _ _ hne]
    exact hsame e' (List.mem_cons_of_mem _ he')

theorem advanceSeen_eq (seen : SeenItems) (matched : Dict String NoticeView) :
    advanceSeen seen matched =
      matched.entries.foldl (fun seen e => seen.set e.1 e.2.contentHash) seen := by
  have hentries : (matched.filterMap fun _ view => some view.contentHash).entries =
      matched.entries.map fun e => (e.1, e.2.contentHash) := by
    show matched.entries.filterMap (some ∘ fun e => (e.1, e.2.contentHash)) = _
    rw [List.filterMap_eq_map]
  rw [advanceSeen, Dict.merge, hentries, List.foldl_map]

/-- The row written from the row as read is the one written from the stored row. -/
theorem successRow_current {c : Call} {row stored : Subscription} (hcron : env.FiresLater)
    (hread : ReadOK c row stored)
    (hcur : if c.advance then matchesScheduledOccurrence stored c.scheduledAt = true
      else stored.failures = row.failures ∧
        (row.failures = 0 ∨ stored.nextRunAt = row.nextRunAt)) :
    successRow env c.advance c.scheduledAt row stored =
      successRow env c.advance c.scheduledAt stored stored := by
  have hreq := hread.request
  cases hadv : c.advance with
  | true =>
    rw [hadv, if_pos rfl] at hcur
    have hnow := matches_next hcur
    have hthen := matches_next (hread.due hadv)
    simp only [successRow, if_true, hread.cron, hread.timezone]
    cases hnext : env.computeNextRun stored.cronExpression stored.timezone c.scheduledAt with
    | none => rfl
    | some next =>
      have hlt := hcron _ _ _ _ hnext
      simp only [Option.map_some]
      rw [flush_next hthen hlt, flush_next hnow hlt, hreq]
  | false =>
    rw [hadv, if_neg Bool.false_ne_true] at hcur
    obtain ⟨hfail, hnext⟩ := hcur
    simp only [successRow, Bool.false_eq_true, if_false, Option.map_some]
    rw [flush_reset, flush_reset]
    by_cases h0 : row.failures = 0
    · rw [if_pos h0, if_pos (hfail.trans h0)]
    · have hstored : stored.failures ≠ 0 := fun h => h0 (hfail.symm.trans h)
      have hsame : stored.normalizedIntent.nextRunAt = row.normalizedIntent.nextRunAt :=
        hnext.resolve_left h0
      rw [if_neg h0, if_neg hstored, hreq, hsame]

theorem failureRow_current {c : Call} {row stored : Subscription} (hread : ReadOK c row stored)
    (hcur : stored.failures = row.failures ∧ stored.nextRunAt = row.nextRunAt ∧
      stored.status = row.status) :
    failureRow row stored = failureRow stored stored := by
  have hfail : row.normalizedIntent.consecutiveFailures =
    stored.normalizedIntent.consecutiveFailures := hcur.1.symm
  have hnext : row.normalizedIntent.nextRunAt = stored.normalizedIntent.nextRunAt := hcur.2.1.symm
  have hstatus : row.status = stored.status := hcur.2.2.symm
  simp only [failureRow, Subscription.failures, hread.request, hfail, hnext, hstatus]

/-- A commit that is current has the effect of its execution alone. -/
theorem commit_run {c : Call} {row sub : Subscription} {txn : Txn} {t : Tables} {db : NoticeDb}
    (hcron : env.FiresLater) (hpc : c.pc = .advancing row txn []) (hread : ReadOK c row t.sub)
    (htxn : TxnOK env txn t []) (hcur : c.current db t)
    (hsub : successRow env c.advance c.scheduledAt row t.sub = some sub) :
    { sub, seen := txn.apply t.seen, inbox := t.inbox ++ txn.events } =
      (c.entry (.success txn.db txn.matched)).run env t := by
  rw [Call.current, hpc] at hcur
  obtain ⟨hrow, hitems⟩ := hcur
  obtain ⟨done, hdone, hwrites⟩ := htxn.writes
  rw [List.append_nil] at hdone
  subst hdone
  have hseen : ∀ n view, txn.matched.get n = some view → t.seen.get n = txn.seenRead.get n :=
    fun n view hm => (hitems (n, view) ((Dict.mem_iff_get ..).mpr hm)).1
  have happly : txn.apply t.seen = advanceSeen t.seen txn.matched := by
    rw [advanceSeen_eq]
    exact apply_writes hwrites (fun e he => (hitems e he).1) txn.matched.distinct _
      (fun e _ => rfl)
  have hevents : txn.events = file env (loadSeenViews txn.db t.seen) txn.matched := by
    rw [htxn.events]
    refine file_congr fun n view hm => ?_
    rw [get_loadSeenViews, get_loadSeenViews, hseen n view hm]
  have hskip : (c.advance && !matchesScheduledOccurrence t.sub c.scheduledAt) = false := by
    cases hadv : c.advance with
    | false => rfl
    | true =>
      rw [hadv, if_pos rfl] at hrow
      rw [hrow]
      rfl
  have hown : successRow env c.advance c.scheduledAt t.sub t.sub = some sub := by
    rw [← successRow_current hcron hread hrow, hsub]
  simp only [Entry.run, Call.entry, hskip, Bool.false_eq_true, if_false, hown, happly, hevents]

theorem failure_run {c : Call} {row : Subscription} {t : Tables} {db : NoticeDb}
    (hpc : c.pc = .failing row) (hread : ReadOK c row t.sub) (hcur : c.current db t) :
    { t with sub := failureRow row t.sub } = (c.entry .failure).run env t := by
  rw [Call.current, hpc] at hcur
  have hskip : (c.advance && !matchesScheduledOccurrence t.sub c.scheduledAt) = false := by
    cases hadv : c.advance with
    | false => rfl
    | true =>
      have hdue := hread.due hadv
      simp only [matchesScheduledOccurrence] at hdue ⊢
      rw [hcur.2.1, hcur.2.2, hdue]
      rfl
  simp only [Entry.run, Call.entry, hskip, Bool.false_eq_true, if_false]
  rw [failureRow_current hread hcur]

/-! ## Every step keeps what was read -/

/-- The views of an execution are stored, and no older than what it finds seen;
the seen items load as views. -/
def Admissible (db : NoticeDb) (e : Entry) (t : Tables) : Prop :=
  ∀ seenDb matched, e.outcome = .success seenDb matched → ∀ n view, matched.get n = some view →
    (seenView db n view.contentHash).isSome ∧ ∀ hash, t.seen.get n = some hash →
      (seenView seenDb n hash).isSome ∧ ¬ Older db n view.contentHash hash

/-- A step of current executions runs at most one of them. -/
inductive Ran (env : Env) (s s' : CState) : Prop where
  | quiet (ht : s'.tables = s.tables) (hl : s'.log = s.log)
  | run {e : Entry} {t : Tables} (ht : s.tables e.sub = some t) (hadm : Admissible s.db e t)
      (ht' : s'.tables = Function.update s.tables e.sub (some (e.run env t)))
      (hl : s'.log = s.log ++ [e]) (hdb : s'.db = s.db)

theorem ran_of_step {ev : CEv} (hcron : env.FiresLater) (hS : Sound env s) (hcur : Current s ev)
    (hev : ev.isExecution = true) (h : cstep env s ev = some s') : Ran env s s' := by
  cases cstep_effect h with
  | quiet ht hl => exact .quiet ht hl
  | status => cases hev
  | @commit w c row txn t sub hc hpc ht hsub =>
    have hread := hS.read hc (by rw [hpc]; rfl) ht
    have htxn := hS.txns w c row txn [] t hc hpc ht
    have hnow : c.current s.db t := hcur c hc t ht
    have hrun := commit_run hcron hpc hread htxn hnow hsub
    refine .run (e := c.entry (.success txn.db txn.matched)) ht ?_ ?_ rfl rfl
    · intro seenDb matched hout n view hm
      cases hout
      refine ⟨hS.views w c txn.matched n view hc (by rw [hpc]; rfl) hm, fun hash hseen => ?_⟩
      rw [Call.current, hpc] at hnow
      obtain ⟨hsame, hold⟩ := hnow.2 (n, view) ((Dict.mem_iff_get ..).mpr hm)
      refine ⟨htxn.loads n hash ?_, hold hash hseen⟩
      rw [← hsame, hseen]
    · rw [← hrun]
      rfl
  | @failure w c row t hc hpc ht =>
    have hread := hS.read hc (by rw [hpc]; rfl) ht
    have hrun : _ = (c.entry .failure).run env t := failure_run hpc hread (hcur c hc t ht)
    refine .run (e := c.entry .failure) ht (fun _ _ hout => by cases hout) ?_ rfl rfl
    rw [← hrun]
    rfl

/-- Rows after a step come from rows before it. -/
theorem Ran.back {id : String} {t' : Tables} (h : Ran env s s') (ht' : s'.tables id = some t') :
    ∃ t, s.tables id = some t ∧
      (t' = t ∨ ∃ e : Entry, t' = e.run env t ∧ Admissible s.db e t ∧ s'.db = s.db) := by
  cases h with
  | quiet ht hl => exact ⟨t', by rw [← ht, ht'], Or.inl rfl⟩
  | @run e t ht hadm hupd hl hdb =>
    rw [hupd] at ht'
    rcases LTS.of_update ht' with ⟨rfl, hy⟩ | ⟨-, h₀⟩
    · cases hy
      exact ⟨t, ht, Or.inr ⟨e, rfl, hadm, hdb⟩⟩
    · exact ⟨t', h₀, Or.inl rfl⟩

theorem Ran.forth {id : String} {t : Tables} (h : Ran env s s') (ht : s.tables id = some t) :
    ∃ t', s'.tables id = some t' ∧ (t' = t ∨ ∃ e : Entry, t' = e.run env t) := by
  cases h with
  | quiet ht' hl => exact ⟨t, by rw [ht', ht], Or.inl rfl⟩
  | @run e t₀ ht₀ hadm hupd hl hdb =>
    by_cases hid : id = e.sub
    · subst hid
      rw [ht] at ht₀
      cases ht₀
      exact ⟨_, by rw [hupd, Function.update_self], Or.inr ⟨e, rfl⟩⟩
    · exact ⟨t, by rw [hupd, Function.update_of_ne hid, ht], Or.inl rfl⟩

theorem ReadOK.ran {c : Call} {row : Subscription} {t t' : Tables} (h : ReadOK c row t.sub)
    (ht' : t' = t ∨ ∃ e, t' = Entry.run env e t) : ReadOK c row t'.sub := by
  rcases ht' with rfl | ⟨e, rfl⟩
  · exact h
  · obtain ⟨hreq, hcronexp, htz⟩ := run_keeps env e t
    exact ⟨h.request.trans hreq.symm, h.cron.trans hcronexp.symm, h.timezone.trans htz.symm, h.due⟩

theorem TxnOK.ran {txn : Txn} {t t' : Tables} {rest : List (String × NoticeView)}
    (h : TxnOK env txn t rest) (ht' : t' = t ∨ ∃ e, t' = Entry.run env e t) :
    TxnOK env txn t' rest := by
  have hgrow : ∀ n, (t.seen.get n).isSome → (t'.seen.get n).isSome := by
    intro n hn
    rcases ht' with rfl | ⟨e, rfl⟩
    · exact hn
    · exact run_seen_isSome e hn
  obtain ⟨done, hdone, hwrites⟩ := h.writes
  refine ⟨h.events, h.loads, fun n hn => hgrow n (h.grows n hn), done, hdone, ?_⟩
  refine hwrites.imp fun e x hx => ⟨hx.1, ?_⟩
  have hwrite := hx.2
  cases hread : txn.seenRead.get e.1 with
  | none =>
    simp only [hread] at hwrite ⊢
    exact hwrite.imp_right (hgrow e.1)
  | some hash =>
    simp only [hread] at hwrite ⊢
    exact hwrite

/-- The transaction of a diff, before any of its writes. -/
theorem txnOK_diff {db : NoticeDb} {t : Tables} {views : Dict String NoticeView}
    (hkept : ∀ n hash, t.seen.get n = some hash → (seenView db n hash).isSome) :
    TxnOK env { db, seenRead := t.seen, matched := views
                events := file env (loadSeenViews db t.seen) views } t views.entries :=
  ⟨rfl, hkept, fun _ hn => hn, [], rfl, .nil⟩

/-- One more pending write. -/
theorem TxnOK.advance {txn : Txn} {t : Tables} {n : String} {view : NoticeView}
    {rest : List (String × NoticeView)} (h : TxnOK env txn t ((n, view) :: rest)) :
    TxnOK env { txn with
      writes := txn.writes ++ [(n, seenWrite t.seen txn.seenRead n view.contentHash)] } t rest := by
  obtain ⟨done, hdone, hwrites⟩ := h.writes
  refine ⟨h.events, h.loads, h.grows, done ++ [(n, view)], by simp [hdone], ?_⟩
  refine List.rel_append hwrites (.cons ⟨rfl, ?_⟩ .nil)
  cases hread : txn.seenRead.get n with
  | none =>
    simp only [seenWrite, hread]
    cases hseen : t.seen.get n with
    | none => exact Or.inl rfl
    | some stored => exact Or.inr rfl
  | some hash =>
    have hsome := h.grows n (by rw [hread]; rfl)
    simp only [seenWrite, hread]
    cases hseen : t.seen.get n with
    | none =>
      rw [hseen] at hsome
      cases hsome
    | some stored => rfl

/-- A call with views has had them, or has just read them. -/
theorem CallStep.views_kept {w : Nat} {c c' : Call} {ev : CallEv} {views : Dict String NoticeView}
    (h : CallStep env s w c ev s') (hc' : s'.calls w = some c') (hviews : c'.pc.views = some views) :
    s'.db = s.db ∧
      (c.pc.views = some views ∨
        ∃ order items, views = noticeViewsFromReport order s.db items) := by
  cases h with
  | views hpc =>
    cases LTS.of_update_self hc'
    cases hviews
    exact ⟨rfl, Or.inr ⟨_, _, rfl⟩⟩
  | diff hpc ht =>
    cases LTS.of_update_self hc'
    cases hviews
    exact ⟨rfl, Or.inl (by rw [hpc]; rfl)⟩
  | advance hpc ht =>
    cases LTS.of_update_self hc'
    cases hviews
    exact ⟨rfl, Or.inl (by rw [hpc]; rfl)⟩
  | work hrow hpc =>
    cases LTS.of_update_self hc'
    rcases hpc with rfl | rfl | rfl | ⟨items, rfl⟩ <;> cases hviews
  | _ =>
    cases LTS.of_update_self hc'
    try cases hviews

/-- A transaction is opened by the diff and grows by one write a step. -/
theorem CallStep.txn_kept {w : Nat} {c c' : Call} {ev : CallEv} {row : Subscription} {txn : Txn}
    {rest : List (String × NoticeView)} {t : Tables} (h : CallStep env s w c ev s')
    (hc' : s'.calls w = some c') (hpc' : c'.pc = .advancing row txn rest)
    (hkept : ∀ n hash, t.seen.get n = some hash → (seenView s.db n hash).isSome)
    (hbefore : ∀ txn rest, c.pc = .advancing row txn rest → TxnOK env txn t rest)
    (ht : s.tables c.sub = some t) : TxnOK env txn t rest := by
  cases h with
  | diff hpc ht₀ =>
    cases LTS.of_update_self hc'
    cases hpc'
    rw [ht] at ht₀
    cases ht₀
    exact txnOK_diff hkept
  | advance hpc ht₀ =>
    cases LTS.of_update_self hc'
    cases hpc'
    rw [ht] at ht₀
    cases ht₀
    exact (hbefore _ _ hpc).advance
  | work hrow hpc =>
    cases LTS.of_update_self hc'
    rcases hpc with rfl | rfl | rfl | ⟨items, rfl⟩ <;> cases hpc'
  | _ =>
    cases LTS.of_update_self hc'
    try cases hpc'

theorem sound_step {ev : CEv} (hcron : env.FiresLater) (hS : Sound env s) (hcur : Current s ev)
    (hev : ev.isExecution = true) (h : cstep env s ev = some s') : Sound env s' := by
  have hran := ran_of_step hcron hS hcur hev h
  refine ⟨?_, ?_, ?_, ?_⟩
  · intro w c' row hc' hrow
    -- the row was read at the rows before this step
    obtain ⟨t, ht, hread⟩ : ∃ t, s.tables c'.sub = some t ∧ ReadOK c' row t.sub := by
      rcases calls_back h hc' with ⟨-, hstart, -⟩ | hold | ⟨c, cev, -, hc, hs, pc, rfl, -⟩
      · rw [hstart] at hrow
        cases hrow
      · exact hS.rows w c' row hold hrow
      · rcases hs.row hc' hrow with hbefore | ⟨t, ht, rfl, hm⟩
        · obtain ⟨t, ht, hread⟩ := hS.rows w c row hc hbefore
          exact ⟨t, ht, hread.request, hread.cron, hread.timezone, hread.due⟩
        · exact ⟨t, ht, rfl, rfl, rfl, hm⟩
    obtain ⟨t', ht', hrun⟩ := hran.forth ht
    exact ⟨t', ht', hread.ran hrun⟩
  · intro id t' n hash ht' hseen
    obtain ⟨t, ht, rfl | ⟨e, rfl, hadm, hdb⟩⟩ := hran.back ht'
    · exact (db_kept hev h (hS.kept id _ n hash ht hseen)).1
    · rcases run_seen env e t n with hsame | ⟨db, matched, view, hout, hm, hn⟩
      · rw [hsame] at hseen
        exact (db_kept hev h (hS.kept id t n hash ht hseen)).1
      · rw [hn, Option.some.injEq] at hseen
        subst hseen
        rw [hdb]
        exact (hadm db matched hout n view hm).1
  · intro w c' views n view hc' hviews hm
    rcases calls_back h hc' with ⟨-, hstart, -⟩ | hold | ⟨c, cev, -, hc, hs, pc, rfl, -⟩
    · rw [hstart] at hviews
      cases hviews
    · exact (db_kept hev h (hS.views w c' views n view hold hviews hm)).1
    · obtain ⟨hdb, hbefore | ⟨order, items, rfl⟩⟩ := hs.views_kept hc' hviews
      · exact (db_kept hev h (hS.views w c views n view hc hbefore hm)).1
      · rw [hdb, seenView_latest (get_noticeViews hm)]
        rfl
  · intro w c' row txn rest t' hc' hpc' ht'
    obtain ⟨t, ht, hrun⟩ := hran.back ht'
    have htxn : TxnOK env txn t rest := by
      rcases calls_back h hc' with ⟨-, hstart, -⟩ | hold | ⟨c, cev, -, hc, hs, pc, rfl, -⟩
      · rw [hstart] at hpc'
        cases hpc'
      · exact hS.txns w c' row txn rest t hold hpc' ht
      · exact hs.txn_kept hc' hpc' (fun n hash => hS.kept c.sub t n hash ht)
          (fun txn rest hpc => hS.txns w c row txn rest t hc hpc ht) ht
    exact htxn.ran (hrun.imp_right fun ⟨e, he, _⟩ => ⟨e, he⟩)

/-- Executions whose commits are all current. -/
def currentExecutions (env : Env) (subs : String → Option Subscription) : LTS CState CEv :=
  (cycle env subs).restrict fun s ev => Current s ev ∧ ev.isExecution = true

theorem sound_inductive (hcron : env.FiresLater) :
    (currentExecutions env subs).Inductive (Sound env) where
  init := by
    intro s hs
    have hstart : s = { tables := fresh subs } := hs
    subst hstart
    refine ⟨?_, ?_, ?_, ?_⟩
    · intro w c row hc
      cases hc
    · intro id t n hash ht hseen
      obtain ⟨sub, -, rfl⟩ := Option.map_eq_some_iff.mp ht
      cases hseen
    · intro w c views n view hc
      cases hc
    · intro w c row txn rest t hc
      cases hc
  step _ _ _ hS hs := sound_step hcron hS hs.1.1 hs.1.2 hs.2

/-- **Commit order is a serial order** while every commit is current. -/
theorem serial_inductive (hcron : env.FiresLater) :
    (currentExecutions env subs).Inductive
      (fun s => Sound env s ∧ s.tables = serially env subs s.log) := by
  refine (sound_inductive hcron).log (fun s hs => ?_) (fun s ev s' hS hs => ?_)
  · have hstart : s = { tables := fresh subs } := hs
    subst hstart
    exact ⟨rfl, rfl⟩
  · cases ran_of_step hcron hS hs.1.1 hs.1.2 hs.2 with
    | quiet ht hl => exact Or.inl ⟨ht, hl⟩
    | @run e t ht hadm ht' hl hdb =>
      refine Or.inr ⟨e, hl, ?_⟩
      rw [ht', runEntry, ht]

end BidScope.L4
