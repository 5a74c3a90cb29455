import BidScope.L4Subscriptions.Cycle

/-!
# Scheduled occurrences

A scheduled call names its occurrence by the stored `__next_run_at` it was
listed with. It takes the lock of the occurrence's minute, checks that the row
still names the occurrence, and writes a long time later without checking
again.

* `locked_inductive`: a call behind the lock holds it.
* `held_inductive`: with scheduled calls only, the row names the occurrence of
  a call from its check to its commit. Whoever moves the row on is a call of
  the same occurrence, and these have one lock.

**Exactly once (`occurrence_exactly_once`).** No occurrence is committed twice;
events, seen items and the next run change together, in a commit, to a later
next run; a call that skips changes nothing but its own end.
-/
namespace BidScope.L4

open BidScope.L1

variable {env : Env} {subs : String → Option Subscription} {s s' : CState}

/-! ## The advisory lock -/

def Locked (env : Env) (s : CState) : Prop :=
  ∀ w c, s.calls w = some c → c.pc ≠ .start → s.locks (c.key env) = some w

/-- Only its holder gives a lock up. -/
theorem locks_kept {ev : CEv} {w : Nat} {key : Int} (h : cstep env s ev = some s')
    (hlock : s.locks key = some w) (hev : ∀ cev, ev ≠ .call w cev) : s'.locks key = some w := by
  cases ev with
  | call w₁ cev =>
    have hne : w₁ ≠ w := fun he => hev cev (by rw [he])
    obtain ⟨c, -, hs⟩ := call_cases h
    cases hs with
    | acquire hpc hfree =>
      have hkey : key ≠ c.key env := fun he => by rw [he, hfree] at hlock; cases hlock
      show Function.update s.locks (c.key env) (some w₁) key = some w
      rw [Function.update_of_ne hkey, hlock]
    | release | crash =>
      show (if s.locks key = some w₁ then none else s.locks key) = some w
      rw [hlock, if_neg (by simpa using hne.symm)]
    | _ => exact hlock
  | scan w₁ sub now =>
    obtain ⟨t, -, rfl⟩ := scan_cases h
    exact hlock
  | request w₁ sub t =>
    obtain ⟨-, rfl⟩ := request_cases h
    exact hlock
  | delivered k items =>
    obtain ⟨runs, rfl⟩ := delivered_cases h
    exact hlock
  | importVersion n row hash version =>
    cases h
    exact hlock
  | deleteVersion n hash =>
    cases h
    exact hlock
  | setStatus sub status =>
    obtain ⟨t, -, rfl⟩ := setStatus_cases h
    exact hlock

theorem locked_step {ev : CEv} (hL : Locked env s) (h : cstep env s ev = some s') :
    Locked env s' := by
  intro w c' hc' hpc'
  rcases calls_back h hc' with ⟨-, hstart, -⟩ | hold | ⟨c, cev, rfl, hc, hs, pc, rfl, -⟩
  · exact absurd hstart hpc'
  · have hheld := hL w c' hold hpc'
    by_cases hev : ∃ cev, ev = .call w cev
    · -- its own step left the call where it was
      obtain ⟨cev, rfl⟩ := hev
      obtain ⟨c, hc, hs⟩ := call_cases h
      rw [hold] at hc
      cases hc
      cases hs with
      | acquire hpc => exact absurd hpc hpc'
      | refused hpc => exact absurd hpc hpc'
      | release | crash =>
        have hgone : Function.update s.calls w none w = some c' := hc'
        rw [Function.update_self] at hgone
        cases hgone
      | _ => exact hheld
    · exact locks_kept h hheld fun cev he => hev ⟨cev, he⟩
  · have hkeep : c.pc ≠ .start → s.locks (c.key env) = some w := hL w c hc
    cases hs with
    | acquire hpc hfree =>
      show Function.update s.locks (c.key env) (some w) (c.key env) = some w
      rw [Function.update_self]
    | refused | release | crash =>
      have hgone : Function.update s.calls w none w = _ := hc'
      rw [Function.update_self] at hgone
      cases hgone
    | skip hpc | read hpc => exact hkeep (by rw [hpc]; intro he; cases he)
    | work hrow => exact hkeep fun he => by rw [he] at hrow; cases hrow
    | raise hpc => exact hkeep hpc
    | views hpc | diff hpc | advance hpc | commit hpc | recordFailure hpc =>
      exact hkeep (by rw [hpc]; intro he; cases he)

theorem locked_inductive : (cycle env subs).Inductive (Locked env) where
  init := by
    intro s hs w c hc
    rw [hs] at hc
    cases hc
  step _ _ _ h hs := locked_step h hs

/-! ## The occurrence of a call -/

def Entry.occurrence (e : Entry) : Option (String × Int) :=
  match e.outcome with
  | .success _ _ => if e.advance then some (e.sub, e.scheduledAt) else none
  | .failure => none

/-- The occurrences committed so far. -/
def CState.committed (s : CState) : List (String × Int) := s.log.filterMap Entry.occurrence

def CEv.isRequest : CEv → Bool
  | .request _ _ _ => true
  | _ => false

/-- Scheduler workers, with everything else that may happen around them. -/
def scheduling (env : Env) (subs : String → Option Subscription) : LTS CState CEv :=
  (cycle env subs).restrict fun _ ev => ev.isRequest = false

/-- The row of `id` names `next`. -/
def CState.names (s : CState) (id : String) (next : Int) : Prop :=
  ∃ t, s.tables id = some t ∧ t.sub.nextRunAt = some next

structure Held (s : CState) : Prop where
  scheduled : ∀ w c, s.calls w = some c → c.advance = true
  read : ∀ w c row, s.calls w = some c → c.pc.row = some row → row.nextRunAt = some c.scheduledAt
  current : ∀ w c row, s.calls w = some c → c.pc.row = some row → s.names c.sub c.scheduledAt
  passed : ∀ o ∈ s.committed, ∃ next, s.names o.1 next ∧ o.2 < next
  once : s.committed.Nodup

/-- The row read and the stored row both name the occurrence. -/
theorem Held.both {w : Nat} {c : Call} {row : Subscription} {t : Tables} (hH : Held s)
    (hc : s.calls w = some c) (hrow : c.pc.row = some row) (ht : s.tables c.sub = some t) :
    row.nextRunAt = some c.scheduledAt ∧ t.sub.nextRunAt = some c.scheduledAt := by
  obtain ⟨t₀, ht₀, hnow⟩ := hH.current w c row hc hrow
  rw [ht] at ht₀
  cases ht₀
  exact ⟨hH.read w c row hc hrow, hnow⟩

theorem committed_write (s : CState) (w : Nat) (c : Call) (t : Tables) (outcome : Outcome) :
    ((s.write c t outcome).goto w c .leaving).committed =
      s.committed ++ (c.entry outcome).occurrence.toList := by
  show (s.log ++ [c.entry outcome]).filterMap Entry.occurrence = _
  rw [List.filterMap_append, CState.committed]
  cases h : (c.entry outcome).occurrence <;> simp [h]

/-- What a call reads and where it stands, but for its own commit. -/
theorem calls_held {ev : CEv} (hH : Held s) (hev : ev.isRequest = false)
    (h : cstep env s ev = some s') :
    (∀ w c, s'.calls w = some c → c.advance = true) ∧
    ∀ w c row, s'.calls w = some c → c.pc.row = some row →
      row.nextRunAt = some c.scheduledAt ∧ s.names c.sub c.scheduledAt := by
  constructor
  · intro w c' hc'
    rcases calls_back h hc' with ⟨-, -, hadv | ⟨sub, t, rfl⟩⟩ | hold | ⟨c, cev, -, hc, -, pc, rfl, -⟩
    · exact hadv
    · cases hev
    · exact hH.scheduled w c' hold
    · exact hH.scheduled w c hc
  · intro w c' row hc' hrow
    rcases calls_back h hc' with ⟨-, hstart, -⟩ | hold | ⟨c, cev, -, hc, hs, pc, rfl, -⟩
    · rw [hstart] at hrow
      cases hrow
    · exact ⟨hH.read w c' row hold hrow, hH.current w c' row hold hrow⟩
    · rcases hs.row hc' hrow with hbefore | ⟨t, ht, rfl, hm⟩
      · exact ⟨hH.read w c row hc hbefore, hH.current w c row hc hbefore⟩
      · have hnext := matches_next (hm (hH.scheduled w c hc))
        exact ⟨hnext, t, ht, hnext⟩

/-- The rows go on naming what they named. -/
def NextKept (s s' : CState) : Prop := ∀ id next, s.names id next → s'.names id next

theorem held_of_kept {ev : CEv} (hH : Held s) (hev : ev.isRequest = false)
    (h : cstep env s ev = some s') (hkept : NextKept s s') (hlog : s'.committed = s.committed) :
    Held s' := by
  obtain ⟨hscheduled, hcalls⟩ := calls_held hH hev h
  refine ⟨hscheduled, fun w c row hc hrow => (hcalls w c row hc hrow).1, ?_, ?_, ?_⟩
  · intro w c row hc hrow
    exact hkept _ _ (hcalls w c row hc hrow).2
  · intro o ho
    rw [hlog] at ho
    obtain ⟨next, hnames, hlt⟩ := hH.passed o ho
    exact ⟨next, hkept _ _ hnames, hlt⟩
  · rw [hlog]
    exact hH.once

/-- An update of a row that keeps its next run. -/
theorem kept_of_update {id : String} {t t' : Tables} (ht : s.tables id = some t)
    (hs' : s'.tables = Function.update s.tables id (some t'))
    (hnext : t'.sub.nextRunAt = t.sub.nextRunAt) : NextKept s s' := by
  intro id' next hnames
  obtain ⟨t₀, ht₀, hn⟩ := hnames
  by_cases hid : id' = id
  · subst hid
    rw [ht] at ht₀
    cases ht₀
    exact ⟨t', by rw [hs', Function.update_self], by rw [hnext, hn]⟩
  · exact ⟨t₀, by rw [hs', Function.update_of_ne hid, ht₀], hn⟩

/-- The write of a scheduled success moves the row on. -/
theorem successRow_next {scheduledAt : Int} {row stored sub : Subscription}
    (hcron : env.FiresLater) (hread : row.nextRunAt = some scheduledAt)
    (h : successRow env true scheduledAt row stored = some sub) :
    ∃ next, sub.nextRunAt = some next ∧ scheduledAt < next := by
  simp only [successRow, if_true, Option.map_eq_some_iff] at h
  obtain ⟨intent, ⟨next, hnext, rfl⟩, rfl⟩ := h
  have hlt := hcron _ _ _ _ hnext
  refine ⟨next, ?_, hlt⟩
  show (Intent.flush _ _ _).nextRunAt = some next
  rw [flush_next hread hlt]

/-- Two calls at one row hold one lock, so a call that acts on a row acts alone. -/
theorem Held.alone {w w' : Nat} {c c' : Call} {row row' : Subscription} {t : Tables}
    (hH : Held s) (hL : Locked env s) (hc : s.calls w = some c) (hrow : c.pc.row = some row)
    (ht : s.tables c.sub = some t) (hc' : s.calls w' = some c') (hrow' : c'.pc.row = some row')
    (hne : w' ≠ w) : c'.sub ≠ c.sub := by
  intro hsame
  obtain ⟨-, hnow⟩ := hH.both hc hrow ht
  obtain ⟨-, hnow'⟩ := hH.both hc' hrow' (hsame ▸ ht)
  rw [hnow, Option.some.injEq] at hnow'
  have hlock := hL w c hc (by intro he; rw [he] at hrow; cases hrow)
  have hlock' := hL w' c' hc' (by intro he; rw [he] at hrow'; cases hrow')
  have hkey : c'.key env = c.key env := by rw [Call.key, Call.key, hsame, hnow']
  rw [hkey, hlock, Option.some.injEq] at hlock'
  exact hne hlock'.symm

theorem held_commit {w : Nat} {c : Call} {row sub : Subscription} {txn : Txn} {t : Tables}
    (hcron : env.FiresLater) (hL : Locked env s) (hH : Held s) (hc : s.calls w = some c)
    (hpc : c.pc = .advancing row txn []) (ht : s.tables c.sub = some t)
    (hsub : successRow env c.advance c.scheduledAt row t.sub = some sub) :
    Held ((s.write c { sub, seen := txn.apply t.seen, inbox := t.inbox ++ txn.events }
      (.success txn.db txn.matched)).goto w c .leaving) := by
  have hadv := hH.scheduled w c hc
  obtain ⟨hread, hnow⟩ := hH.both hc (by rw [hpc]; rfl) ht
  rw [hadv] at hsub
  obtain ⟨next, hnext, hlt⟩ := successRow_next hcron hread hsub
  set s' := (s.write c { sub, seen := txn.apply t.seen, inbox := t.inbox ++ txn.events }
      (.success txn.db txn.matched)).goto w c .leaving with hs'
  have hself : s'.tables c.sub =
      some { sub, seen := txn.apply t.seen, inbox := t.inbox ++ txn.events } := by
    show Function.update s.tables c.sub (some _) c.sub = _
    rw [Function.update_self]
  have hother : ∀ id, id ≠ c.sub → s'.tables id = s.tables id := fun id hid =>
    Function.update_of_ne hid ..
  have hcommitted : s'.committed = s.committed ++ [(c.sub, c.scheduledAt)] := by
    rw [hs', committed_write]
    simp [Entry.occurrence, Call.entry, hadv]
  have hcalls : ∀ w' c', s'.calls w' = some c' →
      (w' = w ∧ c' = { c with pc := .leaving }) ∨ (w' ≠ w ∧ s.calls w' = some c') := by
    intro w' c' hc'
    rcases LTS.of_update hc' with ⟨rfl, hy⟩ | h₀
    · cases hy
      exact Or.inl ⟨rfl, rfl⟩
    · exact Or.inr h₀
  refine ⟨?_, ?_, ?_, ?_, ?_⟩
  · intro w' c' hc'
    rcases hcalls w' c' hc' with ⟨-, rfl⟩ | ⟨-, h₀⟩
    · exact hadv
    · exact hH.scheduled w' c' h₀
  · intro w' c' row' hc' hrow'
    rcases hcalls w' c' hc' with ⟨-, rfl⟩ | ⟨-, h₀⟩
    · cases hrow'
    · exact hH.read w' c' row' h₀ hrow'
  · intro w' c' row' hc' hrow'
    rcases hcalls w' c' hc' with ⟨-, rfl⟩ | ⟨hne, h₀⟩
    · cases hrow'
    · obtain ⟨t', ht', hn'⟩ := hH.current w' c' row' h₀ hrow'
      exact ⟨t', by rw [hother _ (hH.alone hL hc (by rw [hpc]; rfl) ht h₀ hrow' hne), ht'], hn'⟩
  · intro o ho
    rw [hcommitted, List.mem_append, List.mem_singleton] at ho
    rcases ho with ho | rfl
    · obtain ⟨n, ⟨t₁, ht₁, hn⟩, hlt₁⟩ := hH.passed o ho
      by_cases hid : o.1 = c.sub
      · -- committed before what was stored, which the new next run is after
        rw [hid, ht] at ht₁
        cases ht₁
        rw [hnow, Option.some.injEq] at hn
        exact ⟨next, ⟨_, by rw [hid, hself], hnext⟩, by omega⟩
      · exact ⟨n, ⟨t₁, by rw [hother _ hid, ht₁], hn⟩, hlt₁⟩
    · exact ⟨next, ⟨_, hself, hnext⟩, hlt⟩
  · rw [hcommitted, List.nodup_append]
    refine ⟨hH.once, List.nodup_singleton _, ?_⟩
    intro o ho o' ho' heq
    rw [List.mem_singleton] at ho'
    subst ho'
    subst heq
    obtain ⟨n, ⟨t₁, ht₁, hn⟩, hlt₁⟩ := hH.passed _ ho
    rw [ht] at ht₁
    cases ht₁
    rw [hnow, Option.some.injEq] at hn
    omega

theorem held_step {ev : CEv} (hcron : env.FiresLater) (hL : Locked env s) (hH : Held s)
    (hev : ev.isRequest = false) (h : cstep env s ev = some s') : Held s' := by
  cases cstep_effect h with
  | quiet ht hl =>
    refine held_of_kept hH hev h (fun id next hn => ?_) (by rw [CState.committed, hl]; rfl)
    obtain ⟨t, hti, hn⟩ := hn
    exact ⟨t, by rw [ht, hti], hn⟩
  | status ht => exact held_of_kept hH hev h (kept_of_update ht rfl rfl) rfl
  | commit hc hpc ht hsub => exact held_commit hcron hL hH hc hpc ht hsub
  | @failure w c row t hc hpc ht =>
    obtain ⟨hread, hnow⟩ := hH.both hc (by rw [hpc]; rfl) ht
    refine held_of_kept hH hev h (kept_of_update ht rfl ?_) ?_
    · show row.nextRunAt = t.sub.nextRunAt
      rw [hread, hnow]
    · rw [committed_write]
      simp [Entry.occurrence, Call.entry]

theorem held_inductive (hcron : env.FiresLater) :
    (scheduling env subs).Inductive (fun s => Locked env s ∧ Held s) :=
  locked_inductive.restrict.and
    (by
      intro s hs
      have hstart : s = { tables := fresh subs } := hs
      subst hstart
      refine ⟨?_, ?_, ?_, ?_, List.nodup_nil⟩
      · intro w c hc
        cases hc
      · intro w c row hc
        cases hc
      · intro w c row hc
        cases hc
      · intro o ho
        cases ho)
    (fun _ _ _ hL hH hs => held_step hcron hL hH hs.1 hs.2)

/-! ## The law -/

/-- The commit that takes the rows of `id` from `t` to `t'`. -/
def CommitsTo (s : CState) (ev : CEv) (s' : CState) (id : String) (t t' : Tables) : Prop :=
  ∃ w c row txn next, ev = .call w .commit ∧ s.calls w = some c ∧ c.sub = id ∧
    c.pc = .advancing row txn [] ∧ t.sub.nextRunAt = some c.scheduledAt ∧
    s'.committed = s.committed ++ [(id, c.scheduledAt)] ∧
    t'.inbox = t.inbox ++ txn.events ∧ t'.seen = txn.apply t.seen ∧
    t'.sub.nextRunAt = some next ∧ c.scheduledAt < next

/-- The step at which call `c` skips, or the end of one that did. -/
def Skips (env : Env) (s : CState) (c : Call) (ev : CallEv) : Prop :=
  (c.pc = .start ∧ ev = .acquire ∧ s.locks (c.key env) ≠ none) ∨
  (c.pc = .locked ∧ ev = .read ∧ ∀ t, s.tables c.sub = some t →
    c.advance = true ∧ matchesScheduledOccurrence t.sub c.scheduledAt = false) ∨
  c.pc = .leaving

structure OccurrenceLaw (env : Env) (s : CState) : Prop where
  once : s.committed.Nodup
  together : ∀ ev s' id t t', ev.isRequest = false → cstep env s ev = some s' →
    s.tables id = some t → s'.tables id = some t' →
      (t'.inbox = t.inbox ∧ t'.seen = t.seen ∧ t'.sub.nextRunAt = t.sub.nextRunAt) ∨
        CommitsTo s ev s' id t t'
  skip : ∀ w c ev s', s.calls w = some c → Skips env s c ev →
    cstep env s (.call w ev) = some s' →
      s'.tables = s.tables ∧ s'.runs = s.runs ∧ s'.db = s.db ∧ s'.log = s.log ∧
        (s'.calls w = none ∨ s'.calls w = some { c with pc := .leaving })

theorem together_of_update {id id' : String} {t t₁ t₂ : Tables} (ht : s.tables id = some t)
    (ht₁ : s.tables id' = some t₁) (ht₂ : Function.update s.tables id (some t') id' = some t₂)
    (hsame : t'.inbox = t.inbox ∧ t'.seen = t.seen ∧ t'.sub.nextRunAt = t.sub.nextRunAt) :
    t₂.inbox = t₁.inbox ∧ t₂.seen = t₁.seen ∧ t₂.sub.nextRunAt = t₁.sub.nextRunAt := by
  rcases LTS.of_update ht₂ with ⟨rfl, hy⟩ | ⟨-, h₀⟩
  · cases hy
    rw [ht] at ht₁
    cases ht₁
    exact hsame
  · rw [ht₁] at h₀
    cases h₀
    exact ⟨rfl, rfl, rfl⟩

theorem together_of_held (hcron : env.FiresLater) (hH : Held s) {ev : CEv} {id : String}
    {t₁ t₂ : Tables} (h : cstep env s ev = some s') (ht₁ : s.tables id = some t₁)
    (ht₂ : s'.tables id = some t₂) :
    (t₂.inbox = t₁.inbox ∧ t₂.seen = t₁.seen ∧ t₂.sub.nextRunAt = t₁.sub.nextRunAt) ∨
      CommitsTo s ev s' id t₁ t₂ := by
  cases cstep_effect h with
  | quiet ht hl =>
    rw [ht, ht₁] at ht₂
    cases ht₂
    exact Or.inl ⟨rfl, rfl, rfl⟩
  | status ht => exact Or.inl (together_of_update ht ht₁ ht₂ ⟨rfl, rfl, rfl⟩)
  | @failure w c row t hc hpc ht =>
    obtain ⟨hread, hnow⟩ := hH.both hc (by rw [hpc]; rfl) ht
    refine Or.inl (together_of_update ht ht₁ ht₂ ⟨rfl, rfl, ?_⟩)
    show row.nextRunAt = t.sub.nextRunAt
    rw [hread, hnow]
  | @commit w c row txn t sub hc hpc ht hsub =>
    have hadv := hH.scheduled w c hc
    obtain ⟨hread, hnow⟩ := hH.both hc (by rw [hpc]; rfl) ht
    rcases LTS.of_update ht₂ with ⟨rfl, hy⟩ | ⟨-, h₀⟩
    · cases hy
      rw [ht] at ht₁
      cases ht₁
      rw [hadv] at hsub
      obtain ⟨next, hnext, hlt⟩ := successRow_next hcron hread hsub
      refine Or.inr ⟨w, c, row, txn, next, rfl, hc, rfl, hpc, hnow, ?_, rfl, rfl, hnext, hlt⟩
      rw [committed_write]
      simp [Entry.occurrence, Call.entry, hadv]
    · rw [ht₁] at h₀
      cases h₀
      exact Or.inl ⟨rfl, rfl, rfl⟩

theorem skip_changes_nothing {w : Nat} {c : Call} {ev : CallEv} (hskip : Skips env s c ev)
    (hc : s.calls w = some c) (h : cstep env s (.call w ev) = some s') :
    s'.tables = s.tables ∧ s'.runs = s.runs ∧ s'.db = s.db ∧ s'.log = s.log ∧
      (s'.calls w = none ∨ s'.calls w = some { c with pc := .leaving }) := by
  obtain ⟨c₀, hc₀, hs⟩ := call_cases h
  rw [hc] at hc₀
  cases hc₀
  rcases hskip with ⟨hpc, rfl, hheld⟩ | ⟨hpc, rfl, hnot⟩ | hpc
  · cases hs with
    | acquire _ hfree => exact absurd hfree hheld
    | refused => exact ⟨rfl, rfl, rfl, rfl, Or.inl (Function.update_self ..)⟩
    | work hrow =>
      rw [hpc] at hrow
      cases hrow
  · cases hs with
    | skip => exact ⟨rfl, rfl, rfl, rfl, Or.inr (Function.update_self ..)⟩
    | read _ ht hm =>
      obtain ⟨hadv, hfalse⟩ := hnot _ ht
      rw [hm hadv] at hfalse
      cases hfalse
    | work hrow =>
      rw [hpc] at hrow
      cases hrow
  · cases hs with
    | release => exact ⟨rfl, rfl, rfl, rfl, Or.inl (Function.update_self ..)⟩
    | crash => exact ⟨rfl, rfl, rfl, rfl, Or.inl (Function.update_self ..)⟩
    | raise => exact ⟨rfl, rfl, rfl, rfl, Or.inr (Function.update_self ..)⟩
    | work hrow =>
      rw [hpc] at hrow
      cases hrow
    | acquire hpc' | refused hpc' | skip hpc' | read hpc' | views hpc' | diff hpc' | advance hpc'
    | commit hpc' | recordFailure hpc' =>
      rw [hpc] at hpc'
      cases hpc'

/-- **Every scheduled occurrence is committed at most once, whole, and moves the
row on.** -/
theorem occurrence_exactly_once (hcron : env.FiresLater)
    (hs : (scheduling env subs).Reachable s) : OccurrenceLaw env s := by
  obtain ⟨-, hH⟩ := (held_inductive hcron).reachable s hs
  exact
    { once := hH.once
      together := fun ev s' id t t' _ h ht ht' => together_of_held hcron hH h ht ht'
      skip := fun w c ev s' hc hskip h => skip_changes_nothing hskip hc h }

/-! ## Two workers on one occurrence -/

/-- One worker fails the occurrence, two find it due again; one commits it and
the other, locked out of nothing by then, finds it taken. -/
def contended : List CEv :=
  [imported,
    .scan 0 "sub-1" 5, .call 0 .acquire, .call 0 .read, .call 0 .enter,
    .call 0 (.execute false none), .call 0 .recordFailure, .call 0 .release,
    .scan 1 "sub-1" 6, .scan 2 "sub-1" 6, .scan 3 "sub-1" 7, .call 1 .acquire, .call 2 .acquire,
    .call 1 .read, .delivered "subscription:sub-1:1970-01-01T00:00:00+00:00" ["v1"],
    .call 1 .enter, .call 1 .gate, .call 1 (.views ["v1"]), .call 1 .diff, .call 1 .advance,
    .call 1 .commit, .call 1 .release, .call 3 .acquire, .call 3 .read, .call 3 .release]

def schedulingStep (s : CState) (ev : CEv) : Option CState :=
  if ev.isRequest = false then cstep everyMinute s ev else none

def afterContended : CState :=
  (LTS.exec schedulingStep { tables := fresh oneSub } contended).get (by decide +kernel)

theorem occurrence_exactly_once_contended : OccurrenceLaw everyMinute afterContended := by
  have hs : (scheduling everyMinute oneSub).Reachable afterContended :=
    LTS.reachable_of_execGuarded contended (by rfl) _
  exact occurrence_exactly_once everyMinute_firesLater hs

example : afterContended.committed = [("sub-1", 0)] ∧
    (afterContended.tables "sub-1").map (fun t => (t.sub.nextRunAt, t.inbox.length)) =
      some (some 60000000, 1) := by
  decide +kernel

end BidScope.L4
