import Coivitas.Policy.RowHistory

/-! # Sequential runs of the envelope ledger

Transactions one after the other, each of them statement by statement. At most one call is
open, so the last event of a run is an event of the open call, and what a call has seen or
come to is read off the end of the run.
-/

namespace Coivitas.Policy.EnvelopeLedger

open Foundation

/-! ## Sequential runs -/

def LedgerCall.Ended : LedgerCall → Prop
  | opened _ => False
  | done _ => True

instance : (call : LedgerCall) → Decidable call.Ended
  | .opened _ => inferInstanceAs (Decidable False)
  | .done _ => inferInstanceAs (Decidable True)

/-- No transaction is open. -/
def LedgerSystem.Idle (s : LedgerSystem) : Prop := ∀ entry ∈ s.calls.entries, entry.2.Ended

instance (s : LedgerSystem) : Decidable s.Idle := by
  unfold LedgerSystem.Idle
  infer_instance

/-- A transaction begins when the one before it has ended. -/
def Sequential (s : LedgerSystem) : LedgerEvent → Prop
  | .begin _ _ _ => s.Idle
  | _ => True

instance (s : LedgerSystem) (event : LedgerEvent) : Decidable (Sequential s event) := by
  cases event <;> unfold Sequential <;> infer_instance

/-- The state after the events, one transaction after the other. -/
structure Reached (defaultTtlSeconds : Int) (events : List LedgerEvent) (s : LedgerSystem) :
    Prop where
  run : run (LedgerSystem.step defaultTtlSeconds) LedgerSystem.empty events = some s
  sequential : Along (LedgerSystem.step defaultTtlSeconds) Sequential LedgerSystem.empty events

section Calls

variable {defaultTtlSeconds : Int} {s s' : LedgerSystem} {event : LedgerEvent} {i : Nat}
  {t : LedgerTransaction} {now : Int} {seen : List (Nat × LedgerClaimStatus)}

theorem idle_iff : s.Idle ↔ ∀ i t, s.calls.get? i ≠ some (.opened t) := by
  constructor
  · intro hidle i t hcall
    exact hidle (i, .opened t) ((OrderedMap.mem_entries_iff _ _ _).mpr hcall)
  · rintro hnone ⟨i, call⟩ hentry
    cases call with
    | opened t => exact hnone i t ((OrderedMap.mem_entries_iff _ _ _).mp hentry)
    | done result => trivial

theorem claimsApart_of_sequential (hsequential : Sequential s event) : ClaimsApart s event := by
  cases event with
  | begin i operation now =>
      cases operation with
      | claim envelopeId ttlSeconds claimerId =>
          rintro ⟨j, call⟩ hentry hclaims
          cases call with
          | opened t => exact hsequential (j, .opened t) hentry
          | done result => exact hclaims
      | finalize envelopeId resultSummary claimerId => trivial
      | reject envelopeId claimerId => trivial
      | expireStalePending limit => trivial
  | issue i now => trivial
  | complete i now => trivial
  | commit i => trivial
  | rollback i => trivial

/-- A statement ends with the next stage of its call or with the end of the call. -/
def Follows (t : LedgerTransaction) : LedgerCall → Prop
  | .opened t' => t'.operation = t.operation ∧ t'.seen = none
  | .done result => ∀ value ∈ result, ∃ count, value = .expiredCount count

theorem complete_calls (hcomplete : s.complete i t now seen defaultTtlSeconds = some s') :
    ∃ call, s'.calls = s.calls.set i call ∧ Follows t call := by
  have hgoTo : ∀ (s₀ : LedgerSystem) stage, s₀.calls = s.calls →
      ∃ call, (s₀.goTo i t stage).calls = s.calls.set i call ∧ Follows t call :=
    fun s₀ stage hcalls => ⟨_, congrArg (OrderedMap.set · i _) hcalls, rfl, rfl⟩
  have hrollback : ∃ call, (s.rollback i).calls = s.calls.set i call ∧ Follows t call :=
    ⟨.done none, rfl, fun value hvalue => by cases hvalue⟩
  have hselect : ∀ ifFound ifNone, s.select i t now seen ifFound ifNone = some s' →
      ∃ call, s'.calls = s.calls.set i call ∧ Follows t call := by
    intro ifFound ifNone hselect
    unfold LedgerSystem.select at hselect
    split at hselect
    next => cases hselect
    next => split at hselect <;> cases hselect <;> exact hgoTo _ _ rfl
  have hupdate : ∀ envelopeId state result,
      s.update i t now seen envelopeId state result = some s' →
        ∃ call, s'.calls = s.calls.set i call ∧ Follows t call := by
    intro envelopeId state result hupdate
    unfold LedgerSystem.update at hupdate
    split at hupdate
    next => cases hupdate
    next =>
      split at hupdate
      next =>
        split at hupdate
        next => cases hupdate
        next =>
          cases hupdate
          exact hrollback
        next =>
          cases hupdate
          exact hgoTo _ _ rfl
      next =>
        cases hupdate
        exact hrollback
  unfold LedgerSystem.complete at hcomplete
  split at hcomplete
  next =>
    unfold LedgerSystem.check at hcomplete
    split at hcomplete
    next =>
      cases hcomplete
      exact hgoTo _ _ rfl
    next =>
      split at hcomplete
      next => cases hcomplete
      next =>
        cases hcomplete
        exact hgoTo _ _ rfl
  next =>
    unfold LedgerSystem.insert at hcomplete
    split at hcomplete
    next =>
      cases hcomplete
      exact hrollback
    next => split at hcomplete <;> cases hcomplete <;> exact hgoTo _ _ rfl
  next => exact hselect _ _ hcomplete
  next => exact hupdate _ _ _ hcomplete
  next =>
    unfold LedgerSystem.expire at hcomplete
    split at hcomplete
    next => cases hcomplete
    next => split at hcomplete <;> cases hcomplete <;> exact hgoTo _ _ rfl
  next =>
    cases hcomplete
    exact hgoTo _ _ rfl
  next => exact hselect _ _ hcomplete
  next => exact hupdate _ _ _ hcomplete
  next =>
    cases hcomplete
    exact hgoTo _ _ rfl
  next =>
    cases hcomplete
    exact ⟨_, rfl, by rintro _ ⟨⟩; exact ⟨_, rfl⟩⟩
  next => cases hcomplete

/-- A transaction begins as a call that was not there; every other event is of an open one. -/
inductive CallStep (defaultTtlSeconds : Int) (s : LedgerSystem) :
    LedgerEvent → LedgerCall → LedgerSystem → Prop where
  | begin {i : Nat} {operation : Operation} {now : Int} {s' : LedgerSystem}
      (hnew : s.calls.get? i = none) :
      CallStep defaultTtlSeconds s (.begin i operation now)
        (.opened ⟨operation, now, operation.first, none⟩) s'
  | issue {i : Nat} {now : Int} {t : LedgerTransaction}
      (hcall : s.calls.get? i = some (.opened t)) (hnone : t.seen = none)
      (hstage : ∀ result, t.stage ≠ .ending result) :
      CallStep defaultTtlSeconds s (.issue i now)
        (.opened { t with seen := some (t.snapshot i now s.rows) })
        (s.setCall i (.opened { t with seen := some (t.snapshot i now s.rows) }))
  | complete {i : Nat} {now : Int} {t : LedgerTransaction} {call : LedgerCall}
      {seen : List (Nat × LedgerClaimStatus)} {s' : LedgerSystem}
      (hcall : s.calls.get? i = some (.opened t)) (hseen : t.seen = some seen)
      (hcomplete : s.complete i t now seen defaultTtlSeconds = some s')
      (hfollows : Follows t call) : CallStep defaultTtlSeconds s (.complete i now) call s'
  | commit {i : Nat} {t : LedgerTransaction} {result : LedgerResult}
      (hcall : s.calls.get? i = some (.opened t)) (hstage : t.stage = .ending result) :
      CallStep defaultTtlSeconds s (.commit i) (.done (some result)) (s.commit i result)
  | rollback {i : Nat} {t : LedgerTransaction} {s' : LedgerSystem}
      (hcall : s.calls.get? i = some (.opened t)) :
      CallStep defaultTtlSeconds s (.rollback i) (.done none) s'

theorem step_calls (hstep : s.step defaultTtlSeconds event = some s') :
    ∃ call, s'.calls = s.calls.set event.call call ∧
      CallStep defaultTtlSeconds s event call s' := by
  cases event with
  | begin i operation now =>
      simp only [LedgerSystem.step] at hstep
      split at hstep
      next hnew =>
        cases hstep
        exact ⟨_, rfl, .begin hnew⟩
      next => cases hstep
  | issue i now =>
      simp only [LedgerSystem.step] at hstep
      split at hstep
      next t hcall =>
        split at hstep
        next => cases hstep
        next => cases hstep
        next hseen hstage =>
          cases hstep
          exact ⟨_, rfl, .issue hcall hseen hstage⟩
      next => cases hstep
  | complete i now =>
      simp only [LedgerSystem.step] at hstep
      split at hstep
      next t hcall =>
        split at hstep
        next seen hseen =>
          obtain ⟨call, hcalls, hfollows⟩ := complete_calls hstep
          exact ⟨call, hcalls, .complete hcall hseen hstep hfollows⟩
        next => cases hstep
      next => cases hstep
  | commit i =>
      simp only [LedgerSystem.step] at hstep
      split at hstep
      next t hcall =>
        split at hstep
        next result hstage =>
          cases hstep
          exact ⟨_, rfl, .commit hcall hstage⟩
        next => cases hstep
      next => cases hstep
  | rollback i =>
      simp only [LedgerSystem.step] at hstep
      split at hstep
      next t hcall =>
        cases hstep
        exact ⟨_, rfl, .rollback hcall⟩
      next => cases hstep

/-- An event that begins no transaction is of an open call. -/
theorem CallStep.opened {call : LedgerCall}
    (hstep : CallStep defaultTtlSeconds s event call s') :
    Sequential s event → s.Idle ∨ ∃ t, s.calls.get? event.call = some (.opened t) := by
  intro hsequential
  cases hstep with
  | begin => exact .inl hsequential
  | issue hcall => exact .inr ⟨_, hcall⟩
  | complete hcall => exact .inr ⟨_, hcall⟩
  | commit hcall => exact .inr ⟨_, hcall⟩
  | rollback hcall => exact .inr ⟨_, hcall⟩

end Calls

/-! ## The last event of a run -/

/-- At most one transaction is open. -/
def OneOpen (s : LedgerSystem) : Prop :=
  ∀ i j t t', s.calls.get? i = some (.opened t) → s.calls.get? j = some (.opened t') → i = j

section Reached

variable {defaultTtlSeconds : Int} {s s' : LedgerSystem} {event : LedgerEvent} {i : Nat}
  {t : LedgerTransaction} {events : List LedgerEvent}

theorem OneOpen.step (hone : OneOpen s) (hsequential : Sequential s event)
    (hstep : s.step defaultTtlSeconds event = some s') : OneOpen s' := by
  obtain ⟨call, hcalls, hcall⟩ := step_calls hstep
  -- Whatever is open after the step was open before, or it is the call of the event.
  have hothers : ∀ j t', s'.calls.get? j = some (.opened t') → j = event.call := by
    intro j t' hopen
    rw [hcalls, OrderedMap.get?_set] at hopen
    split at hopen
    next heq => exact heq.symm
    next hne =>
      obtain hidle | ⟨t, ht⟩ := hcall.opened hsequential
      · exact absurd hopen (idle_iff.mp hidle j t')
      · exact hone j event.call t' t hopen ht
  intro j k t t' ht ht'
  exact (hothers j t ht).trans (hothers k t' ht').symm

theorem reached_concat : Reached defaultTtlSeconds (events ++ [event]) s' ↔
    ∃ s, Reached defaultTtlSeconds events s ∧ Sequential s event ∧
      s.step defaultTtlSeconds event = some s' := by
  constructor
  · rintro ⟨hrun, hsequential⟩
    obtain ⟨s, hs, hlast⟩ := run_append.mp hrun
    obtain ⟨hbefore, hafter⟩ := (along_append hs).mp hsequential
    obtain ⟨s₁, hstep, hend⟩ := run_cons_eq_some.mp hlast
    cases hend
    exact ⟨s, ⟨hs, hbefore⟩, hafter.1, hstep⟩
  · rintro ⟨s, ⟨hrun, hbefore⟩, hsequential, hstep⟩
    have hlast : Foundation.run (LedgerSystem.step defaultTtlSeconds) s [event] = some s' := by
      rw [run_cons hstep]
      rfl
    exact ⟨run_append.mpr ⟨s, hrun, hlast⟩,
      (along_append hrun).mpr ⟨hbefore, (along_cons hstep).mpr ⟨hsequential, trivial⟩⟩⟩

namespace Reached

variable (hreached : Reached defaultTtlSeconds events s)

include hreached

theorem invariants : LedgerInv s ∧ RowsInv s ∧ OneOpen s := by
  refine run_invariant (fun s => LedgerInv s ∧ RowsInv s ∧ OneOpen s) ?_
    ⟨empty_ledgerInv, empty_rowsInv, ?_⟩ hreached.sequential hreached.run
  · rintro s event s' ⟨hledger, hrows, hone⟩ hgood hstep
    exact ⟨step_ledgerInv hledger (claimsApart_of_sequential hgood) hstep,
      hrows.step (step_rows hledger hstep), hone.step hgood hstep⟩
  · intro i j t t' hopen
    cases hopen

/-- The last event before a call is open is an event of this call. -/
theorem last (hcall : s.calls.get? i = some (.opened t)) :
    ∃ before event s₀ call, events = before ++ [event] ∧ event.call = i ∧
      Reached defaultTtlSeconds before s₀ ∧
      CallStep defaultTtlSeconds s₀ event call s ∧ call = .opened t := by
  obtain rfl | ⟨before, event, hevents⟩ := List.eq_nil_or_concat events
  · cases hreached.run
    cases hcall
  · rw [List.concat_eq_append] at hevents
    obtain ⟨s₀, hreached₀, hsequential, hstep⟩ := reached_concat.mp (hevents ▸ hreached)
    obtain ⟨call, hcalls, hcallStep⟩ := step_calls hstep
    have hi : event.call = i := by
      by_contra hne
      rw [hcalls, OrderedMap.get?_set, if_neg hne] at hcall
      obtain hidle | ⟨t', ht'⟩ := hcallStep.opened hsequential
      · exact idle_iff.mp hidle i t hcall
      · exact hne (hreached₀.invariants.2.2 _ _ _ _ ht' hcall)
    rw [hcalls, OrderedMap.get?_set, if_pos hi] at hcall
    exact ⟨before, event, s₀, call, hevents, hi, hreached₀, hcallStep, Option.some.inj hcall⟩

/-- A statement that is under way was issued last. -/
theorem issued {seen : List (Nat × LedgerClaimStatus)}
    (hcall : s.calls.get? i = some (.opened t)) (hseen : t.seen = some seen) :
    ∃ before now s₀ t₀, events = before ++ [.issue i now] ∧
      Reached defaultTtlSeconds before s₀ ∧ s₀.calls.get? i = some (.opened t₀) ∧
      t = { t₀ with seen := some (t₀.snapshot i now s₀.rows) } ∧ s = s₀.setCall i (.opened t) := by
  obtain ⟨before, event, s₀, call, hevents, rfl, hreached₀, hcallStep, hopen⟩ :=
    hreached.last hcall
  cases hcallStep with
  | begin hnew =>
      obtain rfl := LedgerCall.opened.inj hopen
      cases hseen
  | issue hcall₀ hnone hstage =>
      obtain rfl := LedgerCall.opened.inj hopen
      exact ⟨before, _, s₀, _, hevents, hreached₀, hcall₀, rfl, rfl⟩
  | complete hcall₀ hseen₀ hcomplete hfollows =>
      rw [hopen] at hfollows
      cases hfollows.2.symm.trans hseen
  | commit hcall₀ hstage => cases hopen
  | rollback hcall₀ => cases hopen

/-- A result was come to by the statement that ended last. -/
theorem ended {result : LedgerResult} (hcall : s.calls.get? i = some (.opened t))
    (hstage : t.stage = .ending result) :
    ∃ before now s₀ t₀ seen, events = before ++ [.complete i now] ∧
      Reached defaultTtlSeconds before s₀ ∧ s₀.calls.get? i = some (.opened t₀) ∧
      t₀.seen = some seen ∧ s₀.complete i t₀ now seen defaultTtlSeconds = some s := by
  obtain ⟨before, event, s₀, call, hevents, rfl, hreached₀, hcallStep, hopen⟩ :=
    hreached.last hcall
  cases hcallStep with
  | @begin _ operation _ hnew =>
      obtain rfl := LedgerCall.opened.inj hopen
      cases operation <;> cases hstage
  | issue hcall₀ hnone hnot =>
      obtain rfl := LedgerCall.opened.inj hopen
      exact absurd hstage (hnot result)
  | complete hcall₀ hseen₀ hcomplete hfollows =>
      exact ⟨before, _, s₀, _, _, hevents, hreached₀, hcall₀, hseen₀, hcomplete⟩
  | commit hcall₀ hstage => cases hopen
  | rollback hcall₀ => cases hopen

/-- A result that is no count of expired rows was returned by a commit. -/
theorem returned {result : LedgerResult} (hresult : ∀ count, result ≠ .expiredCount count)
    (hcall : s.calls.get? i = some (.done (some result))) :
    ∃ before after s₀ t, events = before ++ .commit i :: after ∧
      Reached defaultTtlSeconds before s₀ ∧ s₀.calls.get? i = some (.opened t) ∧
      t.stage = .ending result ∧
      Foundation.run (LedgerSystem.step defaultTtlSeconds) (s₀.commit i result) after = some s := by
  induction events using List.reverseRecOn generalizing s with
  | nil =>
      cases hreached.run
      cases hcall
  | append_singleton before event ih =>
      obtain ⟨s₀, hreached₀, hsequential, hstep⟩ := reached_concat.mp hreached
      obtain ⟨call, hcalls, hcallStep⟩ := step_calls hstep
      rw [hcalls, OrderedMap.get?_set] at hcall
      split at hcall
      next hi =>
        obtain rfl := Option.some.inj hcall
        subst hi
        cases hcallStep with
        | complete hcall₀ hseen₀ hcomplete hfollows =>
            obtain ⟨count, hcount⟩ := hfollows result rfl
            exact absurd hcount (hresult count)
        | commit hcall₀ hstage =>
            exact ⟨before, [], s₀, _, rfl, hreached₀, hcall₀, hstage, rfl⟩
      next =>
        obtain ⟨before', after, s₁, t, rfl, hreached₁, hopen, hstage, hafter⟩ :=
          ih hreached₀ hcall
        refine ⟨before', after ++ [event], s₁, t, by simp, hreached₁, hopen, hstage, ?_⟩
        refine run_append.mpr ⟨s₀, hafter, ?_⟩
        rw [run_cons hstep]
        rfl

/-- A transaction that began is in the ledger. -/
theorem begun {operation : Operation} {now : Int} (hbegin : .begin i operation now ∈ events) :
    s.calls.get? i ≠ none := by
  induction events using List.reverseRecOn generalizing s with
  | nil => cases hbegin
  | append_singleton before event ih =>
      obtain ⟨s₀, hreached₀, hsequential, hstep⟩ := reached_concat.mp hreached
      obtain ⟨call, hcalls, -⟩ := step_calls hstep
      rw [hcalls, OrderedMap.get?_set]
      split
      next => exact Option.some_ne_none _
      next hne =>
        obtain hbefore | hlast := List.mem_append.mp hbegin
        · exact ih hreached₀ hbefore
        · obtain rfl := List.mem_singleton.mp hlast
          exact absurd rfl hne

/-- An open transaction runs the operation with which it began. -/
theorem operation {operation : Operation} {now : Int} (hbegin : .begin i operation now ∈ events)
    (hcall : s.calls.get? i = some (.opened t)) : t.operation = operation := by
  induction events using List.reverseRecOn generalizing s t with
  | nil => cases hbegin
  | append_singleton before event ih =>
      obtain ⟨s₀, hreached₀, hsequential, hstep⟩ := reached_concat.mp hreached
      obtain ⟨call, hcalls, hcallStep⟩ := step_calls hstep
      rw [hcalls, OrderedMap.get?_set] at hcall
      split at hcall
      next hi =>
        obtain rfl := Option.some.inj hcall
        subst hi
        cases hcallStep with
        | begin hnew =>
            obtain hbefore | hlast := List.mem_append.mp hbegin
            · exact absurd hnew (hreached₀.begun hbefore)
            · cases List.mem_singleton.mp hlast
              rfl
        | issue hcall₀ hnone hstage =>
            have hbefore := (List.mem_append.mp hbegin).resolve_right (by simp)
            have hold := ih hreached₀ hbefore hcall₀
            exact hold
        | complete hcall₀ hseen₀ hcomplete hfollows =>
            have hbefore := (List.mem_append.mp hbegin).resolve_right (by simp)
            exact hfollows.1.trans (ih hreached₀ hbefore hcall₀)
      next hne =>
        obtain hbefore | hlast := List.mem_append.mp hbegin
        · exact ih hreached₀ hbefore hcall
        · obtain rfl := List.mem_singleton.mp hlast
          exact absurd rfl hne

end Reached

/-- A call that is there does not begin again. -/
theorem begin_not_mem {operation : Operation} {now : Int} (hcall : s.calls.get? i ≠ none)
    (hrun : run (LedgerSystem.step defaultTtlSeconds) s events = some s') :
    .begin i operation now ∉ events := by
  induction events generalizing s with
  | nil => exact List.not_mem_nil
  | cons event events ih =>
      obtain ⟨s₁, hstep, hrest⟩ := run_cons_eq_some.mp hrun
      obtain ⟨call, hcalls, hcallStep⟩ := step_calls hstep
      rw [List.mem_cons, not_or]
      constructor
      · rintro rfl
        cases hcallStep with
        | begin hnew => exact hcall hnew
      · refine ih ?_ hrest
        rw [hcalls, OrderedMap.get?_set]
        split
        next => exact Option.some_ne_none _
        next => exact hcall

end Reached

end Coivitas.Policy.EnvelopeLedger
