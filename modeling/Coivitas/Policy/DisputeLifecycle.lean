import Coivitas.Foundation.Run
import Coivitas.Policy.DisputeArbitration

/-! # The life of a dispute

A dispute is resolved by an arbitration or expires. An arbitration checks the
age of its filing before it asks the other ports, and an expiry does not check
it at all; the expiry writes the state and its audit event one after the other.
-/

namespace Coivitas.Policy.Arbitration

open Foundation
open Settlement (WriteOutcome)

/-! ## Expiry -/

structure ExpiryOutcomes where
  calledAt : Int
  expiredAt : String
  updateDisputeState : WriteOutcome
  storedAt : Int
  ordered : calledAt ≤ storedAt
  recordDisputeTransition : WriteOutcome

def expiredEvent (disputeId expiredAt : String) : DisputeStateTransitionEvent :=
  ⟨disputeId, .filed, .expired, expiredAt, .pc3TimeoutExpiry, some true⟩

def recordExpiry (disputeId : String) (env : ExpiryOutcomes) (s : DisputeLedger) :
    Except ArbitrationError Unit × DisputeLedger :=
  let recorded := { s with transitions := s.transitions ++ [expiredEvent disputeId env.expiredAt] }
  match env.recordDisputeTransition with
  | .failed => (.error .port, s)
  | .lost => (.error .port, recorded)
  | .done => (.ok (), recorded)

/-- The state first, then the audit event, each in a call of its own. -/
def runDisputeExpiry (disputeId : String) (env : ExpiryOutcomes) (s : DisputeLedger) :
    Except ArbitrationError Unit × DisputeLedger :=
  match validateStateTransition .filed .expired with
  | .error error => (.error error, s)
  | .ok () =>
      match env.updateDisputeState,
          s.updateDisputeState disputeId .expired env.expiredAt env.storedAt with
      | .failed, _ => (.error .port, s)
      | _, none => (.error .port, s)
      | .lost, some s' => (.error .port, s')
      | .done, some s' => recordExpiry disputeId env s'

/-! ## Runs -/

inductive DisputeCall where
  | arbitration (input : DisputeArbitrationInput) (env : ArbitrationOutcomes)
  | expiry (disputeId : String) (env : ExpiryOutcomes)

/-- The ledger after one call, whatever it returns. -/
def step (P : DaPorts) (s : DisputeLedger) : DisputeCall → Option DisputeLedger
  | .arbitration input env => some (runDisputeArbitration7Steps P input env s).2
  | .expiry disputeId env => some (runDisputeExpiry disputeId env s).2

/-- The age of a dispute at an instant. -/
def age (P : DaPorts) (filedAt : String) (now : Int) : Option Int :=
  (P.getTime filedAt).map fun filedMs => now - filedMs

/-- Disputes expire late, are resolved early, and each has the event of its end. -/
structure Lawful (P : DaPorts) (s : DisputeLedger) : Prop where
  expired : ∀ write ∈ s.writes, write.toState = .expired →
    ∃ ms ∈ age P write.filedAt write.storedAt, maxDisputeMs ≤ ms
  resolved : ∀ write ∈ s.writes, write.toState = .resolved →
    ∃ ms ∈ age P write.filedAt write.storedAt, ms < maxDisputeMs
  audited : ∀ disputeId dispute, s.disputes.find? disputeId = some dispute →
    dispute.currentState ≠ .filed → ∃ event ∈ s.transitions,
      event.disputeId = disputeId ∧ event.fromState = .filed ∧
        event.toState = dispute.currentState

/-- The 14 days of a filing are over. -/
def Overdue (P : DaPorts) (filedAt : String) (now : Int) : Prop :=
  ∃ ms ∈ age P filedAt now, maxDisputeMs ≤ ms

instance (P : DaPorts) (filedAt : String) (now : Int) : Decidable (Overdue P filedAt now) :=
  inferInstanceAs (Decidable (∃ ms ∈ age P filedAt now, maxDisputeMs ≤ ms))

/-- The 14 days do not end between the age check of an arbitration and its commit; an
expiry is asked for when they are over, and neither of its writes is lost. -/
def InTime (P : DaPorts) (s : DisputeLedger) : DisputeCall → Prop
  | .arbitration input env => env.commit ≠ .failed →
      ¬ Overdue P input.filing.filedAt env.checkedAt → ¬ Overdue P input.filing.filedAt env.storedAt
  | .expiry disputeId env => env.updateDisputeState ≠ .failed →
      ∀ dispute ∈ s.disputes.find? disputeId, dispute.currentState = .filed →
        Overdue P dispute.filedAt env.calledAt ∧
          env.updateDisputeState = .done ∧ env.recordDisputeTransition ≠ .failed

instance (P : DaPorts) (s : DisputeLedger) : (call : DisputeCall) → Decidable (InTime P s call)
  | .arbitration input env => inferInstanceAs (Decidable (env.commit ≠ .failed →
      ¬ Overdue P input.filing.filedAt env.checkedAt →
        ¬ Overdue P input.filing.filedAt env.storedAt))
  | .expiry disputeId env => inferInstanceAs (Decidable (env.updateDisputeState ≠ .failed →
      ∀ dispute ∈ s.disputes.find? disputeId, dispute.currentState = .filed →
        Overdue P dispute.filedAt env.calledAt ∧
          env.updateDisputeState = .done ∧ env.recordDisputeTransition ≠ .failed))

section Laws

variable {P : DaPorts} {s s' : DisputeLedger} {input : DisputeArbitrationInput}
  {env : ArbitrationOutcomes}

theorem moveTo_currentState (toState : DisputeState) (transitionedAt : String)
    (dispute : Dispute) : (dispute.moveTo toState transitionedAt).currentState = toState := by
  cases toState <;> rfl

/-- The age check passes a filing whose 14 days are not over. -/
theorem checkAndExpireDispute_eq_ok {filedAt : String} {now : Int} :
    checkAndExpireDispute P filedAt now = .ok () ↔
      ∃ ms ∈ age P filedAt now, ms < maxDisputeMs := by
  unfold checkAndExpireDispute age
  cases P.getTime filedAt with
  | none => simp
  | some filedMs => simp [require_eq_ok]

theorem not_overdue_iff {filedAt : String} {now ms : Int} (hms : ms ∈ age P filedAt now) :
    ¬ Overdue P filedAt now ↔ ms < maxDisputeMs := by
  rw [Option.mem_def] at hms
  simp [Overdue, hms]

/-- An overdue dispute stays overdue. -/
theorem Overdue.later {filedAt : String} {now later : Int} (hoverdue : Overdue P filedAt now)
    (hlater : now ≤ later) : Overdue P filedAt later := by
  obtain ⟨ms, hms, hold⟩ := hoverdue
  obtain ⟨filedMs, hfiled, rfl⟩ := Option.map_eq_some_iff.mp hms
  exact ⟨later - filedMs, Option.map_eq_some_iff.mpr ⟨filedMs, hfiled, rfl⟩, by omega⟩

/-- An arbitration goes on with a filing that its age check has passed. -/
theorem prepare_aged {result : String × List String × ArbitrationDecision}
    (hprepare : prepare P input env s = .ok result) :
    checkAndExpireDispute P input.filing.filedAt env.checkedAt = .ok () := by
  simp only [prepare, checkFiling, bind_eq_ok, exists_unit, Prod.exists] at hprepare
  obtain ⟨_, _, ⟨-, -, hage, -⟩, -⟩ := hprepare
  exact hage

/-- A committed arbitration stores its state before the 14 days are over, unless they
ended after its age check. -/
theorem stored_in_time {result : String × List String × ArbitrationDecision}
    (hprepare : prepare P input env s = .ok result)
    (hintime : ¬ Overdue P input.filing.filedAt env.checkedAt →
      ¬ Overdue P input.filing.filedAt env.storedAt) :
    ∃ ms ∈ age P input.filing.filedAt env.storedAt, ms < maxDisputeMs := by
  obtain ⟨checkedMs, hchecked, hyoung⟩ := checkAndExpireDispute_eq_ok.mp (prepare_aged hprepare)
  obtain ⟨filedMs, hfiled, -⟩ := Option.map_eq_some_iff.mp hchecked
  have hstored : env.storedAt - filedMs ∈ age P input.filing.filedAt env.storedAt :=
    Option.map_eq_some_iff.mpr ⟨filedMs, hfiled, rfl⟩
  exact ⟨_, hstored, (not_overdue_iff hstored).mp (hintime ((not_overdue_iff hchecked).mpr hyoung))⟩

/-- An arbitration leaves the ledger as it is, or its transaction commits. -/
theorem arbitration_snd (P : DaPorts) (input : DisputeArbitrationInput)
    (env : ArbitrationOutcomes) (s : DisputeLedger) :
    (runDisputeArbitration7Steps P input env s).2 = s ∨
      ∃ hash validatedUris decision,
        prepare P input env s = .ok (hash, validatedUris, decision) ∧ env.commit ≠ .failed ∧
        transaction input env hash validatedUris decision s =
          some (runDisputeArbitration7Steps P input env s).2 := by
  unfold runDisputeArbitration7Steps
  split
  next => exact .inl rfl
  next hash validatedUris decision hprepare =>
    split
    next => exact .inl rfl
    next => exact .inl rfl
    next hcommit htransaction =>
      exact .inr ⟨hash, validatedUris, decision, hprepare, by rw [hcommit]; simp, htransaction⟩
    next hcommit htransaction =>
      exact .inr ⟨hash, validatedUris, decision, hprepare, by rw [hcommit]; simp, htransaction⟩

/-- An expiry leaves the ledger as it is, writes the state only, or records it too. -/
theorem expiry_snd (disputeId : String) (env : ExpiryOutcomes) (s : DisputeLedger) :
    (runDisputeExpiry disputeId env s).2 = s ∨
      ∃ s₁, s.updateDisputeState disputeId .expired env.expiredAt env.storedAt = some s₁ ∧
        env.updateDisputeState ≠ .failed ∧
        (env.updateDisputeState = .done → (runDisputeExpiry disputeId env s).2 =
          (recordExpiry disputeId env s₁).2) := by
  unfold runDisputeExpiry
  split
  next => exact .inl rfl
  next =>
    split
    next => exact .inl rfl
    next => exact .inl rfl
    next s₁ hwrite hupdate =>
      exact .inr ⟨s₁, hupdate, by rw [hwrite]; simp, fun hdone => by rw [hwrite] at hdone; cases hdone⟩
    next s₁ hwrite hupdate => exact .inr ⟨s₁, hupdate, by rw [hwrite]; simp, fun _ => rfl⟩

/-- The end of one dispute: one state written in time, with its event. -/
theorem Lawful.ended {disputeId filedAt : String} {toState : DisputeState} {storedAt : Int}
    {event : DisputeStateTransitionEvent} (hlawful : Lawful P s)
    (hwrites : s'.writes = s.writes ++ [⟨disputeId, filedAt, toState, storedAt⟩])
    (htransitions : s'.transitions = s.transitions ++ [event])
    (hexpired : toState = .expired → ∃ ms ∈ age P filedAt storedAt, maxDisputeMs ≤ ms)
    (hresolved : toState = .resolved → ∃ ms ∈ age P filedAt storedAt, ms < maxDisputeMs)
    (hevent : event.disputeId = disputeId ∧ event.fromState = .filed ∧ event.toState = toState)
    (hends : ∀ dispute, s'.disputes.find? disputeId = some dispute →
      dispute.currentState = toState)
    (hothers : ∀ other ≠ disputeId, s'.disputes.find? other = s.disputes.find? other) :
    Lawful P s' := by
  refine ⟨?_, ?_, ?_⟩
  · rw [hwrites]
    intro write hwrite hstate
    obtain hwrite | hwrite := List.mem_append.mp hwrite
    · exact hlawful.expired write hwrite hstate
    · rw [List.mem_singleton.mp hwrite] at hstate ⊢
      exact hexpired hstate
  · rw [hwrites]
    intro write hwrite hstate
    obtain hwrite | hwrite := List.mem_append.mp hwrite
    · exact hlawful.resolved write hwrite hstate
    · rw [List.mem_singleton.mp hwrite] at hstate ⊢
      exact hresolved hstate
  · rw [htransitions]
    intro other dispute hfind hstate
    by_cases hother : other = disputeId
    · rw [hother] at hfind ⊢
      obtain ⟨hid, hfrom, hto⟩ := hevent
      exact ⟨event, by simp, hid, hfrom, hto.trans (hends dispute hfind).symm⟩
    · rw [hothers other hother] at hfind
      obtain ⟨event', hevent', hmatches⟩ := hlawful.audited other dispute hfind hstate
      exact ⟨event', List.mem_append_left _ hevent', hmatches⟩

/-- An update ends the dispute that it names and no other. -/
theorem find?_moveTo {disputes : Table Dispute.disputeId} {disputeId transitionedAt : String}
    {toState : DisputeState} :
    (∀ dispute, (disputes.update disputeId (Dispute.moveTo toState transitionedAt)
        (Dispute.moveTo_disputeId toState transitionedAt)).find? disputeId = some dispute →
          dispute.currentState = toState) ∧
      ∀ other ≠ disputeId, (disputes.update disputeId (Dispute.moveTo toState transitionedAt)
        (Dispute.moveTo_disputeId toState transitionedAt)).find? other = disputes.find? other := by
  refine ⟨fun dispute hfind => ?_, fun other hother => ?_⟩
  · rw [Table.find?_update] at hfind
    obtain ⟨old, -, rfl⟩ := Option.map_eq_some_iff.mp hfind
    rw [if_pos rfl, moveTo_currentState]
  · rw [Table.find?_update]
    simp [hother]

theorem arbitration_lawful (hlawful : Lawful P s) (hintime : InTime P s (.arbitration input env)) :
    Lawful P (runDisputeArbitration7Steps P input env s).2 := by
  obtain hsame | ⟨hash, validatedUris, decision, hprepare, hcommit, htransaction⟩ :=
    arbitration_snd P input env s
  · rw [hsame]
    exact hlawful
  · obtain ⟨disputes, hinsert, hdisputes, -, htransitions, hwrites⟩ :=
      transaction_eq_some htransaction
    refine hlawful.ended hwrites htransitions nofun
      (fun _ => stored_in_time hprepare (hintime hcommit)) ⟨rfl, rfl, rfl⟩ ?_ fun other hother => ?_
    · rw [hdisputes]
      exact find?_moveTo.1
    · have hnew : (filedDispute input env hash validatedUris).disputeId ≠ other := hother.symm
      rw [hdisputes, find?_moveTo.2 other hother, Table.find?_insert? hinsert, if_neg hnew]

theorem expiry_lawful {disputeId : String} {env : ExpiryOutcomes} (hlawful : Lawful P s)
    (hintime : InTime P s (.expiry disputeId env)) :
    Lawful P (runDisputeExpiry disputeId env s).2 := by
  obtain hsame | ⟨s₁, hupdate, hwritten, hdone⟩ := expiry_snd disputeId env s
  · rw [hsame]
    exact hlawful
  · obtain ⟨dispute, hfind, hallowed, rfl⟩ := updateDisputeState_eq_some hupdate
    have hfiled : dispute.currentState = .filed := by
      cases hstate : dispute.currentState with
      | filed => rfl
      | resolved => simp [hstate, disputeStateTransitions] at hallowed
      | expired => simp [hstate, disputeStateTransitions] at hallowed
    obtain ⟨hoverdue, hstate, hrecorded⟩ := hintime hwritten dispute hfind hfiled
    rw [hdone hstate]
    have hrecord : ∀ s, (recordExpiry disputeId env s).2 = { s with
        transitions := s.transitions ++ [expiredEvent disputeId env.expiredAt] } := by
      intro s
      unfold recordExpiry
      split
      next hfailed => exact absurd hfailed hrecorded
      next => rfl
      next => rfl
    rw [hrecord]
    exact hlawful.ended rfl rfl (fun _ => hoverdue.later env.ordered) nofun ⟨rfl, rfl, rfl⟩
      find?_moveTo.1 find?_moveTo.2

theorem step_lawful {call : DisputeCall} (hlawful : Lawful P s) (hintime : InTime P s call)
    (hstep : step P s call = some s') : Lawful P s' := by
  cases call with
  | arbitration input env =>
      cases hstep
      exact arbitration_lawful hlawful hintime
  | expiry disputeId env =>
      cases hstep
      exact expiry_lawful hlawful hintime

/-- Disputes end in time and with their events, in every sequence of calls that are in
time. -/
theorem lifecycle_lawful (P : DaPorts) (calls : List DisputeCall) (s₀ s : DisputeLedger)
    (hstart : Lawful P s₀) (hintime : Along (step P) (InTime P) s₀ calls)
    (hrun : run (step P) s₀ calls = some s) : Lawful P s :=
  run_invariant (Lawful P) (fun _ _ _ hlawful hgood hstep => step_lawful hlawful hgood hstep)
    hstart hintime hrun

end Laws

namespace Panel

/-- The age is checked one millisecond before the limit, and the dispute is stored as
resolved one second after it. -/
def slow : List DisputeCall :=
  [.arbitration input { outcomes claimantPrevails with
    checkedAt := 1783166399999
    storedAt := 1783166401000 }]

/-- A dispute that waits for its arbitration. -/
def waiting : Dispute :=
  { filedDispute input (outcomes claimantPrevails)
      "3f1b0a7c5d9e2468ace013579bdf02468ace13579bdf0248ace13579bdf02468" [] with
    disputeId := "b7a4e9d0-31c6-4f58-8a02-9d6e5c1f7b43" }

def ledger : DisputeLedger :=
  { DisputeLedger.empty with disputes := ⟨[waiting], List.nodup_singleton _⟩ }

theorem lawful_ledger : Lawful ports ledger := by
  refine ⟨fun _ hwrite => (by cases hwrite), fun _ hwrite => (by cases hwrite), ?_⟩
  intro disputeId dispute hfind hstate
  obtain ⟨hrow, -⟩ := Table.find?_eq_some.mp hfind
  rw [List.mem_singleton.mp hrow] at hstate
  exact absurd rfl hstate

def expires (now : Int) (recorded : WriteOutcome) : DisputeCall :=
  .expiry waiting.disputeId ⟨now, "2026-06-20T13:00:00.000Z", .done, now, le_rfl, recorded⟩

/-- One hour after the filing, and the audit event is lost. -/
def hasty : List DisputeCall := [expires 1781960400000 .failed]

theorem not_lawful_of_write {s : DisputeLedger} {write : StateWrite} (hwrite : write ∈ s.writes)
    (hbad : write.toState = .resolved ∧
        (∀ ms ∈ age ports write.filedAt write.storedAt, maxDisputeMs ≤ ms) ∨
      write.toState = .expired ∧
        ∀ ms ∈ age ports write.filedAt write.storedAt, ms < maxDisputeMs) :
    ¬ Lawful ports s := by
  intro hlawful
  obtain ⟨hstate, hold⟩ | ⟨hstate, hyoung⟩ := hbad
  · obtain ⟨ms, hms, hlt⟩ := hlawful.resolved write hwrite hstate
    exact absurd hlt (not_lt.mpr (hold ms hms))
  · obtain ⟨ms, hms, hle⟩ := hlawful.expired write hwrite hstate
    exact absurd hle (not_le.mpr (hyoung ms hms))

/-- The law fails: a slow arbitration resolves a dispute that is too old, and an expiry
ends one that is an hour old without an event. -/
theorem ended_out_of_time :
    (∃ s, run (step ports) DisputeLedger.empty slow = some s ∧ ¬ Lawful ports s) ∧
      ∃ s, run (step ports) ledger hasty = some s ∧ s.transitions.length = 0 ∧
        ¬ Lawful ports s := by
  have hslow : (run (step ports) DisputeLedger.empty slow).any (fun s => decide
      (∃ write ∈ s.writes, write.toState = .resolved ∧
        ∀ ms ∈ age ports write.filedAt write.storedAt, maxDisputeMs ≤ ms)) = true := by
    decide +kernel
  have hhasty : (run (step ports) ledger hasty).any (fun s => decide
      (s.transitions.length = 0 ∧ ∃ write ∈ s.writes, write.toState = .expired ∧
        ∀ ms ∈ age ports write.filedAt write.storedAt, ms < maxDisputeMs)) = true := by
    decide +kernel
  obtain ⟨s, hs, hbad⟩ := (Option.any_eq_true _ _).mp hslow
  obtain ⟨s', hs', hbad'⟩ := (Option.any_eq_true _ _).mp hhasty
  obtain ⟨write, hwrite, hold⟩ := of_decide_eq_true hbad
  obtain ⟨hevents, write', hwrite', hyoung⟩ := of_decide_eq_true hbad'
  exact ⟨⟨s, hs, not_lawful_of_write hwrite (.inl hold)⟩,
    s', hs', hevents, not_lawful_of_write hwrite' (.inr hyoung)⟩

/-- An arbitration in time, and the expiry of the waiting dispute after two weeks. -/
def prompt : List DisputeCall :=
  [.arbitration input (outcomes claimantPrevails), expires 1783166400000 .done]

theorem prompt_lawful : ∃ s, run (step ports) ledger prompt = some s ∧ Lawful ports s := by
  have hintime : Along (step ports) (InTime ports) ledger prompt := by decide +kernel
  exact ⟨_, rfl, lifecycle_lawful ports prompt ledger _ lawful_ledger hintime rfl⟩

end Panel

end Coivitas.Policy.Arbitration
