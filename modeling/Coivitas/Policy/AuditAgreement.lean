import Coivitas.Policy.AuditStore

/-! # Writer and verifier agree on the audit store

The abstract store is a ledger: the list of the events written so far. The
in-memory store is determined by it, every call either leaves the ledger as it
is or appends one event, and the chain of a tenant and a class is the part of
the ledger that belongs to them. Along every run each such chain replays, so
the verifier accepts what the writer wrote.
-/

namespace Coivitas.Policy

open Foundation Crypto InMemoryAuditEventStore

/-! ## Keys -/

theorem chainKey_inj {tenantId tenantId' : String} {auditClass auditClass' : AuditClass}
    (h : chainKey tenantId auditClass = chainKey tenantId' auditClass') :
    tenantId = tenantId' ∧ auditClass = auditClass' := by
  have htexts := congrArg String.toList h
  simp only [chainKey, String.toList_append, List.append_assoc] at htexts
  have hlength : ∀ c : AuditClass, c.text.toList.length = 2 := by
    intro c
    cases c <;> rfl
  obtain ⟨htenant, hclass⟩ := List.append_inj' htexts (by simp [hlength])
  refine ⟨String.toList_injective htenant, AuditClass.text_injective (String.toList_injective ?_)⟩
  exact List.append_cancel_left hclass

/-! ## Ledgers -/

def AuditEvent.key (event : AuditEvent) : String := chainKey event.tenantId event.auditClass

/-- The events of one tenant and class, in the order of the ledger. -/
def chainOf (tenantId : String) (auditClass : AuditClass) (ledger : List AuditEvent) :
    List AuditEvent :=
  ledger.filter fun event => event.tenantId = tenantId ∧ event.auditClass = auditClass

/-- The store that holds a ledger, with no lock taken. -/
def storeOf (ledger : List AuditEvent) : InMemoryAuditEventStore where
  events := .ofList (fun event => event.eventId) ledger
  chainsByTenantClass := .groupBy AuditEvent.key (fun event => event.eventId) ledger
  lockHolders := []

theorem storeOf_nil : storeOf [] = InMemoryAuditEventStore.empty := rfl

theorem storeOf_concat (ledger : List AuditEvent) (event : AuditEvent) :
    storeOf (ledger ++ [event]) =
      { events := (storeOf ledger).events.set event.eventId event
        chainsByTenantClass := (storeOf ledger).chainsByTenantClass.set event.key
          (((storeOf ledger).chainsByTenantClass.get? event.key).getD [] ++ [event.eventId])
        lockHolders := [] } := by
  simp only [storeOf, OrderedMap.ofList, OrderedMap.groupBy, List.foldl_append, List.foldl_cons,
    List.foldl_nil]

theorem chainOf_eq_filter_key (tenantId : String) (auditClass : AuditClass)
    (ledger : List AuditEvent) :
    chainOf tenantId auditClass ledger =
      ledger.filter fun event => event.key = chainKey tenantId auditClass := by
  refine List.filter_congr fun event _ => decide_eq_decide.mpr ?_
  constructor
  · rintro ⟨rfl, rfl⟩
    rfl
  · exact chainKey_inj

theorem chainIds_storeOf (tenantId : String) (auditClass : AuditClass)
    (ledger : List AuditEvent) :
    ((storeOf ledger).chainsByTenantClass.get? (chainKey tenantId auditClass)).getD [] =
      (chainOf tenantId auditClass ledger).map fun event => event.eventId := by
  rw [chainOf_eq_filter_key]
  exact OrderedMap.get?_groupBy _ _ _ _

theorem chainOf_concat_own (ledger : List AuditEvent) (event : AuditEvent) :
    chainOf event.tenantId event.auditClass (ledger ++ [event]) =
      chainOf event.tenantId event.auditClass ledger ++ [event] := by
  simp [chainOf]

theorem chainOf_concat_other {tenantId : String} {auditClass : AuditClass} {event : AuditEvent}
    (hother : ¬ (event.tenantId = tenantId ∧ event.auditClass = auditClass))
    (ledger : List AuditEvent) :
    chainOf tenantId auditClass (ledger ++ [event]) = chainOf tenantId auditClass ledger := by
  simp [chainOf, hother]

/-- What the writer keeps true of its ledger. -/
structure SoundLedger (P : AuditPorts) (ledger : List AuditEvent) : Prop where
  nodup : (ledger.map fun event => event.eventId).Nodup
  valid : ∀ event ∈ ledger, event.isValid P = true
  hashes : ∀ event ∈ ledger, HashVerified P.numberFormat event
  linked : ∀ tenantId auditClass, Linked none (chainOf tenantId auditClass ledger)

variable {P : AuditPorts} {ledger : List AuditEvent}

theorem soundLedger_nil : SoundLedger P [] := by
  refine ⟨List.nodup_nil, by simp, by simp, ?_⟩
  intro tenantId auditClass
  exact trivial

/-! ## Reading the store -/

theorem get?_events_storeOf (hsound : SoundLedger P ledger) (eventId : String)
    (event : AuditEvent) :
    (storeOf ledger).events.get? eventId = some event ↔
      event ∈ ledger ∧ event.eventId = eventId :=
  OrderedMap.get?_ofList _ hsound.nodup eventId event

theorem get?_eventId_of_mem (hsound : SoundLedger P ledger) {event : AuditEvent}
    (hevent : event ∈ ledger) : (storeOf ledger).events.get? event.eventId = some event :=
  (get?_events_storeOf hsound _ _).mpr ⟨hevent, rfl⟩

theorem resolveEvents_storeOf (hsound : SoundLedger P ledger) (events : List AuditEvent)
    (hevents : ∀ event ∈ events, event ∈ ledger) :
    (storeOf ledger).resolveEvents (events.map fun event => event.eventId) = .ok events := by
  induction events with
  | nil => rfl
  | cons event rest ih =>
      have hget := get?_eventId_of_mem hsound (hevents event List.mem_cons_self)
      have hrest := ih fun event hevent => hevents event (List.mem_cons_of_mem _ hevent)
      simp only [List.map_cons, resolveEvents, hget, hrest]
      rfl

theorem fetchAllEvents_storeOf (hsound : SoundLedger P ledger) (tenantId : String)
    (auditClass : AuditClass) :
    (storeOf ledger).fetchAllEvents tenantId auditClass =
      .ok (chainOf tenantId auditClass ledger) := by
  rw [fetchAllEvents, chainIds_storeOf]
  apply resolveEvents_storeOf hsound
  intro event hevent
  exact (List.mem_filter.mp hevent).1

theorem bind_getLast?_eq (chain : Option (List String)) :
    chain.bind List.getLast? = (chain.getD []).getLast? := by
  cases chain <;> rfl

theorem fetchLastTamperProofHash_storeOf (hsound : SoundLedger P ledger) (tenantId : String)
    (auditClass : AuditClass) :
    (storeOf ledger).fetchLastTamperProofHash tenantId auditClass =
      .ok (lastDigest AuditEvent.tamperProofHash (chainOf tenantId auditClass ledger)) := by
  rw [fetchLastTamperProofHash, bind_getLast?_eq, chainIds_storeOf, List.getLast?_map, lastDigest]
  cases hlast : (chainOf tenantId auditClass ledger).getLast? with
  | none => rfl
  | some event =>
      have hmem : event ∈ ledger := (List.mem_filter.mp (List.mem_of_getLast? hlast)).1
      simp only [Option.map_some, get?_eventId_of_mem hsound hmem]
      rfl

/-! ## One call -/

/-- The event a call composed and the ledger accepted. -/
structure Written (P : AuditPorts) (ledger : List AuditEvent) (call : WriteAuditEventCall)
    (event : AuditEvent) : Prop where
  fresh : event.eventId ∉ ledger.map fun event => event.eventId
  composed : composeAuditEvent P call (lastDigest AuditEvent.tamperProofHash
    (chainOf call.input.tenantId call.input.auditClass ledger)) = .ok event

/-- What composing establishes of the event. -/
structure Composed (P : AuditPorts) (call : WriteAuditEventCall) (previousHash : Option String)
    (event : AuditEvent) : Prop where
  tenantId : event.tenantId = call.input.tenantId
  auditClass : event.auditClass = call.input.auditClass
  previousHash : event.previousHash = previousHash
  payload : canonicalizeAuditPayload P.numberFormat call.input.payload =
    .ok event.canonicalPayload
  valid : event.isValid P = true
  hashes : HashVerified P.numberFormat event

theorem composeAuditEvent_composed {call : WriteAuditEventCall} {previousHash : Option String}
    {event : AuditEvent} (h : composeAuditEvent P call previousHash = .ok event) :
    Composed P call previousHash event := by
  simp only [composeAuditEvent, toAuditEventHash, validateAuditEvent, buildTamperProofHashInput_eq,
    bind_eq_ok, exists_unit, mapError_eq_ok, require_eq_ok, pure_eq_ok, Except.ok.injEq,
    exists_eq_left'] at h
  obtain ⟨payload, hpayload, eventId, -, timestamp, -, -, ⟨-, rfl⟩, hvalid, rfl⟩ := h
  exact ⟨rfl, rfl, rfl, hpayload, hvalid, rfl⟩

theorem run_insertEvent_fresh {store : InMemoryAuditEventStore} {event : AuditEvent}
    (hfresh : store.events.get? event.eventId = none) :
    (insertEvent event).run store =
      ⟨.ok (), { store with
        events := store.events.set event.eventId event
        chainsByTenantClass := store.chainsByTenantClass.set event.key
          ((store.chainsByTenantClass.get? event.key).getD [] ++ [event.eventId]) }, []⟩ := by
  have hhas : store.events.has event.eventId = false := by rw [OrderedMap.has, hfresh]; rfl
  rw [insertEvent, Program.run_get_bind, hhas]
  rfl

theorem run_insertEvent_duplicate {store : InMemoryAuditEventStore} {event held : AuditEvent}
    (hheld : store.events.get? event.eventId = some held) :
    ∃ error, (insertEvent event).run store = ⟨.error (.audit error), store, []⟩ := by
  have hhas : store.events.has event.eventId = true := by rw [OrderedMap.has, hheld]; rfl
  rw [insertEvent, Program.run_get_bind, hhas]
  exact ⟨_, rfl⟩

/-- The store of a ledger while a call holds the lock of a key. -/
def lockedStoreOf (key : String) (ledger : List AuditEvent) : InMemoryAuditEventStore :=
  { storeOf ledger with lockHolders := [key] }

theorem run_acquireAdvisoryLock (tenantId : String) (auditClass : AuditClass)
    (ledger : List AuditEvent) :
    (acquireAdvisoryLock tenantId auditClass).run (storeOf ledger) =
      ⟨.ok (), lockedStoreOf (chainKey tenantId auditClass) ledger, []⟩ := by
  rw [acquireAdvisoryLock, Program.run_get_bind, if_neg (by simp [storeOf])]
  rfl

theorem release_storeOf (tenantId : String) (auditClass : AuditClass)
    (ledger : List AuditEvent) :
    (storeOf ledger).releaseAdvisoryLock tenantId auditClass = storeOf ledger := rfl

theorem release_lockedStoreOf (tenantId : String) (auditClass : AuditClass)
    (ledger : List AuditEvent) :
    (lockedStoreOf (chainKey tenantId auditClass) ledger).releaseAdvisoryLock tenantId auditClass =
      storeOf ledger := by
  simp [lockedStoreOf, releaseAdvisoryLock, storeOf]

/-- The part of a call under the lock: the composed event is appended, or the
store stays as it is. -/
theorem run_insertEvent_lockedStoreOf (hsound : SoundLedger P ledger) (key : String)
    (event : AuditEvent) :
    (event.eventId ∉ ledger.map fun event => event.eventId) ∧
        (insertEvent event).run (lockedStoreOf key ledger) =
          ⟨.ok (), lockedStoreOf key (ledger ++ [event]), []⟩ ∨
      ∃ error, (insertEvent event).run (lockedStoreOf key ledger) =
        ⟨.error (.audit error), lockedStoreOf key ledger, []⟩ := by
  cases hget : (storeOf ledger).events.get? event.eventId with
  | none =>
      left
      refine ⟨?_, ?_⟩
      · intro hmem
        obtain ⟨held, hheld, hid⟩ := List.mem_map.mp hmem
        have hsome := (get?_events_storeOf hsound event.eventId held).mpr ⟨hheld, hid⟩
        rw [hget] at hsome
        cases hsome
      · have hrun : (insertEvent event).run (lockedStoreOf key ledger) = _ :=
          run_insertEvent_fresh hget
        rw [hrun, lockedStoreOf, lockedStoreOf, storeOf_concat]
  | some held => exact Or.inr (run_insertEvent_duplicate hget)

/-- A call throws and leaves the ledger, or returns the event it appended. The
lock it holds at the end, if any, is its own. -/
theorem run_writeAuditEvent (hsound : SoundLedger P ledger) (call : WriteAuditEventCall) :
    (∃ fault store, (writeAuditEvent P call).run (storeOf ledger) = ⟨.error fault, store, []⟩ ∧
        store.releaseAdvisoryLock call.input.tenantId call.input.auditClass = storeOf ledger) ∨
      ∃ event, (writeAuditEvent P call).run (storeOf ledger) =
          ⟨.ok event, lockedStoreOf (chainKey call.input.tenantId call.input.auditClass)
            (ledger ++ [event]), []⟩ ∧ Written P ledger call event := by
  rw [writeAuditEvent, Program.run_ofExcept_bind]
  cases call.resolveCallerTenant call.caller with
  | error fault => exact Or.inl ⟨fault, _, rfl, release_storeOf _ _ _⟩
  | ok resolvedTenant =>
  dsimp only
  rw [Program.run_ofExcept_bind]
  cases assertTenantScope call.input.tenantId resolvedTenant with
  | error fault => exact Or.inl ⟨fault, _, rfl, release_storeOf _ _ _⟩
  | ok _ =>
  dsimp only
  rw [Program.run_ofExcept_bind]
  cases assertDbRoleMatchesAuditClass call.caller.dbRole call.input.auditClass with
  | error fault => exact Or.inl ⟨fault, _, rfl, release_storeOf _ _ _⟩
  | ok _ =>
  dsimp only
  rw [Program.run_bind_ok (run_acquireAdvisoryLock _ _ ledger), Program.run_get_bind]
  have hfetch : (lockedStoreOf (chainKey call.input.tenantId call.input.auditClass)
      ledger).fetchLastTamperProofHash call.input.tenantId call.input.auditClass = _ :=
    fetchLastTamperProofHash_storeOf hsound call.input.tenantId call.input.auditClass
  rw [hfetch, Except.mapError, Program.run_ofExcept_bind]
  dsimp only
  rw [Program.run_ofExcept_bind]
  cases hcomposed : composeAuditEvent P call (lastDigest AuditEvent.tamperProofHash
      (chainOf call.input.tenantId call.input.auditClass ledger)) with
  | error fault => exact Or.inl ⟨fault, _, rfl, release_lockedStoreOf _ _ _⟩
  | ok event =>
  dsimp only
  rcases run_insertEvent_lockedStoreOf hsound
    (chainKey call.input.tenantId call.input.auditClass) event with ⟨hfresh, hrun⟩ | ⟨error, hrun⟩
  · rw [Program.run_bind_ok (Program.run_tryCatch_ok hrun)]
    exact Or.inr ⟨event, rfl, hfresh, hcomposed⟩
  · left
    refine ⟨.audit error, _, Program.run_bind_error ?_, release_lockedStoreOf _ _ ledger⟩
    exact Program.run_tryCatch_error hrun

/-- A call leaves the ledger or appends one event to it, and waits for no lock. -/
theorem run_lockedWrite (hsound : SoundLedger P ledger) (call : WriteAuditEventCall) :
    (∃ fault, (lockedWrite P call).run (storeOf ledger) = ⟨.error fault, storeOf ledger, []⟩) ∨
      ∃ event, (lockedWrite P call).run (storeOf ledger) =
          ⟨.ok event, storeOf (ledger ++ [event]), []⟩ ∧ Written P ledger call event := by
  have hlocked : ∀ store, (lockedWrite P call).run store =
      { (writeAuditEvent P call).run store with
        world := ((writeAuditEvent P call).run store).world.releaseAdvisoryLock
          call.input.tenantId call.input.auditClass } := fun _ => rfl
  rcases run_writeAuditEvent hsound call with ⟨fault, store, hrun, hrelease⟩ | ⟨event, hrun, hwritten⟩
  · refine Or.inl ⟨fault, ?_⟩
    rw [hlocked, hrun]
    simp only [hrelease]
  · refine Or.inr ⟨event, ?_, hwritten⟩
    rw [hlocked, hrun]
    simp only [release_lockedStoreOf]

/-! ## Runs -/

/-- A written event is one more link of its own chain. -/
theorem SoundLedger.concat (hsound : SoundLedger P ledger) {call : WriteAuditEventCall}
    {event : AuditEvent} (hwritten : Written P ledger call event) :
    SoundLedger P (ledger ++ [event]) := by
  have hcomposed := composeAuditEvent_composed hwritten.composed
  refine ⟨?_, ?_, ?_, ?_⟩
  · rw [List.map_append, List.map_singleton]
    exact List.nodup_append.mpr ⟨hsound.nodup, List.nodup_singleton _, fun id hid id' hid' heq =>
      hwritten.fresh (List.mem_singleton.mp hid' ▸ heq ▸ hid)⟩
  · simp only [List.forall_mem_append, List.forall_mem_singleton]
    exact ⟨hsound.valid, hcomposed.valid⟩
  · simp only [List.forall_mem_append, List.forall_mem_singleton]
    exact ⟨hsound.hashes, hcomposed.hashes⟩
  · intro tenantId auditClass
    by_cases hown : event.tenantId = tenantId ∧ event.auditClass = auditClass
    · obtain ⟨rfl, rfl⟩ := hown
      rw [chainOf_concat_own]
      refine (backLinked_concat _ _).mpr ⟨hsound.linked _ _, ?_⟩
      rw [hcomposed.previousHash, hcomposed.tenantId, hcomposed.auditClass]
    · rw [chainOf_concat_other hown]
      exact hsound.linked tenantId auditClass

/-- A run extends the ledger and keeps it sound. -/
theorem runCalls_storeOf (hsound : SoundLedger P ledger) (calls : List WriteAuditEventCall) :
    ∃ written, runCalls P (storeOf ledger) calls = storeOf (ledger ++ written) ∧
      SoundLedger P (ledger ++ written) := by
  induction calls generalizing ledger with
  | nil => exact ⟨[], by simp [runCalls], by simpa using hsound⟩
  | cons call rest ih =>
      have hcons : runCalls P (storeOf ledger) (call :: rest) =
          runCalls P ((lockedWrite P call).run (storeOf ledger)).world rest := rfl
      rw [hcons]
      rcases run_lockedWrite hsound call with ⟨fault, hrun⟩ | ⟨event, hrun, hwritten⟩
      · rw [hrun]
        exact ih hsound
      · rw [hrun]
        obtain ⟨written, hstore, hsound'⟩ := ih (hsound.concat hwritten)
        exact ⟨event :: written, by simpa using hstore, by simpa using hsound'⟩

/-! ## Verification -/

theorem fetchEventById_storeOf (hsound : SoundLedger P ledger) {event : AuditEvent}
    (hevent : event ∈ ledger) (tenantId : String) :
    (storeOf ledger).fetchEventById event.eventId tenantId =
      if event.tenantId ≠ tenantId then none else some event := by
  rw [fetchEventById, get?_eventId_of_mem hsound hevent]

/-- The verifier accepts every unsigned event of a sound ledger, also with a
payload that canonicalizes to the stored text. -/
theorem verifyAuditEvent_accepts (hsound : SoundLedger P ledger) {event : AuditEvent}
    (hevent : event ∈ ledger) (hsignature : event.signature = none)
    {originalPayload : Option AuditPayload}
    (hpayload : ∀ payload ∈ originalPayload,
      canonicalizeAuditPayload P.numberFormat payload = .ok event.canonicalPayload) :
    verifyAuditEvent P (storeOf ledger) ⟨event.eventId, event.tenantId, originalPayload⟩ =
      .ok event := by
  have hreplay : replayChain P.numberFormat event
      (chainOf event.tenantId event.auditClass ledger) = .ok () := by
    refine replayChain_of_linked _ (hsound.linked _ _) ?_ (by simp [chainOf, hevent])
    intro ev hev
    exact hsound.hashes ev (List.mem_filter.mp hev).1
  rw [verifyAuditEvent, mapError_eq_ok, verifySteps, fetchEventById_storeOf hsound hevent,
    if_neg (not_not_intro rfl)]
  simp only [validateAuditEvent, fetchAllEvents_storeOf hsound, bind_eq_ok, exists_unit,
    mapError_eq_ok, require_eq_ok, Except.ok.injEq, exists_eq_left', pure_eq_ok, and_true]
  refine ⟨hsound.valid event hevent, hreplay, ?_, hsignature⟩
  cases originalPayload with
  | none => rfl
  | some payload => simp [recheckPayload, hpayload payload rfl]

theorem verifyAuditEvent_rejects_other_tenant (hsound : SoundLedger P ledger)
    {event : AuditEvent} (hevent : event ∈ ledger) {tenantId : String}
    (hother : tenantId ≠ event.tenantId) (originalPayload : Option AuditPayload) :
    ∃ error, verifyAuditEvent P (storeOf ledger) ⟨event.eventId, tenantId, originalPayload⟩ =
      .error (.audit error) := by
  rw [verifyAuditEvent, verifySteps, fetchEventById_storeOf hsound hevent, if_pos hother.symm]
  exact ⟨_, rfl⟩

/-- Take any call in any run. If it fails, the store is as before. If it returns
an event, no other chain changed, and after the whole run the verifier accepts
the event under its tenant, unless it is signed, and rejects it under every other
one. No call waits for a lock. -/
theorem written_events_verify (P : AuditPorts) (earlier : List WriteAuditEventCall)
    (call : WriteAuditEventCall) (later : List WriteAuditEventCall) :
    let store := runCalls P InMemoryAuditEventStore.empty earlier
    let execution := (lockedWrite P call).run store
    let final := runCalls P InMemoryAuditEventStore.empty (earlier ++ call :: later)
    execution.events = [] ∧
      match execution.result with
      | .error _ => execution.world = store
      | .ok event =>
          (event.signature = none →
            verifyAuditEvent P final ⟨event.eventId, event.tenantId, none⟩ = .ok event ∧
            verifyAuditEvent P final ⟨event.eventId, event.tenantId, some call.input.payload⟩ =
              .ok event) ∧
          (∀ tenantId originalPayload, tenantId ≠ event.tenantId →
            ∃ error, verifyAuditEvent P final ⟨event.eventId, tenantId, originalPayload⟩ =
              .error (.audit error)) ∧
          (event.tenantId = call.input.tenantId ∧ event.auditClass = call.input.auditClass) ∧
          ∀ tenantId auditClass, ¬ (tenantId = event.tenantId ∧ auditClass = event.auditClass) →
            execution.world.fetchAllEvents tenantId auditClass =
              store.fetchAllEvents tenantId auditClass := by
  intro store execution final
  have hnil : SoundLedger P [] := soundLedger_nil
  obtain ⟨ledger, hstore, hsound⟩ := runCalls_storeOf hnil earlier
  rw [storeOf_nil, List.nil_append] at hstore
  rw [List.nil_append] at hsound
  have hfinal : final = runCalls P execution.world later := by
    show runCalls P _ (earlier ++ call :: later) = _
    rw [runCalls, List.foldl_append]
    rfl
  have hexecution : execution = (lockedWrite P call).run (storeOf ledger) := by
    show (lockedWrite P call).run (runCalls P _ earlier) = _
    rw [hstore]
  rw [hfinal, hexecution, show store = storeOf ledger from hstore]
  rcases run_lockedWrite hsound call with ⟨fault, hrun⟩ | ⟨event, hrun, hwritten⟩
  · rw [hrun]
    exact ⟨rfl, rfl⟩
  · rw [hrun]
    have hsound' := hsound.concat hwritten
    have hcomposed := composeAuditEvent_composed hwritten.composed
    obtain ⟨written, hlater, hsoundFinal⟩ := runCalls_storeOf hsound' later
    have hmem : event ∈ ledger ++ [event] ++ written := by simp
    refine ⟨rfl, ?_, ?_, ⟨hcomposed.tenantId, hcomposed.auditClass⟩, ?_⟩
    · intro hsignature
      rw [hlater]
      refine ⟨verifyAuditEvent_accepts hsoundFinal hmem hsignature (by simp),
        verifyAuditEvent_accepts hsoundFinal hmem hsignature ?_⟩
      simpa using hcomposed.payload
    · intro tenantId originalPayload hother
      rw [hlater]
      exact verifyAuditEvent_rejects_other_tenant hsoundFinal hmem hother originalPayload
    · intro tenantId auditClass hother
      rw [fetchAllEvents_storeOf hsound', fetchAllEvents_storeOf hsound,
        chainOf_concat_other fun ⟨htenant, hclass⟩ => hother ⟨htenant.symm, hclass.symm⟩]

end Coivitas.Policy
