import Coivitas.Policy.AuditBarrier

/-! # Intents and results in pairs

Over every interleaving of calls, writes and timers, the barrier keeps at most
one intent and one result for each identifier and the intents of an agent in
order, as long as no write starts beside a timed-out one of its agent, no two
results of one intent are in flight, and callers leave the identifier alone.
-/

namespace Coivitas.Policy

open Foundation Coivitas.Types

/-! ## What the records say -/

theorem get?_spread {base extra : OrderedMap String Json} {name : String}
    (hextra : extra.get? name = none) : (spread base extra).get? name = base.get? name := by
  obtain ⟨entries, nodup⟩ := extra
  have hfold : ∀ (entries : List (String × Json)) (base : OrderedMap String Json),
      OrderedMap.lookupList name entries = none →
        (entries.foldl (fun summary member => summary.set member.1 member.2) base).get? name =
          base.get? name := by
    intro entries
    induction entries with
    | nil => exact fun base _ => rfl
    | cons member rest ih =>
        intro base hnone
        rw [OrderedMap.lookupList] at hnone
        split at hnone
        next => cases hnone
        next hne =>
          rw [List.foldl_cons, ih _ hnone, OrderedMap.get?_set, if_neg hne]
  exact hfold entries base hextra

theorem auditIntentId_intentInput (B : AuditBarrier) {record : AuditBarrierRecord}
    (hplain : record.parametersSummary.get? "auditIntentId" = none) (auditIntentId : String) :
    (intentInput B record auditIntentId).auditIntentId = some (.str auditIntentId) := by
  show (intentSummary record auditIntentId).get? "auditIntentId" = _
  rw [intentSummary, get?_spread hplain, OrderedMap.get?_set, if_pos rfl]

theorem auditIntentId_resultInput (B : AuditBarrier) (state : IntentState)
    (auditIntentId : String) (outcome : ResultStatus) :
    (resultInput B state auditIntentId outcome).auditIntentId = some (.str auditIntentId) := rfl

section Updates

variable {s : BarrierSystem} {i k : Nat} {call found : IntentCall} {stage : IntentStage}
  {result foundResult : ResultCall} {resultStage : ResultStage}

theorem setStage_intents :
    (s.setStage i call stage).intents k = some found ↔
      k = i ∧ found = { call with stage } ∨ k ≠ i ∧ s.intents k = some found :=
  update_eq_some

theorem setResultStage_results :
    (s.setResultStage i result resultStage).results k = some foundResult ↔
      k = i ∧ foundResult = { result with stage := resultStage } ∨
        k ≠ i ∧ s.results k = some foundResult :=
  update_eq_some

theorem setIntentState_eq {id auditIntentId : String} {state foundState : IntentState} :
    (s.setIntentState auditIntentId state).intentStates id = some foundState ↔
      id = auditIntentId ∧ foundState = state ∨
        id ≠ auditIntentId ∧ s.intentStates id = some foundState := by
  simp only [BarrierSystem.setIntentState, Function.update_apply]
  by_cases hid : id = auditIntentId
  · simp [hid, eq_comm]
  · simp [hid]

end Updates

/-! ## The queue of intents -/

/-- The call is over and no write of it goes on. -/
def IntentStage.Over (stage : IntentStage) : Prop :=
  stage.released = true ∧ stage.lingers = false

structure IntentsInv (s : BarrierSystem) : Prop where
  bound : ∀ i, s.intentCount ≤ i → s.intents i = none
  distinct : ∀ {i j call call'}, s.intents i = some call → s.intents j = some call' →
    call.auditIntentId = call'.auditIntentId → i = j
  plain : ∀ {i call}, s.intents i = some call →
    call.record.parametersSummary.get? "auditIntentId" = none
  queue : ∀ {i j call call'}, i < j → s.intents i = some call → s.intents j = some call' →
    call.record.agentDid = call'.record.agentDid → call'.stage ≠ .queued → call.stage.Over

theorem IntentsInv.start : IntentsInv BarrierSystem.start where
  bound _ _ := rfl
  distinct h := by cases h
  plain h := by cases h
  queue _ h := by cases h

theorem IntentsInv.lt {s : BarrierSystem} (hinv : IntentsInv s) {i : Nat} {call : IntentCall}
    (hcall : s.intents i = some call) : i < s.intentCount := by
  by_contra hge
  rw [hinv.bound i (by omega)] at hcall
  cases hcall

theorem IntentsInv.enter {s : BarrierSystem} (hinv : IntentsInv s) {record : AuditBarrierRecord}
    {uuid : String} (hplain : record.parametersSummary.get? "auditIntentId" = none)
    (hfresh : ∀ k < s.intentCount, ∀ call ∈ s.intents k, call.auditIntentId ≠ uuid) :
    IntentsInv { s with
      intents := Function.update s.intents s.intentCount (some ⟨record, uuid, .queued⟩)
      intentCount := s.intentCount + 1 } where
  bound i hi := by
    have hne : i ≠ s.intentCount := by
      simp only at hi
      omega
    simp only [Function.update_of_ne hne]
    exact hinv.bound i (by simp only at hi; omega)
  distinct {i j call call'} hcall hcall' hid := by
    obtain ⟨rfl, rfl⟩ | ⟨hi, hcall⟩ := update_eq_some.mp hcall
    · obtain ⟨rfl, -⟩ | ⟨-, hcall'⟩ := update_eq_some.mp hcall'
      · rfl
      · exact absurd hid.symm (hfresh j (hinv.lt hcall') call' hcall')
    · obtain ⟨rfl, rfl⟩ | ⟨-, hcall'⟩ := update_eq_some.mp hcall'
      · exact absurd hid (hfresh i (hinv.lt hcall) call hcall)
      · exact hinv.distinct hcall hcall' hid
  plain {i call} hcall := by
    obtain ⟨-, rfl⟩ | ⟨-, hcall⟩ := update_eq_some.mp hcall
    · exact hplain
    · exact hinv.plain hcall
  queue {i j call call'} hlt hcall hcall' hagent hstage := by
    obtain ⟨-, rfl⟩ | ⟨-, hcall'⟩ := update_eq_some.mp hcall'
    · exact absurd rfl hstage
    · obtain ⟨rfl, -⟩ | ⟨-, hcall⟩ := update_eq_some.mp hcall
      · exact absurd (hinv.lt hcall') (by omega)
      · exact hinv.queue hlt hcall hcall' hagent hstage

/-- A call goes on: out of the queue when the earlier ones are over, and never back from its
end. -/
theorem IntentsInv.setStage {s : BarrierSystem} (hinv : IntentsInv s) {i : Nat}
    {call : IntentCall} {stage : IntentStage} (hcall : s.intents i = some call)
    (hqueue : call.stage = .queued → ∀ k < i, ∀ earlier, s.intents k = some earlier →
      earlier.record.agentDid = call.record.agentDid → earlier.stage.Over)
    (hover : call.stage.Over → stage.Over) : IntentsInv (s.setStage i call stage) where
  bound k hk := by
    have hne : k ≠ i := by
      have := hinv.lt hcall
      simp only [BarrierSystem.setStage] at hk
      omega
    simp only [BarrierSystem.setStage, Function.update_of_ne hne]
    exact hinv.bound k hk
  distinct {k l found found'} hfound hfound' hid := by
    obtain ⟨rfl, rfl⟩ | ⟨-, hold⟩ := setStage_intents.mp hfound
    · obtain ⟨rfl, -⟩ | ⟨-, hold'⟩ := setStage_intents.mp hfound'
      · rfl
      · exact hinv.distinct hcall hold' hid
    · obtain ⟨rfl, rfl⟩ | ⟨-, hold'⟩ := setStage_intents.mp hfound'
      · exact hinv.distinct hold hcall hid
      · exact hinv.distinct hold hold' hid
  plain {k found} hfound := by
    obtain ⟨-, rfl⟩ | ⟨-, hold⟩ := setStage_intents.mp hfound
    · have hplain := hinv.plain hcall
      exact hplain
    · exact hinv.plain hold
  queue {k l found found'} hlt hfound hfound' hagent hstage := by
    obtain ⟨rfl, rfl⟩ | ⟨-, hold'⟩ := setStage_intents.mp hfound'
    · obtain ⟨rfl, -⟩ | ⟨-, hold⟩ := setStage_intents.mp hfound
      · omega
      · by_cases hqueued : call.stage = .queued
        · exact hqueue hqueued k hlt found hold hagent
        · exact hinv.queue hlt hold hcall hagent hqueued
    · obtain ⟨rfl, rfl⟩ | ⟨-, hold⟩ := setStage_intents.mp hfound
      · exact hover (hinv.queue hlt hcall hold' hagent hstage)
      · exact hinv.queue hlt hold hold' hagent hstage

/-! ## The records of intents -/

/-- The write of the call has been committed, or will not be. -/
def IntentStage.Settled : IntentStage → Prop
  | .written _ | .returned | .failed _ => True
  | _ => False

/-- The write of the call has been committed. -/
def IntentStage.Stored : IntentStage → Prop
  | .written _ | .returned => True
  | _ => False

structure IntentRecordsInv (B : AuditBarrier) (s : BarrierSystem) : Prop where
  source : ∀ record ∈ s.records, record.input.actionType = actionIntent →
    ∃ call, s.intents record.writer = some call ∧ call.stage.Settled ∧
      record.input = intentInput B call.record call.auditIntentId
  nodup : ((s.records.filter fun record => record.input.actionType = actionIntent).map
    WrittenRecord.writer).Nodup
  order : ∀ agentDid, ((s.records.filter fun record => record.input.actionType = actionIntent ∧
    record.input.agentDid = agentDid).map WrittenRecord.writer).Pairwise (· < ·)
  stored : ∀ {i call}, s.intents i = some call → call.stage.Stored →
    ∃ record ∈ s.records, record.input = intentInput B call.record call.auditIntentId

theorem IntentRecordsInv.start (B : AuditBarrier) : IntentRecordsInv B BarrierSystem.start where
  source := by simp [BarrierSystem.start]
  nodup := by simp [BarrierSystem.start]
  order := by simp [BarrierSystem.start]
  stored h := by cases h

section IntentRecords

variable {B : AuditBarrier} {s s' : BarrierSystem} {i : Nat} {call : IntentCall}
  {stage : IntentStage}

/-- The invariant looks at the calls and at the records of intents only. -/
theorem IntentRecordsInv.congr (hinv : IntentRecordsInv B s) (hintents : s'.intents = s.intents)
    (hrecords : s'.records = s.records) : IntentRecordsInv B s' := by
  obtain ⟨hsource, hnodup, horder, hstored⟩ := hinv
  exact ⟨by rwa [hintents, hrecords], by rwa [hrecords], by rwa [hrecords],
    by rwa [hintents, hrecords]⟩

theorem IntentRecordsInv.source_setStage (hinv : IntentRecordsInv B s)
    (hcall : s.intents i = some call) (hsettled : call.stage.Settled → stage.Settled)
    {record : WrittenRecord} (hrecord : record ∈ s.records)
    (htype : record.input.actionType = actionIntent) :
    ∃ found, (s.setStage i call stage).intents record.writer = some found ∧
      found.stage.Settled ∧ record.input = intentInput B found.record found.auditIntentId := by
  obtain ⟨found, hfound, hstage, hinput⟩ := hinv.source record hrecord htype
  by_cases hi : record.writer = i
  · rw [hi] at hfound
    obtain rfl := Option.some.inj (hcall.symm.trans hfound)
    exact ⟨_, setStage_intents.mpr (.inl ⟨hi, rfl⟩), hsettled hstage, hinput⟩
  · exact ⟨found, setStage_intents.mpr (.inr ⟨hi, hfound⟩), hstage, hinput⟩

theorem IntentRecordsInv.setStage (hinv : IntentRecordsInv B s) (hcall : s.intents i = some call)
    (hsettled : call.stage.Settled → stage.Settled) (hstored : stage.Stored → call.stage.Stored) :
    IntentRecordsInv B (s.setStage i call stage) where
  source _ hrecord htype := hinv.source_setStage hcall hsettled hrecord htype
  nodup := hinv.nodup
  order := hinv.order
  stored {k found} hfound hstage := by
    obtain ⟨-, rfl⟩ | ⟨-, hold⟩ := setStage_intents.mp hfound
    · have hrecord := hinv.stored hcall (hstored hstage)
      exact hrecord
    · exact hinv.stored hold hstage

/-- An intent is committed behind the intents of the earlier calls of its agent. -/
theorem IntentRecordsInv.commit (hinv : IntentRecordsInv B s) (hintents : IntentsInv s)
    (hcall : s.intents i = some call) (hopen : ¬ call.stage.Settled) (hnotOver : ¬ call.stage.Over)
    (hsettled : stage.Settled) (recordId : String) :
    IntentRecordsInv B ((s.setStage i call stage).addRecord
      ⟨recordId, intentInput B call.record call.auditIntentId, i⟩) := by
  have hbefore : ∀ record ∈ s.records, record.input.actionType = actionIntent →
      record.writer ≠ i ∧
        (record.input.agentDid = call.record.agentDid → record.writer < i) := by
    intro record hrecord htype
    obtain ⟨found, hfound, hstage, hinput⟩ := hinv.source record hrecord htype
    have hne : record.writer ≠ i := by
      intro hi
      rw [hi] at hfound
      obtain rfl := Option.some.inj (hcall.symm.trans hfound)
      exact hopen hstage
    refine ⟨hne, fun hagent => ?_⟩
    by_contra hlater
    have hstarted : found.stage ≠ .queued := by
      intro hqueued
      rw [hqueued] at hstage
      exact hstage
    rw [hinput] at hagent
    exact hnotOver (hintents.queue (by omega) hcall hfound hagent.symm hstarted)
  have htype : (intentInput B call.record call.auditIntentId).actionType = actionIntent := rfl
  refine ⟨?_, ?_, ?_, ?_⟩
  · intro record hrecord hintent
    rcases List.mem_append.mp hrecord with hold | hnew
    · exact hinv.source_setStage hcall (fun _ => hsettled) hold hintent
    · obtain rfl := List.mem_singleton.mp hnew
      exact ⟨_, setStage_intents.mpr (.inl ⟨rfl, rfl⟩), hsettled, rfl⟩
  · simp only [BarrierSystem.addRecord, BarrierSystem.setStage, List.filter_append,
      List.map_append]
    rw [List.filter_cons_of_pos (by simp [htype]), List.filter_nil, List.map_singleton]
    refine List.nodup_append.mpr ⟨hinv.nodup, List.nodup_singleton _, ?_⟩
    intro writer hwriter new hnew
    obtain ⟨record, hrecord, rfl⟩ := List.mem_map.mp hwriter
    obtain ⟨hmem, hintent⟩ := List.mem_filter.mp hrecord
    rw [List.mem_singleton.mp hnew]
    exact (hbefore record hmem (of_decide_eq_true hintent)).1
  · intro agentDid
    simp only [BarrierSystem.addRecord, BarrierSystem.setStage, List.filter_append,
      List.map_append]
    refine List.pairwise_append.mpr ⟨hinv.order agentDid, ?_, ?_⟩
    · exact (List.pairwise_singleton _ i).sublist (List.filter_sublist.map WrittenRecord.writer)
    · intro writer hwriter new hnew
      obtain ⟨record, hrecord, rfl⟩ := List.mem_map.mp hwriter
      obtain ⟨hmem, hintent⟩ := List.mem_filter.mp hrecord
      obtain ⟨added, hadded, rfl⟩ := List.mem_map.mp hnew
      obtain ⟨hsingle, hagent⟩ := List.mem_filter.mp hadded
      obtain rfl := List.mem_singleton.mp hsingle
      have hintent := of_decide_eq_true hintent
      have hagent := of_decide_eq_true hagent
      exact (hbefore record hmem hintent.1).2 (hintent.2.trans hagent.2.symm)
  · intro k found hfound hstage
    obtain ⟨-, rfl⟩ | ⟨-, hold⟩ := setStage_intents.mp hfound
    · exact ⟨_, List.mem_append_right _ (List.mem_singleton_self _), rfl⟩
    · obtain ⟨record, hrecord, hinput⟩ := hinv.stored hold hstage
      exact ⟨record, List.mem_append_left _ hrecord, hinput⟩

/-- A record of a result is none of an intent. -/
theorem IntentRecordsInv.addResult (hinv : IntentRecordsInv B s) {record : WrittenRecord}
    (htype : record.input.actionType = actionResult) :
    IntentRecordsInv B (s.addRecord record) := by
  have hother : record.input.actionType ≠ actionIntent := by
    rw [htype]
    decide
  refine ⟨?_, ?_, ?_, ?_⟩
  · intro found hfound hintent
    rcases List.mem_append.mp hfound with hold | hnew
    · exact hinv.source found hold hintent
    · obtain rfl := List.mem_singleton.mp hnew
      exact absurd hintent hother
  · simpa [BarrierSystem.addRecord, List.filter_append, hother] using hinv.nodup
  · intro agentDid
    simpa [BarrierSystem.addRecord, List.filter_append, hother] using hinv.order agentDid
  · intro k found hfound hstage
    obtain ⟨stored, hstored, hinput⟩ := hinv.stored hfound hstage
    exact ⟨stored, List.mem_append_left _ hstored, hinput⟩

end IntentRecords

/-! ## The records of results -/

/-- The result has been committed. -/
def ResultStage.Stored (stage : ResultStage) : Prop := stage = .written ∨ stage = .returned

/-- The call has not failed. -/
def ResultStage.Live (stage : ResultStage) : Prop := stage = .writing ∨ stage.Stored

structure ResultsInv (B : AuditBarrier) (s : BarrierSystem) : Prop where
  bound : ∀ j, s.resultCount ≤ j → s.results j = none
  source : ∀ record ∈ s.records, record.input.actionType = actionResult →
    ∃ call, s.results record.writer = some call ∧ call.stage.Stored ∧
      record.input = resultInput B call.state call.auditIntentId call.outcome
  nodup : ((s.records.filter fun record => record.input.actionType = actionResult).map
    WrittenRecord.writer).Nodup
  single : ∀ {j k call call'}, s.results j = some call → s.results k = some call' →
    call.auditIntentId = call'.auditIntentId → call.stage.Live → call'.stage.Live → j = k
  registered : ∀ {id state}, s.intentStates id = some state →
    ∃ i call, s.intents i = some call ∧ call.auditIntentId = id ∧ call.stage = .returned
  known : ∀ {j call}, s.results j = some call → ∃ i intent, s.intents i = some intent ∧
    intent.auditIntentId = call.auditIntentId ∧ intent.stage = .returned
  closed : ∀ {j call}, s.results j = some call → call.stage = .returned →
    ∃ state, s.intentStates call.auditIntentId = some state ∧ state.lifecycle = .resultWritten
  opened : ∀ {id state}, s.intentStates id = some state → state.lifecycle = .resultWritten →
    ∃ j call, s.results j = some call ∧ call.auditIntentId = id ∧ call.stage = .returned
  paired : ∀ {j call}, s.results j = some call → call.stage.Stored →
    ∃ intent result, [intent, result].Sublist s.records ∧
      intent.IsIntent call.auditIntentId ∧ result.IsResult call.auditIntentId

theorem ResultsInv.start (B : AuditBarrier) : ResultsInv B BarrierSystem.start where
  bound _ _ := rfl
  source := by simp [BarrierSystem.start]
  nodup := by simp [BarrierSystem.start]
  single h := by cases h
  registered h := by cases h
  known h := by cases h
  closed h := by cases h
  opened h := by cases h
  paired h := by cases h

section Results

variable {B : AuditBarrier} {s s' : BarrierSystem} {i j : Nat} {call : ResultCall}
  {stage : ResultStage}

/-- What happens to the intents leaves the results alone, as long as calls that have returned
stay as they are. -/
theorem ResultsInv.frame (hinv : ResultsInv B s) (hresults : s'.results = s.results)
    (hcount : s'.resultCount = s.resultCount) (hstates : s'.intentStates = s.intentStates)
    {added : List WrittenRecord} (hrecords : s'.records = s.records ++ added)
    (hadded : ∀ record ∈ added, record.input.actionType ≠ actionResult)
    (hreturned : ∀ i call, s.intents i = some call → call.stage = .returned →
      s'.intents i = some call) : ResultsInv B s' where
  bound k hk := by
    rw [hresults]
    exact hinv.bound k (by omega)
  source record hrecord htype := by
    rw [hrecords] at hrecord
    rcases List.mem_append.mp hrecord with hold | hnew
    · rw [hresults]
      exact hinv.source record hold htype
    · exact absurd htype (hadded record hnew)
  nodup := by
    have hnone : added.filter (fun record => record.input.actionType = actionResult) = [] :=
      List.filter_eq_nil_iff.mpr fun record hrecord => by simpa using hadded record hrecord
    rw [hrecords, List.filter_append, hnone, List.append_nil]
    exact hinv.nodup
  single h h' := by
    rw [hresults] at h h'
    exact hinv.single h h'
  registered h := by
    rw [hstates] at h
    obtain ⟨i, call, hcall, hid, hstage⟩ := hinv.registered h
    exact ⟨i, call, hreturned i call hcall hstage, hid, hstage⟩
  known h := by
    rw [hresults] at h
    obtain ⟨i, intent, hintent, hid, hstage⟩ := hinv.known h
    exact ⟨i, intent, hreturned i intent hintent hstage, hid, hstage⟩
  closed h := by
    rw [hresults] at h
    rw [hstates]
    exact hinv.closed h
  opened h := by
    rw [hstates] at h
    rw [hresults]
    exact hinv.opened h
  paired h hstored := by
    rw [hresults] at h
    obtain ⟨intent, result, hsublist, hpair⟩ := hinv.paired h hstored
    rw [hrecords]
    exact ⟨intent, result, hsublist.trans (List.sublist_append_left _ _), hpair⟩

/-- A returned intent registers its state. -/
theorem ResultsInv.register (hinv : ResultsInv B s) (hintents : IntentsInv s)
    {intent : IntentCall} (hintent : s.intents i = some intent)
    (hstage : intent.stage ≠ .returned) (recordId : String) :
    ResultsInv B ((s.setStage i intent .returned).setIntentState intent.auditIntentId
      (registeredState intent recordId)) := by
  have hkept : ∀ k found, s.intents k = some found → found.stage = .returned →
      (s.setStage i intent .returned).intents k = some found := by
    intro k found hfound hreturned
    refine setStage_intents.mpr (.inr ⟨?_, hfound⟩)
    rintro rfl
    obtain rfl := Option.some.inj (hintent.symm.trans hfound)
    exact hstage hreturned
  -- No result belongs to an intent that has not returned.
  have hnone : ∀ {j call}, s.results j = some call →
      call.auditIntentId ≠ intent.auditIntentId := by
    intro j call hcall hid
    obtain ⟨k, found, hfound, hfoundId, hreturned⟩ := hinv.known hcall
    obtain rfl := hintents.distinct hfound hintent (hfoundId.trans hid)
    obtain rfl := Option.some.inj (hintent.symm.trans hfound)
    exact hstage hreturned
  refine ⟨hinv.bound, hinv.source, hinv.nodup, hinv.single, ?_, ?_, ?_, ?_, hinv.paired⟩
  · intro id state hstate
    obtain ⟨rfl, -⟩ | ⟨-, hold⟩ := setIntentState_eq.mp hstate
    · exact ⟨i, _, setStage_intents.mpr (.inl ⟨rfl, rfl⟩), rfl, rfl⟩
    · obtain ⟨k, found, hfound, hid, hreturned⟩ := hinv.registered hold
      exact ⟨k, found, hkept k found hfound hreturned, hid, hreturned⟩
  · intro j call hcall
    obtain ⟨k, found, hfound, hid, hreturned⟩ := hinv.known hcall
    exact ⟨k, found, hkept k found hfound hreturned, hid, hreturned⟩
  · intro j call hcall hreturned
    obtain ⟨state, hstate, hwritten⟩ := hinv.closed hcall hreturned
    exact ⟨state, setIntentState_eq.mpr (.inr ⟨hnone hcall, hstate⟩), hwritten⟩
  · intro id state hstate hwritten
    obtain ⟨-, rfl⟩ | ⟨-, hold⟩ := setIntentState_eq.mp hstate
    · cases hwritten
    · exact hinv.opened hold hwritten

theorem ResultsInv.lt (hinv : ResultsInv B s) (hcall : s.results j = some call) :
    j < s.resultCount := by
  by_contra hge
  rw [hinv.bound j (by omega)] at hcall
  cases hcall

/-- A result is begun for an intent none of whose results is alive. -/
theorem ResultsInv.admit (hinv : ResultsInv B s) {auditIntentId : String}
    {outcome : ResultStatus} {state : IntentState}
    (hstate : s.intentStates auditIntentId = some state) (hopen : state.lifecycle ≠ .resultWritten)
    (hidle : ∀ j < s.resultCount, ∀ call ∈ s.results j, call.auditIntentId = auditIntentId →
      call.stage ≠ .writing ∧ call.stage ≠ .written) :
    ResultsInv B { s with
      results := Function.update s.results s.resultCount
        (some ⟨auditIntentId, outcome, state, .writing⟩)
      resultCount := s.resultCount + 1 } := by
  have hdead : ∀ {j call}, s.results j = some call → call.auditIntentId = auditIntentId →
      ¬ call.stage.Live := by
    rintro j call hcall hid (hwriting | hwritten | hreturned)
    · exact (hidle j (hinv.lt hcall) call hcall hid).1 hwriting
    · exact (hidle j (hinv.lt hcall) call hcall hid).2 hwritten
    · obtain ⟨found, hfound, hclosed⟩ := hinv.closed hcall hreturned
      rw [hid, hstate] at hfound
      obtain rfl := Option.some.inj hfound
      exact hopen hclosed
  have hold : ∀ {j call}, s.results j = some call → j ≠ s.resultCount :=
    fun hcall => (hinv.lt hcall).ne
  refine ⟨?_, ?_, hinv.nodup, ?_, hinv.registered, ?_, ?_, ?_, ?_⟩
  · intro j hj
    simp only at hj
    simp only [Function.update_of_ne (show j ≠ s.resultCount by omega)]
    exact hinv.bound j (by omega)
  · intro record hrecord htype
    obtain ⟨call, hcall, hstored⟩ := hinv.source record hrecord htype
    exact ⟨call, update_eq_some.mpr (.inr ⟨hold hcall, hcall⟩), hstored⟩
  · intro j k call call' hcall hcall' hid hlive hlive'
    obtain ⟨rfl, rfl⟩ | ⟨-, hcall⟩ := update_eq_some.mp hcall
    · obtain ⟨rfl, -⟩ | ⟨-, hcall'⟩ := update_eq_some.mp hcall'
      · rfl
      · exact absurd hlive' (hdead hcall' hid.symm)
    · obtain ⟨-, rfl⟩ | ⟨-, hcall'⟩ := update_eq_some.mp hcall'
      · exact absurd hlive (hdead hcall hid)
      · exact hinv.single hcall hcall' hid hlive hlive'
  · intro j call hcall
    obtain ⟨-, rfl⟩ | ⟨-, hcall⟩ := update_eq_some.mp hcall
    · exact hinv.registered hstate
    · exact hinv.known hcall
  · intro j call hcall hreturned
    obtain ⟨-, rfl⟩ | ⟨-, hcall⟩ := update_eq_some.mp hcall
    · cases hreturned
    · exact hinv.closed hcall hreturned
  · intro id found hfound hwritten
    obtain ⟨j, call, hcall, hid, hreturned⟩ := hinv.opened hfound hwritten
    exact ⟨j, call, update_eq_some.mpr (.inr ⟨hold hcall, hcall⟩), hid, hreturned⟩
  · intro j call hcall hstored
    obtain ⟨-, rfl⟩ | ⟨-, hcall⟩ := update_eq_some.mp hcall
    · rcases hstored with hstored | hstored <;> cases hstored
    · exact hinv.paired hcall hstored

theorem ResultsInv.bound_setResultStage (hinv : ResultsInv B s) (hcall : s.results j = some call) :
    ∀ k, s.resultCount ≤ k → (s.setResultStage j call stage).results k = none := by
  intro k hk
  have hne : k ≠ j := by
    have := hinv.lt hcall
    omega
  simp only [BarrierSystem.setResultStage, Function.update_of_ne hne]
  exact hinv.bound k hk

theorem ResultsInv.single_setResultStage (hinv : ResultsInv B s) (hcall : s.results j = some call)
    (hlive : stage.Live → call.stage.Live) {k l : Nat} {found found' : ResultCall}
    (hfound : (s.setResultStage j call stage).results k = some found)
    (hfound' : (s.setResultStage j call stage).results l = some found')
    (hid : found.auditIntentId = found'.auditIntentId) (hfoundLive : found.stage.Live)
    (hfoundLive' : found'.stage.Live) : k = l := by
  obtain ⟨rfl, rfl⟩ | ⟨-, hold⟩ := setResultStage_results.mp hfound
  · obtain ⟨rfl, -⟩ | ⟨-, hold'⟩ := setResultStage_results.mp hfound'
    · rfl
    · exact hinv.single hcall hold' hid (hlive hfoundLive) hfoundLive'
  · obtain ⟨rfl, rfl⟩ | ⟨-, hold'⟩ := setResultStage_results.mp hfound'
    · exact hinv.single hold hcall hid hfoundLive (hlive hfoundLive')
    · exact hinv.single hold hold' hid hfoundLive hfoundLive'

theorem ResultsInv.known_setResultStage (hinv : ResultsInv B s) (hcall : s.results j = some call)
    {k : Nat} {found : ResultCall}
    (hfound : (s.setResultStage j call stage).results k = some found) :
    ∃ i intent, s.intents i = some intent ∧ intent.auditIntentId = found.auditIntentId ∧
      intent.stage = .returned := by
  obtain ⟨-, rfl⟩ | ⟨-, hold⟩ := setResultStage_results.mp hfound
  · have hknown := hinv.known hcall
    exact hknown
  · exact hinv.known hold

theorem ResultsInv.source_setResultStage (hinv : ResultsInv B s)
    (hcall : s.results j = some call) (hstored : call.stage.Stored → stage.Stored)
    {record : WrittenRecord} (hrecord : record ∈ s.records)
    (htype : record.input.actionType = actionResult) :
    ∃ found, (s.setResultStage j call stage).results record.writer = some found ∧
      found.stage.Stored ∧
      record.input = resultInput B found.state found.auditIntentId found.outcome := by
  obtain ⟨found, hfound, hstage, hinput⟩ := hinv.source record hrecord htype
  by_cases hj : record.writer = j
  · rw [hj] at hfound
    obtain rfl := Option.some.inj (hcall.symm.trans hfound)
    exact ⟨_, setResultStage_results.mpr (.inl ⟨hj, rfl⟩), hstored hstage, hinput⟩
  · exact ⟨found, setResultStage_results.mpr (.inr ⟨hj, hfound⟩), hstage, hinput⟩

/-- The call of a returned result is another one. -/
theorem ResultsInv.opened_setResultStage (hinv : ResultsInv B s) (hcall : s.results j = some call)
    (hnot : call.stage ≠ .returned) {id : String} {state : IntentState}
    (hstate : s.intentStates id = some state) (hwritten : state.lifecycle = .resultWritten) :
    ∃ k found, (s.setResultStage j call stage).results k = some found ∧
      found.auditIntentId = id ∧ found.stage = .returned := by
  obtain ⟨k, found, hfound, hid, hreturned⟩ := hinv.opened hstate hwritten
  refine ⟨k, found, setResultStage_results.mpr (.inr ⟨?_, hfound⟩), hid, hreturned⟩
  rintro rfl
  obtain rfl := Option.some.inj (hcall.symm.trans hfound)
  exact hnot hreturned

theorem ResultsInv.fail (hinv : ResultsInv B s) (hcall : s.results j = some call)
    (hwriting : call.stage = .writing) (error : ProtocolError) :
    ResultsInv B (s.setResultStage j call (.failed error)) := by
  have hnotStored : ¬ call.stage.Stored := by
    rw [hwriting]
    rintro (h | h) <;> cases h
  refine ⟨hinv.bound_setResultStage hcall, ?_, hinv.nodup, ?_, hinv.registered, ?_, ?_, ?_, ?_⟩
  · intro record hrecord htype
    exact hinv.source_setResultStage hcall (fun h => absurd h hnotStored) hrecord htype
  · intro k l found found' hfound hfound'
    exact hinv.single_setResultStage hcall (fun _ => .inl hwriting) hfound hfound'
  · intro k found hfound
    exact hinv.known_setResultStage hcall hfound
  · intro k found hfound hreturned
    obtain ⟨-, rfl⟩ | ⟨-, hold⟩ := setResultStage_results.mp hfound
    · cases hreturned
    · exact hinv.closed hold hreturned
  · intro id state hstate hwritten
    exact hinv.opened_setResultStage hcall (by simp [hwriting]) hstate hwritten
  · intro k found hfound hstored
    obtain ⟨-, rfl⟩ | ⟨-, hold⟩ := setResultStage_results.mp hfound
    · rcases hstored with h | h <;> cases h
    · exact hinv.paired hold hstored

/-- A result is committed behind the intent it belongs to. -/
theorem ResultsInv.commit (hinv : ResultsInv B s) (hintents : IntentsInv s)
    (hrecords : IntentRecordsInv B s) (hcall : s.results j = some call)
    (hwriting : call.stage = .writing) (recordId : String) :
    ResultsInv B ((s.setResultStage j call .written).addRecord
      ⟨recordId, resultInput B call.state call.auditIntentId call.outcome, j⟩) := by
  have hnotStored : ¬ call.stage.Stored := by
    rw [hwriting]
    rintro (h | h) <;> cases h
  have htype : (resultInput B call.state call.auditIntentId call.outcome).actionType =
      actionResult := rfl
  refine ⟨hinv.bound_setResultStage hcall, ?_, ?_, ?_, hinv.registered, ?_, ?_, ?_, ?_⟩
  · intro record hrecord hresult
    rcases List.mem_append.mp hrecord with hold | hnew
    · exact hinv.source_setResultStage hcall (fun h => absurd h hnotStored) hold hresult
    · obtain rfl := List.mem_singleton.mp hnew
      exact ⟨_, setResultStage_results.mpr (.inl ⟨rfl, rfl⟩), .inl rfl, rfl⟩
  · simp only [BarrierSystem.addRecord, BarrierSystem.setResultStage, List.filter_append,
      List.map_append]
    rw [List.filter_cons_of_pos (by simp [htype]), List.filter_nil, List.map_singleton]
    refine List.nodup_append.mpr ⟨hinv.nodup, List.nodup_singleton _, ?_⟩
    intro writer hwriter new hnew
    obtain ⟨record, hrecord, rfl⟩ := List.mem_map.mp hwriter
    obtain ⟨hmem, hresult⟩ := List.mem_filter.mp hrecord
    rw [List.mem_singleton.mp hnew]
    rintro rfl
    obtain ⟨found, hfound, hstored, -⟩ := hinv.source record hmem (of_decide_eq_true hresult)
    obtain rfl := Option.some.inj (hcall.symm.trans hfound)
    exact hnotStored hstored
  · intro k l found found' hfound hfound'
    exact hinv.single_setResultStage hcall (fun _ => .inl hwriting) hfound hfound'
  · intro k found hfound
    exact hinv.known_setResultStage hcall hfound
  · intro k found hfound hreturned
    obtain ⟨-, rfl⟩ | ⟨-, hold⟩ := setResultStage_results.mp hfound
    · cases hreturned
    · exact hinv.closed hold hreturned
  · intro id state hstate hwritten
    exact hinv.opened_setResultStage hcall (by simp [hwriting]) hstate hwritten
  · intro k found hfound hstored
    obtain ⟨-, rfl⟩ | ⟨-, hold⟩ := setResultStage_results.mp hfound
    · obtain ⟨i, intent, hintent, hid, hreturned⟩ := hinv.known hcall
      obtain ⟨record, hrecord, hinput⟩ := hrecords.stored hintent (by simp [hreturned,
        IntentStage.Stored])
      refine ⟨record, _, (List.singleton_sublist.mpr hrecord).append (List.Sublist.refl _), ?_, ?_⟩
      · rw [WrittenRecord.IsIntent, hinput, auditIntentId_intentInput B (hintents.plain hintent),
          hid]
        exact ⟨rfl, rfl⟩
      · exact ⟨rfl, auditIntentId_resultInput B _ _ _⟩
    · obtain ⟨intent, result, hsublist, hpair⟩ := hinv.paired hold hstored
      exact ⟨intent, result, hsublist.trans (List.sublist_append_left _ _), hpair⟩

/-- A result that is answered closes its intent. -/
theorem ResultsInv.close (hinv : ResultsInv B s) (hcall : s.results j = some call)
    (hwritten : call.stage = .written) :
    ResultsInv B ((s.setResultStage j call .returned).setIntentState call.auditIntentId
      { call.state with lifecycle := .resultWritten }) := by
  refine ⟨hinv.bound_setResultStage hcall, ?_, hinv.nodup, ?_, ?_, ?_, ?_, ?_, ?_⟩
  · intro record hrecord htype
    exact hinv.source_setResultStage hcall (fun _ => .inr rfl) hrecord htype
  · intro k l found found' hfound hfound'
    exact hinv.single_setResultStage hcall (fun _ => .inr (.inl hwritten)) hfound hfound'
  · intro id state hstate
    obtain ⟨rfl, -⟩ | ⟨-, hold⟩ := setIntentState_eq.mp hstate
    · exact hinv.known hcall
    · exact hinv.registered hold
  · intro k found hfound
    exact hinv.known_setResultStage hcall hfound
  · intro k found hfound hreturned
    by_cases hid : found.auditIntentId = call.auditIntentId
    · exact ⟨_, setIntentState_eq.mpr (.inl ⟨hid, rfl⟩), rfl⟩
    · obtain ⟨-, rfl⟩ | ⟨-, hold⟩ := setResultStage_results.mp hfound
      · exact absurd rfl hid
      · obtain ⟨state, hstate, hclosed⟩ := hinv.closed hold hreturned
        exact ⟨state, setIntentState_eq.mpr (.inr ⟨hid, hstate⟩), hclosed⟩
  · intro id state hstate hlifecycle
    obtain ⟨rfl, -⟩ | ⟨-, hold⟩ := setIntentState_eq.mp hstate
    · exact ⟨j, _, setResultStage_results.mpr (.inl ⟨rfl, rfl⟩), rfl, rfl⟩
    · exact hinv.opened_setResultStage hcall (by simp [hwritten]) hold hlifecycle
  · intro k found hfound hstored
    obtain ⟨-, rfl⟩ | ⟨-, hold⟩ := setResultStage_results.mp hfound
    · have hpaired := hinv.paired hcall (.inl hwritten)
      exact hpaired
    · exact hinv.paired hold hstored

end Results

/-! ## Runs -/

structure BarrierInv (B : AuditBarrier) (s : BarrierSystem) : Prop where
  intents : IntentsInv s
  intentRecords : IntentRecordsInv B s
  results : ResultsInv B s

theorem BarrierInv.start (B : AuditBarrier) : BarrierInv B BarrierSystem.start :=
  ⟨.start, .start B, .start B⟩

section Runs

variable {B : AuditBarrier} {s s' : BarrierSystem} {i : Nat} {call : IntentCall}
  {stage : IntentStage}

/-- A call that has not returned goes on without a commit. -/
theorem BarrierInv.setStage (hinv : BarrierInv B s) (hcall : s.intents i = some call)
    (hqueue : call.stage = .queued → ∀ k < i, ∀ earlier, s.intents k = some earlier →
      earlier.record.agentDid = call.record.agentDid → earlier.stage.Over)
    (hnotOver : ¬ call.stage.Over) (hsettled : call.stage.Settled → stage.Settled)
    (hstored : stage.Stored → call.stage.Stored) : BarrierInv B (s.setStage i call stage) := by
  refine ⟨hinv.intents.setStage hcall hqueue fun hover => absurd hover hnotOver,
    hinv.intentRecords.setStage hcall hsettled hstored,
    hinv.results.frame rfl rfl rfl (List.append_nil _).symm (by simp) ?_⟩
  intro k found hfound hreturned
  refine setStage_intents.mpr (.inr ⟨?_, hfound⟩)
  rintro rfl
  obtain rfl := Option.some.inj (hcall.symm.trans hfound)
  exact hnotOver (by simp [hreturned, IntentStage.Over, IntentStage.released,
    IntentStage.lingers])

/-- The write of a call is committed. -/
theorem BarrierInv.commitIntent (hinv : BarrierInv B s) (hcall : s.intents i = some call)
    (hstarted : call.stage ≠ .queued) (hopen : ¬ call.stage.Settled) (hnotOver : ¬ call.stage.Over)
    (hsettled : stage.Settled) (recordId : String) :
    BarrierInv B ((s.setStage i call stage).addRecord
      ⟨recordId, intentInput B call.record call.auditIntentId, i⟩) := by
  have hintents : IntentsInv (s.setStage i call stage) := hinv.intents.setStage hcall
    (fun hqueued => absurd hqueued hstarted) fun hover => absurd hover hnotOver
  refine ⟨⟨hintents.bound, hintents.distinct, hintents.plain, hintents.queue⟩,
    hinv.intentRecords.commit hinv.intents hcall hopen hnotOver hsettled recordId, ?_⟩
  refine hinv.results.frame rfl rfl rfl rfl ?_ ?_
  · intro record hrecord
    rw [List.mem_singleton.mp hrecord]
    exact (by decide : actionIntent ≠ actionResult)
  · intro k found hfound hreturned
    refine setStage_intents.mpr (.inr ⟨?_, hfound⟩)
    rintro rfl
    obtain rfl := Option.some.inj (hcall.symm.trans hfound)
    exact hopen (by simp [hreturned, IntentStage.Settled])

/-- Every orderly step keeps the invariant. -/
theorem BarrierInv.step {event : BarrierEvent} (hinv : BarrierInv B s) (horderly : Orderly s event)
    (hstep : s.step B event = some s') : BarrierInv B s' := by
  cases event with
  | beforeExecute record randomUUID =>
      simp only [BarrierSystem.step, Option.ite_none_right_eq_some, Option.some.injEq] at hstep
      obtain ⟨hfresh, rfl⟩ := hstep
      have hold : ∀ k found, s.intents k = some found → k ≠ s.intentCount :=
        fun k found hfound => (hinv.intents.lt hfound).ne
      refine ⟨hinv.intents.enter horderly hfresh, ?_,
        hinv.results.frame rfl rfl rfl (List.append_nil _).symm (by simp) ?_⟩
      · refine ⟨?_, hinv.intentRecords.nodup, hinv.intentRecords.order, ?_⟩
        · intro found hfound htype
          obtain ⟨call, hcall, hsource⟩ := hinv.intentRecords.source found hfound htype
          exact ⟨call, update_eq_some.mpr (.inr ⟨hold _ _ hcall, hcall⟩), hsource⟩
        · intro k found hfound hstored
          obtain ⟨-, rfl⟩ | ⟨-, hfound⟩ := update_eq_some.mp hfound
          · exact absurd hstored id
          · exact hinv.intentRecords.stored hfound hstored
      · exact fun k found hfound _ => update_eq_some.mpr (.inr ⟨hold k found hfound, hfound⟩)
  | start i =>
      simp only [BarrierSystem.step] at hstep
      split at hstep
      next call hcall =>
        simp only [Option.ite_none_right_eq_some, Option.some.injEq] at hstep
        obtain ⟨⟨hqueued, hreleased⟩, rfl⟩ := hstep
        refine hinv.setStage hcall ?_ ?_ ?_ ?_
        · intro _ k hk earlier hearlier hagent
          exact ⟨hreleased k hk earlier hearlier hagent,
            horderly call hcall k hk earlier hearlier hagent⟩
        · simp [hqueued, IntentStage.Over, IntentStage.released]
        · simp [hqueued, IntentStage.Settled]
        · exact fun hstored => absurd hstored id
      next => cases hstep
  | commitIntent i recordId =>
      simp only [BarrierSystem.step] at hstep
      split at hstep
      next call hcall =>
        split at hstep
        next hwriting =>
          obtain rfl := Option.some.inj hstep
          refine hinv.commitIntent hcall ?_ ?_ ?_ ?_ recordId
          · simp [hwriting]
          · simp [hwriting, IntentStage.Settled]
          · simp [hwriting, IntentStage.Over, IntentStage.released]
          · trivial
        next error htimedOut =>
          obtain rfl := Option.some.inj hstep
          refine hinv.commitIntent hcall ?_ ?_ ?_ ?_ recordId
          · simp [htimedOut]
          · simp [htimedOut, IntentStage.Settled]
          · simp [htimedOut, IntentStage.Over, IntentStage.lingers]
          · trivial
        next => cases hstep
      next => cases hstep
  | answerIntent i =>
      simp only [BarrierSystem.step] at hstep
      split at hstep
      next call hcall =>
        split at hstep
        next recordId hwritten =>
          obtain rfl := Option.some.inj hstep
          have hnext : BarrierInv B (s.setStage i call .returned) :=
            hinv.setStage hcall (by simp [hwritten])
              (by simp [hwritten, IntentStage.Over, IntentStage.released]) (fun _ => trivial)
              (fun _ => by simp [hwritten, IntentStage.Stored])
          exact ⟨⟨hnext.intents.bound, hnext.intents.distinct, hnext.intents.plain,
            hnext.intents.queue⟩, hnext.intentRecords.congr rfl rfl,
            hinv.results.register hinv.intents hcall (by simp [hwritten]) recordId⟩
        next => cases hstep
      next => cases hstep
  | failIntent i detail =>
      simp only [BarrierSystem.step] at hstep
      split at hstep
      next call hcall =>
        split at hstep
        next hwriting =>
          obtain rfl := Option.some.inj hstep
          exact hinv.setStage hcall (by simp [hwriting])
            (by simp [hwriting, IntentStage.Over, IntentStage.released]) (fun _ => trivial)
            (fun hstored => absurd hstored id)
        next error htimedOut =>
          obtain rfl := Option.some.inj hstep
          exact hinv.setStage hcall (by simp [htimedOut])
            (by simp [htimedOut, IntentStage.Over, IntentStage.lingers]) (fun _ => trivial)
            (fun hstored => absurd hstored id)
        next => cases hstep
      next => cases hstep
  | timeout i =>
      simp only [BarrierSystem.step] at hstep
      split at hstep
      next call hcall =>
        split at hstep
        next hwriting =>
          obtain rfl := Option.some.inj hstep
          exact hinv.setStage hcall (by simp [hwriting])
            (by simp [hwriting, IntentStage.Over, IntentStage.released])
            (by simp [hwriting, IntentStage.Settled]) (fun hstored => absurd hstored id)
        next recordId hwritten =>
          obtain rfl := Option.some.inj hstep
          exact hinv.setStage hcall (by simp [hwritten])
            (by simp [hwritten, IntentStage.Over, IntentStage.released]) (fun _ => trivial)
            (fun hstored => absurd hstored id)
        next => cases hstep
      next => cases hstep
  | afterExecute auditIntentId outcome =>
      simp only [BarrierSystem.step] at hstep
      split at hstep
      next state hadmit =>
        obtain rfl := Option.some.inj hstep
        unfold admitResult at hadmit
        split at hadmit
        next => cases hadmit
        next found hfound =>
          simp only [Except.ok.injEq, Option.ite_none_left_eq_some, Option.some.injEq] at hadmit
          obtain ⟨hopen, rfl⟩ := hadmit
          exact ⟨⟨hinv.intents.bound, hinv.intents.distinct, hinv.intents.plain,
            hinv.intents.queue⟩, hinv.intentRecords.congr rfl rfl,
            hinv.results.admit hfound hopen horderly⟩
      next =>
        obtain rfl := Option.some.inj hstep
        exact hinv
  | commitResult j recordId =>
      simp only [BarrierSystem.step] at hstep
      split at hstep
      next call hcall =>
        simp only [Option.ite_none_right_eq_some, Option.some.injEq] at hstep
        obtain ⟨hwriting, rfl⟩ := hstep
        have hsame : IntentRecordsInv B (s.setResultStage j call .written) :=
          hinv.intentRecords.congr rfl rfl
        exact ⟨⟨hinv.intents.bound, hinv.intents.distinct, hinv.intents.plain,
          hinv.intents.queue⟩, hsame.addResult rfl,
          hinv.results.commit hinv.intents hinv.intentRecords hcall hwriting recordId⟩
      next => cases hstep
  | answerResult j =>
      simp only [BarrierSystem.step] at hstep
      split at hstep
      next call hcall =>
        simp only [Option.ite_none_right_eq_some, Option.some.injEq] at hstep
        obtain ⟨hwritten, rfl⟩ := hstep
        exact ⟨⟨hinv.intents.bound, hinv.intents.distinct, hinv.intents.plain,
          hinv.intents.queue⟩, hinv.intentRecords.congr rfl rfl,
          hinv.results.close hcall hwritten⟩
      next => cases hstep
  | failResult j detail =>
      simp only [BarrierSystem.step] at hstep
      split at hstep
      next call hcall =>
        simp only [Option.ite_none_right_eq_some, Option.some.injEq] at hstep
        obtain ⟨hwriting, rfl⟩ := hstep
        exact ⟨⟨hinv.intents.bound, hinv.intents.distinct, hinv.intents.plain,
          hinv.intents.queue⟩, hinv.intentRecords.congr rfl rfl,
          hinv.results.fail hcall hwriting _⟩
      next => cases hstep

/-- Records that name one writer, and are told apart by their writers, are one record. -/
theorem length_le_one_of_writer {records : List WrittenRecord} {p q : WrittenRecord → Prop}
    [DecidablePred p] [DecidablePred q] (hpq : ∀ record, p record → q record)
    (hnodup : ((records.filter fun record => q record).map WrittenRecord.writer).Nodup)
    (hwriter : ∀ record ∈ records, ∀ record' ∈ records, p record → p record' →
      record.writer = record'.writer) : (records.filter fun record => p record).length ≤ 1 := by
  have hsublist : (records.filter fun record => p record).Sublist
      (records.filter fun record => q record) :=
    List.monotone_filter_right records fun record hrecord =>
      decide_eq_true (hpq record (of_decide_eq_true hrecord))
  have hdistinct := hnodup.sublist (hsublist.map WrittenRecord.writer)
  have hmem : ∀ record ∈ records.filter fun record => p record,
      record ∈ records ∧ p record := by
    intro record hrecord
    obtain ⟨hrecord, hp⟩ := List.mem_filter.mp hrecord
    exact ⟨hrecord, of_decide_eq_true hp⟩
  revert hdistinct hmem
  generalize records.filter (fun record => p record) = found
  intro hdistinct hmem
  cases found with
  | nil => simp
  | cons first rest =>
      cases rest with
      | nil => simp
      | cons second rest =>
          obtain ⟨hfirst, hpFirst⟩ := hmem first (by simp)
          obtain ⟨hsecond, hpSecond⟩ := hmem second (by simp)
          have hsame := hwriter first hfirst second hsecond hpFirst hpSecond
          simp [hsame] at hdistinct

theorem BarrierInv.safe (hinv : BarrierInv B s) : BarrierSafe s where
  intents_le_one id := by
    refine length_le_one_of_writer (fun record hrecord => hrecord.1) hinv.intentRecords.nodup ?_
    intro record hrecord record' hrecord' hid hid'
    obtain ⟨call, hcall, -, hinput⟩ := hinv.intentRecords.source record hrecord hid.1
    obtain ⟨call', hcall', -, hinput'⟩ := hinv.intentRecords.source record' hrecord' hid'.1
    have hname := hid.2
    have hname' := hid'.2
    rw [hinput, auditIntentId_intentInput B (hinv.intents.plain hcall), Option.some.injEq,
      Json.str.injEq] at hname
    rw [hinput', auditIntentId_intentInput B (hinv.intents.plain hcall'), Option.some.injEq,
      Json.str.injEq] at hname'
    exact hinv.intents.distinct hcall hcall' (hname.trans hname'.symm)
  results_le_one id := by
    refine length_le_one_of_writer (fun record hrecord => hrecord.1) hinv.results.nodup ?_
    intro record hrecord record' hrecord' hid hid'
    obtain ⟨call, hcall, hstored, hinput⟩ := hinv.results.source record hrecord hid.1
    obtain ⟨call', hcall', hstored', hinput'⟩ := hinv.results.source record' hrecord' hid'.1
    have hname := hid.2
    have hname' := hid'.2
    rw [hinput, auditIntentId_resultInput, Option.some.injEq, Json.str.injEq] at hname
    rw [hinput', auditIntentId_resultInput, Option.some.injEq, Json.str.injEq] at hname'
    exact hinv.results.single hcall hcall' (hname.trans hname'.symm) (.inr hstored) (.inr hstored')
  receipt envelopeId id hsign := by
    unfold beforeReceiptSign at hsign
    split at hsign
    next => cases hsign
    next state hstate =>
      obtain ⟨j, call, hcall, rfl, hreturned⟩ :=
        hinv.results.opened hstate (require_eq_ok.mp hsign)
      exact hinv.results.paired hcall (.inr hreturned)
  order := hinv.intentRecords.order

end Runs

/-- In every run of overlapping calls that is orderly, each intent has at most one record of
either kind, a receipt is signed only behind both, and the intents of an agent are written in
the order of its calls. -/
theorem barrier_safe_of_orderly {B : AuditBarrier} {events : List BarrierEvent}
    {s : BarrierSystem}
    (horderly : Along (BarrierSystem.step B) Orderly BarrierSystem.start events)
    (hrun : run (BarrierSystem.step B) BarrierSystem.start events = some s) : BarrierSafe s :=
  (run_invariant (BarrierInv B) (fun _ _ _ hinv horderly hstep => hinv.step horderly hstep)
    (.start B) horderly hrun).safe

/-! ## Two results for one intent -/

namespace DoubleResult

def barrier : AuditBarrier := ⟨"9d61b19deffd5a60ba844af492ec2cc4", 5000⟩

def intent : AuditBarrierRecord :=
  ⟨"did:agent:payer", "did:agent:payer", "CONFIRM", none, none, OrderedMap.empty⟩

def firstId : String := "4fa85f64-5717-4562-b3fc-2c963f66afa6"

def secondId : String := "936da01f-9abd-4d9d-80c7-02af85c822a8"

/-- The result is reported twice before the first report is written. -/
def overlapping : List BarrierEvent :=
  [.beforeExecute intent firstId, .start 0, .commitIntent 0 "r-1", .answerIntent 0,
    .afterExecute firstId .success, .afterExecute firstId .error, .commitResult 0 "r-2",
    .commitResult 1 "r-3"]

/-- One intent has two results. -/
theorem two_results :
    ¬ ∀ events s, run (BarrierSystem.step barrier) BarrierSystem.start events = some s →
      BarrierSafe s := by
  intro hsafe
  have hrun : (run (BarrierSystem.step barrier) BarrierSystem.start overlapping).any (fun s =>
      (s.records.filter (WrittenRecord.IsResult firstId)).length = 2) = true := by
    decide +kernel
  obtain ⟨s, hs, hlength⟩ := (Option.any_eq_true _ _).mp hrun
  have hone := (hsafe overlapping s hs).results_le_one firstId
  rw [of_decide_eq_true hlength] at hone
  exact absurd hone (by decide)

/-- The first call of the agent times out and its write fails; the second one is recorded,
executed and reported once. -/
def orderly : List BarrierEvent :=
  [.beforeExecute intent firstId, .beforeExecute intent secondId, .start 0, .timeout 0,
    .failIntent 0 "connection reset", .start 1, .commitIntent 1 "r-1", .answerIntent 1,
    .afterExecute secondId .success, .commitResult 0 "r-2", .answerResult 0]

theorem orderly_safe :
    ∃ s, run (BarrierSystem.step barrier) BarrierSystem.start orderly = some s ∧
      beforeReceiptSign s "env-1" secondId = .ok () ∧ BarrierSafe s := by
  have horderly : Along (BarrierSystem.step barrier) Orderly BarrierSystem.start orderly := by
    decide +kernel
  have hrun : (run (BarrierSystem.step barrier) BarrierSystem.start orderly).any (fun s =>
      beforeReceiptSign s "env-1" secondId = .ok ()) = true := by
    decide +kernel
  obtain ⟨s, hs, hsign⟩ := (Option.any_eq_true _ _).mp hrun
  exact ⟨s, hs, of_decide_eq_true hsign, barrier_safe_of_orderly horderly hs⟩

end DoubleResult

end Coivitas.Policy
