import Coivitas.Policy.LedgerRuns
import Coivitas.Policy.PostgresTracker

/-! # Reservations in the ledger's table

The tracker and the recorder write into one table: their calls interleave
statement by statement. What a run leaves of the ledgers is compared with the
same run without the tracker's statements.
-/

namespace Coivitas.Policy

open Foundation Crypto

/-- A call of the tracker in flight, by the statement it has completed. -/
inductive TrackerCall where
  | waiting (request : ReserveRequest) (entry : MeterFieldEntry)
  | timed (request : ReserveRequest) (entry : MeterFieldEntry) (pendingCutoff : Int)
  | counted (request : ReserveRequest) (currentCumulative : JsNumber)
  | settling (request : SettleRequest) (reservation : ActionRecordRow)

/-- The recorder's calls with the shared table, the clock and the tracker's calls. -/
structure SharedSystem where
  ledger : RecordSystem
  clock : Int
  randomUUID : Nat → String
  tracker : Nat → Option TrackerCall

/-- The tracker's advisory lock orders its own calls only; without it there are more
interleavings. -/
inductive SharedEvent where
  | ledger (event : RecordEvent)
  | wait (ms : Nat)
  | checkAndReserve (call : Nat) (request : ReserveRequest)
  | readClock (call : Nat)
  | aggregate (call : Nat)
  | commit (call : Nat)
  | settleReservation (call : Nat) (request : SettleRequest)
  | update (call : Nat)
  | rollback (call : Nat)

namespace SharedSystem

def start (clock : Int) (randomUUID : Nat → String) : SharedSystem :=
  ⟨RecordSystem.start Table.empty, clock, randomUUID, fun _ => none⟩

def db (s : SharedSystem) : Database := ⟨s.ledger.records, s.clock, s.randomUUID⟩

def setCall (s : SharedSystem) (i : Nat) (call : Option TrackerCall) : SharedSystem :=
  { s with tracker := Function.update s.tracker i call }

def setRecords (s : SharedSystem) (records : ActionRecords) : SharedSystem :=
  { s with ledger := { s.ledger with records } }

variable (P : LedgerPorts)

/-- One statement of one call; `none` when it cannot run now. -/
def step (s : SharedSystem) : SharedEvent → Option SharedSystem
  | .ledger event => (s.ledger.step P event).map fun ledger => { s with ledger }
  | .wait ms => some { s with clock := s.clock + ms }
  | .checkAndReserve i request =>
      match s.tracker i, meterFieldRegistry request.meterField.metric,
          findReservation s.ledger.records request.recordId with
      | some _, _, _ => none
      | none, none, _ => some s
      | none, some _, some _ => some s
      | none, some entry, none => some (s.setCall i (some (.waiting request entry)))
  | .readClock i =>
      match s.tracker i with
      | some (.waiting request entry) =>
          some (s.setCall i (some (.timed request entry (s.clock - pendingTtlMs))))
      | _ => none
  | .aggregate i =>
      match s.tracker i with
      | some (.timed request entry pendingCutoff) =>
          some (s.setCall i (some (.counted request (aggregateWithClient entry request.agentDid
            request.windowStart request.now pendingCutoff s.ledger.records))))
      | _ => none
  | .commit i =>
      match s.tracker i with
      | some (.counted request currentCumulative) =>
          some ((s.setRecords (reserve request currentCumulative s.db).2.records).setCall i none)
      | _ => none
  | .settleReservation i request =>
      match s.tracker i, findReservation s.ledger.records request.recordId with
      | some _, _ => none
      | none, none => some s
      | none, some reservation => some (s.setCall i (some (.settling request reservation)))
  | .update i =>
      match s.tracker i with
      | some (.settling request reservation) =>
          match settle request reservation s.ledger.records with
          | .error _ => some (s.setCall i none)
          | .ok records => some ((s.setRecords records).setCall i none)
      | _ => none
  | .rollback i =>
      match s.tracker i with
      | some _ => some (s.setCall i none)
      | none => none

end SharedSystem

/-! ## The inputs and the condition -/

/-- What is left of an event without the tracker. -/
def SharedEvent.ledgerEvent : SharedEvent → Option RecordEvent
  | .ledger event => some event
  | _ => none

section Inputs

variable (recorded : String → Bool)

/-- Actions are recorded for the given agents, under their own action types. -/
def SharedEvent.InDomain : SharedEvent → Prop
  | .ledger (.record _ _ input _ _) =>
      recorded input.agentDid = true ∧ input.actionType ≠ cumulativeReserveActionType
  | _ => True

/-- A record's identifier is not that of a reservation, and no reservation is written
for an agent whose actions are recorded. -/
def SharedSystem.Apart (s : SharedSystem) : SharedEvent → Prop
  | .ledger (.insert i) =>
      match s.ledger.calls i with
      | some (.loaded _ prepared _) =>
          ∀ row ∈ s.ledger.records.rows, row.recordId = prepared.recordId → ¬ row.isReservation
      | _ => True
  | .commit i =>
      match s.tracker i with
      | some (.counted request currentCumulative) =>
          recorded request.agentDid = true →
            exceeds currentCumulative request.reserveAmount request.max ∨
              ∃ row ∈ s.ledger.records.rows, row.recordId = request.recordId
      | _ => True
  | _ => True

end Inputs

/-! ## The ledgers without the reservations -/

section Erasure

variable {P : LedgerPorts} {keys : CheckerKeys} {recorded : String → Bool}
  {records records' kept : ActionRecords} {agentDid : String}

/-- The rows of the recorded agents. -/
def Kept (recorded : String → Bool) (records kept : ActionRecords) : Prop :=
  kept.rows = records.rows.filter fun row => recorded row.agentDid

theorem Kept.agentRows_eq (hkept : Kept recorded records kept) (hagent : recorded agentDid = true) :
    agentRows agentDid kept = agentRows agentDid records := by
  unfold agentRows
  rw [hkept, List.filter_filter]
  congr 1
  refine List.filter_congr fun row _ => ?_
  by_cases hrow : row.agentDid = agentDid
  · simp [hrow, hagent]
  · simp [hrow]

theorem Kept.loadPreviousRecordHash_eq (hkept : Kept recorded records kept)
    (hagent : recorded agentDid = true) :
    loadPreviousRecordHash agentDid kept = loadPreviousRecordHash agentDid records := by
  rw [loadPreviousRecordHash, loadPreviousRecordHash, hkept.agentRows_eq hagent]

theorem Kept.verifyIntegrity_eq (hkept : Kept recorded records kept)
    (hagent : recorded agentDid = true) :
    verifyIntegrity P keys agentDid kept = verifyIntegrity P keys agentDid records := by
  rw [verifyIntegrity, verifyIntegrity, hkept.agentRows_eq hagent]

/-- A row of a recorded agent goes in, or does not, whether or not the other rows are
there, unless one of these has its identifier. -/
theorem Kept.insert? (hkept : Kept recorded records kept) (row : ActionRecordRow)
    (hagent : recorded row.agentDid = true)
    (hfree : ∀ other ∈ records.rows, other.recordId = row.recordId →
      recorded other.agentDid = true) :
    (records.insert? row = none ∧ kept.insert? row = none) ∨
      ∃ records' kept', records.insert? row = some records' ∧ kept.insert? row = some kept' ∧
        records'.rows = records.rows ++ [row] ∧ Kept recorded records' kept' := by
  have hmem : row.recordId ∈ kept.rows.map ActionRecordRow.recordId ↔
      row.recordId ∈ records.rows.map ActionRecordRow.recordId := by
    have hrows : kept.rows = records.rows.filter fun row => recorded row.agentDid := hkept
    simp only [hrows, List.mem_map, List.mem_filter]
    constructor
    · rintro ⟨other, ⟨hother, -⟩, hid⟩
      exact ⟨other, hother, hid⟩
    · rintro ⟨other, hother, hid⟩
      exact ⟨other, ⟨hother, hfree other hother hid⟩, hid⟩
  cases hinsert : records.insert? row with
  | none => exact .inl ⟨rfl, Table.insert?_eq_none.mpr (hmem.mpr (Table.insert?_eq_none.mp hinsert))⟩
  | some records' =>
      obtain ⟨hkey, hrows⟩ := Table.insert?_eq_some.mp hinsert
      cases hinsert' : kept.insert? row with
      | none => exact absurd (hmem.mp (Table.insert?_eq_none.mp hinsert')) hkey
      | some kept' =>
          have hrows' := (Table.insert?_eq_some.mp hinsert').2
          refine .inr ⟨records', kept', rfl, rfl, hrows, ?_⟩
          rw [Kept, hrows', hrows, List.filter_append, hkept]
          simp [hagent]

theorem Kept.insertRecord (hkept : Kept recorded records kept) (P : LedgerPorts)
    (recorder : Recorder) {prepared : PreparedRecord} (previousRecordHash : String)
    (hagent : recorded prepared.input.agentDid = true)
    (hfree : ∀ other ∈ records.rows, other.recordId = prepared.recordId →
      recorded other.agentDid = true) :
    (∃ error, insertRecord P recorder.kind recorder.ledgerPrivateKey prepared previousRecordHash
        records = .error error ∧
      insertRecord P recorder.kind recorder.ledgerPrivateKey prepared previousRecordHash kept =
        .error error) ∨
      ∃ records' kept', insertRecord P recorder.kind recorder.ledgerPrivateKey prepared
          previousRecordHash records = .ok records' ∧
        insertRecord P recorder.kind recorder.ledgerPrivateKey prepared previousRecordHash kept =
          .ok kept' ∧ Kept recorded records' kept' := by
  cases hrow : recordRow P recorder.ledgerPrivateKey prepared previousRecordHash with
  | error error => exact .inl ⟨error, by simp [Policy.insertRecord, hrow]⟩
  | ok row =>
      have hspec := recordRow_records hrow
      have hinsert := hkept.insert? row (by rw [hspec.agentDid, hagent])
        (by simpa only [hspec.recordId] using hfree)
      obtain ⟨hnone, hnone'⟩ | ⟨records', kept', hsome, hsome', -, hkept'⟩ := hinsert
      · exact .inl ⟨.duplicateRecordId, by simp [Policy.insertRecord, hrow, hnone, hnone']⟩
      · cases hkind : recorder.kind with
        | standard =>
            exact .inr ⟨records', kept', by simp [Policy.insertRecord, hrow, hsome, hsome', hkept']⟩
        | controlPlane assertSchemaCompliant resolveOwner appendSideTable =>
            by_cases happend : appendSideTable row.recordId = true
            · exact .inr ⟨records', kept', by
                simp [Policy.insertRecord, hrow, hsome, hsome', hkept', happend]⟩
            · exact .inl ⟨.sideTableFailed, by
                simp [Policy.insertRecord, hrow, hsome, hsome', happend]⟩

/-- The state without the tracker: the same calls over the rows of the recorded agents.
The other rows are the reservations. -/
structure Erased (recorded : String → Bool) (s : SharedSystem) (t : RecordSystem) : Prop where
  ledger : t = { s.ledger with records := t.records }
  kept : Kept recorded s.ledger.records t.records
  reservations : ∀ row ∈ s.ledger.records.rows, row.isReservation ↔ recorded row.agentDid = false
  inputs : ∀ i call, s.ledger.calls i = some call → recorded call.agentDid = true ∧
    call.prepared.input.actionType ≠ cumulativeReserveActionType

namespace Erased

variable {s s' : SharedSystem} {t : RecordSystem}

theorem start (recorded : String → Bool) (clock : Int) (randomUUID : Nat → String) :
    Erased recorded (SharedSystem.start clock randomUUID) (RecordSystem.start Table.empty) where
  ledger := rfl
  kept := rfl
  reservations row hrow := by cases hrow
  inputs i call hcall := by cases hcall

/-- A statement of the tracker that leaves the recorded agents' rows as they are. -/
theorem of_records (herased : Erased recorded s t)
    (hledger : s'.ledger = { s.ledger with records := s'.ledger.records })
    (hkept : Kept recorded s'.ledger.records t.records)
    (hreservations : ∀ row ∈ s'.ledger.records.rows,
      row.isReservation ↔ recorded row.agentDid = false) : Erased recorded s' t where
  ledger := by
    rw [hledger]
    exact herased.ledger
  kept := hkept
  reservations := hreservations
  inputs i call hcall := by
    rw [hledger] at hcall
    exact herased.inputs i call hcall

theorem of_ledger_eq (herased : Erased recorded s t) (hledger : s'.ledger = s.ledger) :
    Erased recorded s' t :=
  ⟨hledger ▸ herased.ledger, hledger ▸ herased.kept, hledger ▸ herased.reservations,
    hledger ▸ herased.inputs⟩

theorem reserve {request : ReserveRequest} {currentCumulative : JsNumber}
    (herased : Erased recorded s t)
    (hapart : recorded request.agentDid = true →
      exceeds currentCumulative request.reserveAmount request.max ∨
        ∃ row ∈ s.ledger.records.rows, row.recordId = request.recordId) :
    Erased recorded (s.setRecords (Policy.reserve request currentCumulative s.db).2.records) t := by
  unfold Policy.reserve
  split
  next => exact herased.of_ledger_eq rfl
  next hwithin =>
    by_cases hkey : request.recordId ∈ s.ledger.records.rows.map ActionRecordRow.recordId
    · have hsame : (insertReservation request currentCumulative s.db).records =
          s.ledger.records := Table.insertOrIgnore_of_mem hkey
      refine herased.of_ledger_eq ?_
      simp only [SharedSystem.setRecords, hsame]
    · have hother : recorded request.agentDid = false := by
        cases hrecorded : recorded request.agentDid with
        | false => rfl
        | true =>
            obtain hexceeds | ⟨row, hrow, hid⟩ := hapart hrecorded
            · exact absurd hexceeds hwithin
            · exact absurd (List.mem_map.mpr ⟨row, hrow, hid⟩) hkey
      have hrows : (insertReservation request currentCumulative s.db).records.rows =
          s.ledger.records.rows ++ [reservationRow request currentCumulative s.db.nextUUID] :=
        Table.rows_insertOrIgnore hkey
      refine herased.of_records rfl ?_ ?_
      · have hkept : t.records.rows = s.ledger.records.rows.filter _ := herased.kept
        show t.records.rows = List.filter _ (insertReservation _ _ _).records.rows
        rw [hrows, List.filter_append, ← hkept]
        simp [reservationRow, hother]
      · intro row hrow
        replace hrow : row ∈ (insertReservation request currentCumulative s.db).records.rows := hrow
        rw [hrows, List.mem_append, List.mem_singleton] at hrow
        obtain hold | rfl := hrow
        · exact herased.reservations row hold
        · exact iff_of_true (reservationRow_isReservation _ _ _) hother

/-- A settlement changes reservations only. -/
theorem settle {request : SettleRequest} {reservation : ActionRecordRow}
    {records' : ActionRecords} (herased : Erased recorded s t)
    (hsettle : Policy.settle request reservation s.ledger.records = .ok records') :
    Erased recorded (s.setRecords records') t := by
  unfold Policy.settle at hsettle
  split at hsettle
  next =>
    cases hsettle
    exact herased.of_ledger_eq rfl
  next =>
    split at hsettle
    next => cases hsettle
    next status _ =>
      cases hsettle
      have hmap : ∀ row ∈ s.ledger.records.rows, recorded row.agentDid = true →
          row.withResultSummary (updatedResultSummary request reservation status) = row := by
        intro row hrow hrecorded
        have hnot : ¬ row.isReservation := by
          rw [herased.reservations row hrow, hrecorded]
          decide
        simp [ActionRecordRow.withResultSummary, hnot]
      refine herased.of_records rfl ?_ ?_
      · have hkept : t.records.rows = s.ledger.records.rows.filter _ := herased.kept
        show t.records.rows = List.filter _ (List.map _ s.ledger.records.rows)
        rw [List.filter_map, hkept]
        have hfilter : s.ledger.records.rows.filter ((fun row => recorded row.agentDid) ∘
            fun row => if row.recordId = request.recordId then
              row.withResultSummary (updatedResultSummary request reservation status) else row) =
            s.ledger.records.rows.filter fun row => recorded row.agentDid := by
          refine List.filter_congr fun row _ => ?_
          simp only [Function.comp_apply]
          split
          next => rw [withResultSummary_agentDid]
          next => rfl
        rw [hfilter]
        refine ((List.map_congr_left fun row hrow => ?_).trans (List.map_id _)).symm
        obtain ⟨hmem, hrecorded⟩ := List.mem_filter.mp hrow
        split
        next => exact hmap row hmem hrecorded
        next => rfl
      · intro row hrow
        obtain ⟨old, hold, -, rfl⟩ | ⟨hold, -⟩ := mem_updateReservation.mp hrow
        · simpa using herased.reservations old hold
        · exact herased.reservations row hold

/-- A statement of the recorder does the same with and without the reservations. -/
theorem ledger_step {event : RecordEvent} {ledger' : RecordSystem} (herased : Erased recorded s t)
    (hdomain : (SharedEvent.ledger event).InDomain recorded)
    (hapart : s.Apart recorded (.ledger event)) (hstep : s.ledger.step P event = some ledger') :
    ∃ t', t.step P event = some t' ∧ Erased recorded { s with ledger := ledger' } t' := by
  obtain ⟨hledger, hkept, hreservations, hinputs⟩ := herased
  rw [hledger]
  generalize t.records = kept at hkept
  clear hledger
  cases event with
  | record i recorder input uuid now =>
      simp only [RecordSystem.step] at hstep ⊢
      split at hstep
      next => cases hstep
      next hcall hprepared =>
        cases hstep
        exact ⟨_, rfl, rfl, hkept, hreservations, hinputs⟩
      next prepared hcall hprepared =>
        cases hstep
        refine ⟨_, rfl, rfl, hkept, hreservations, fun j call hcall' => ?_⟩
        obtain ⟨-, rfl⟩ | hold := RecordSystem.setCall_calls hcall'
        · have hinput : prepared.input = input := prepareRecord_input hprepared
          simpa only [RecordCall.agentDid, RecordCall.prepared, hinput, SharedEvent.InDomain] using
            hdomain
        · exact hinputs j call hold
  | lockAgentChain i =>
      simp only [RecordSystem.step] at hstep ⊢
      split at hstep
      next recorder prepared hcall =>
        have hcalls := hinputs i _ hcall
        split at hstep
        next hfree =>
          cases hstep
          simp only [hfree, if_true]
          refine ⟨_, rfl, rfl, hkept, hreservations, fun j call hcall' => ?_⟩
          obtain ⟨-, rfl⟩ | hold := RecordSystem.setCall_calls hcall'
          · exact hcalls
          · exact hinputs j call hold
        next => cases hstep
      next => cases hstep
  | loadPreviousRecordHash i =>
      simp only [RecordSystem.step] at hstep ⊢
      split at hstep
      next recorder prepared hcall =>
        have hcalls := hinputs i _ hcall
        have hagent : recorded prepared.input.agentDid = true := hcalls.1
        cases hstep
        rw [hkept.loadPreviousRecordHash_eq hagent]
        refine ⟨_, rfl, rfl, hkept, hreservations, fun j call hcall' => ?_⟩
        obtain ⟨-, rfl⟩ | hold := RecordSystem.setCall_calls hcall'
        · exact hcalls
        · exact hinputs j call hold
      next => cases hstep
  | insert i =>
      simp only [RecordSystem.step] at hstep ⊢
      split at hstep
      next recorder prepared previousRecordHash hcall =>
        cases hstep
        simp only [SharedSystem.Apart, hcall] at hapart
        have hagent : recorded prepared.input.agentDid = true := (hinputs i _ hcall).1
        have haction := (hinputs i _ hcall).2
        have hfree : ∀ other ∈ s.ledger.records.rows, other.recordId = prepared.recordId →
            recorded other.agentDid = true := by
          intro other hother hid
          have hnot := hapart other hother hid
          rw [hreservations other hother] at hnot
          simpa using hnot
        refine ⟨_, rfl, ?_⟩
        obtain ⟨error, herror, herror'⟩ | ⟨records', kept', hok, hok', hkept'⟩ :=
          hkept.insertRecord P recorder previousRecordHash hagent hfree
        · simp only [RecordSystem.commit, herror, herror']
          exact ⟨rfl, hkept, hreservations, fun j call hcall' =>
            hinputs j call (RecordSystem.finish_calls hcall').2⟩
        · simp only [RecordSystem.commit, hok, hok']
          refine ⟨rfl, hkept', fun row hrow => ?_, fun j call hcall' =>
            hinputs j call (RecordSystem.finish_calls hcall').2⟩
          obtain ⟨new, hnew, hrows⟩ := insertRecord_ok hok
          replace hrow : row ∈ records'.rows := hrow
          rw [hrows, List.mem_append, List.mem_singleton] at hrow
          obtain hold | rfl := hrow
          · exact hreservations row hold
          · rw [ActionRecordRow.isReservation, hnew.actionType, hnew.agentDid, hagent]
            exact iff_of_false haction (by decide)
      next => cases hstep
  | rollback i =>
      simp only [RecordSystem.step] at hstep ⊢
      split at hstep
      next =>
        cases hstep
        exact ⟨_, rfl, rfl, hkept, hreservations, fun j call hcall' =>
          hinputs j call (RecordSystem.finish_calls hcall').2⟩
      next => cases hstep

/-- Every statement keeps the relation; without the tracker its own do nothing. -/
theorem step {event : SharedEvent} (herased : Erased recorded s t)
    (hdomain : event.InDomain recorded) (hapart : s.Apart recorded event)
    (hstep : s.step P event = some s') :
    ∃ t', run (RecordSystem.step P) t event.ledgerEvent.toList = some t' ∧
      Erased recorded s' t' := by
  cases event with
  | ledger event =>
      obtain ⟨ledger', hledger', rfl⟩ := Option.map_eq_some_iff.mp hstep
      obtain ⟨t', ht', herased'⟩ := herased.ledger_step hdomain hapart hledger'
      exact ⟨t', by simp [SharedEvent.ledgerEvent, run, ht'], herased'⟩
  | wait ms =>
      cases hstep
      exact ⟨t, rfl, herased.of_ledger_eq rfl⟩
  | checkAndReserve i request =>
      simp only [SharedSystem.step] at hstep
      split at hstep
      all_goals cases hstep
      all_goals exact ⟨t, rfl, herased.of_ledger_eq rfl⟩
  | readClock i =>
      simp only [SharedSystem.step] at hstep
      split at hstep
      all_goals cases hstep
      exact ⟨t, rfl, herased.of_ledger_eq rfl⟩
  | aggregate i =>
      simp only [SharedSystem.step] at hstep
      split at hstep
      all_goals cases hstep
      exact ⟨t, rfl, herased.of_ledger_eq rfl⟩
  | commit i =>
      simp only [SharedSystem.step] at hstep
      split at hstep
      next request currentCumulative hcall =>
        cases hstep
        simp only [SharedSystem.Apart, hcall] at hapart
        exact ⟨t, rfl, (herased.reserve hapart).of_ledger_eq rfl⟩
      next => cases hstep
  | settleReservation i request =>
      simp only [SharedSystem.step] at hstep
      split at hstep
      all_goals cases hstep
      all_goals exact ⟨t, rfl, herased.of_ledger_eq rfl⟩
  | update i =>
      simp only [SharedSystem.step] at hstep
      split at hstep
      next request reservation hcall =>
        split at hstep
        next =>
          cases hstep
          exact ⟨t, rfl, herased.of_ledger_eq rfl⟩
        next records hsettle =>
          cases hstep
          exact ⟨t, rfl, (herased.settle hsettle).of_ledger_eq rfl⟩
      next => cases hstep
  | rollback i =>
      simp only [SharedSystem.step] at hstep
      split at hstep
      all_goals cases hstep
      exact ⟨t, rfl, herased.of_ledger_eq rfl⟩

end Erased

/-- In every interleaving in which no reservation is written for a recorded agent or under
a record's identifier, all record calls end as they do without the tracker, and the
checker says the same of every recorded agent's ledger. -/
theorem ledger_of_apart (P : LedgerPorts) (recorded : String → Bool) (clock : Int)
    (randomUUID : Nat → String) (events : List SharedEvent) (s : SharedSystem)
    (hdomain : ∀ event ∈ events, event.InDomain recorded)
    (hapart : Along (SharedSystem.step P) (SharedSystem.Apart recorded)
      (SharedSystem.start clock randomUUID) events)
    (hrun : run (SharedSystem.step P) (SharedSystem.start clock randomUUID) events = some s) :
    ∃ t, run (RecordSystem.step P) (RecordSystem.start Table.empty)
        (events.filterMap SharedEvent.ledgerEvent) = some t ∧
      s.ledger.results = t.results ∧
      ∀ keys agentDid, recorded agentDid = true →
        verifyIntegrity P keys agentDid s.ledger.records =
          verifyIntegrity P keys agentDid t.records := by
  have hgood := hapart.and (along_of_forall_mem fun event hevent _ => hdomain event hevent)
  obtain ⟨t, hrun', herased⟩ := run_filterMap (RecordSystem.step P) SharedEvent.ledgerEvent
    (Erased recorded)
    (fun _ _ _ _ herased hgood hstep => herased.step hgood.2 hgood.1 hstep)
    (Erased.start recorded clock randomUUID) hgood hrun
  refine ⟨t, hrun', ?_, fun keys agentDid hagent => (herased.kept.verifyIntegrity_eq hagent).symm⟩
  rw [herased.ledger]

/-! ## What a reservation does to its agent's ledger -/

/-- The checker accepts no row whose hash has the length of an identifier. -/
theorem verifyRecord_ne_valid {expected : String} {row : ActionRecordRow}
    (hlength : row.recordHash.toList.length = 36) : verifyRecord P keys expected row ≠ .valid := by
  intro hvalid
  simp only [verifyRecord] at hvalid
  split at hvalid
  next => cases hvalid
  next =>
    split at hvalid
    next => cases hvalid
    next =>
      split at hvalid
      next => cases hvalid
      next hhash =>
        rw [not_not] at hhash
        rw [hhash, computeRecordHash, length_encode _ (P.sha256_length _)] at hlength
        split at hlength
        all_goals cases hlength

theorem mem_of_verifyRecords {expected : String} {rows : List ActionRecordRow}
    (hvalid : verifyRecords P keys expected rows = .valid) {row : ActionRecordRow}
    (hrow : row ∈ rows) : ∃ expected', verifyRecord P keys expected' row = .valid := by
  induction rows generalizing expected with
  | nil => cases hrow
  | cons first rows ih =>
      simp only [verifyRecords] at hvalid
      split at hvalid
      next hfirst =>
        obtain rfl | hrest := List.mem_cons.mp hrow
        · exact ⟨expected, hfirst⟩
        · exact ih hvalid hrest
      next hinvalid => exact absurd hvalid hinvalid

/-- A ledger that the checker accepts has no reservation among the rows it reads. -/
theorem no_placeholder_of_verifyIntegrity
    (hvalid : verifyIntegrity P keys agentDid records = .valid) :
    ∀ row ∈ (agentRows agentDid records).take 10000, row.recordHash.toList.length ≠ 36 := by
  intro row hrow hlength
  obtain ⟨expected, haccepted⟩ := mem_of_verifyRecords hvalid hrow
  exact verifyRecord_ne_valid hlength haccepted

end Erasure

/-- The recorder's statements alone. -/
theorem run_ledger {P : LedgerPorts} {s : SharedSystem} {events : List RecordEvent}
    {ledger' : RecordSystem} (hrun : run (RecordSystem.step P) s.ledger events = some ledger') :
    run (SharedSystem.step P) s (events.map .ledger) = some { s with ledger := ledger' } := by
  induction events generalizing s with
  | nil =>
      cases hrun
      rfl
  | cons event events ih =>
      obtain ⟨ledger₁, hstep, hrest⟩ := run_cons_eq_some.mp hrun
      have hstep' : s.step P (.ledger event) = some { s with ledger := ledger₁ } := by
        simp [SharedSystem.step, hstep]
      rw [List.map_cons, run_cons hstep']
      exact ih hrest

/-- The statements of one reservation. -/
def reservation (i : Nat) (request : ReserveRequest) : List SharedEvent :=
  [.checkAndReserve i request, .readClock i, .aggregate i, .commit i]

/-- A reservation, undisturbed. -/
theorem run_reservation {P : LedgerPorts} {s : SharedSystem} {i : Nat} {request : ReserveRequest}
    {entry : MeterFieldEntry} (hcall : s.tracker i = none)
    (hentry : meterFieldRegistry request.meterField.metric = some entry)
    (hnew : findReservation s.ledger.records request.recordId = none) :
    ∃ s', run (SharedSystem.step P) s (reservation i request) = some s' ∧
      s'.ledger = { s.ledger with
        records := (reserve request (aggregateWithClient entry request.agentDid
          request.windowStart request.now (s.clock - pendingTtlMs) s.ledger.records)
            s.db).2.records } := by
  simp only [reservation, run, SharedSystem.step, hcall, hentry, hnew, SharedSystem.setCall,
    Function.update_self, SharedSystem.setRecords]
  exact ⟨_, rfl, rfl⟩

theorem along_reservation {P : LedgerPorts} {recorded : String → Bool} {s : SharedSystem} {i : Nat}
    {request : ReserveRequest} {entry : MeterFieldEntry} (hcall : s.tracker i = none)
    (hentry : meterFieldRegistry request.meterField.metric = some entry)
    (hnew : findReservation s.ledger.records request.recordId = none)
    (hother : recorded request.agentDid = false) :
    Along (SharedSystem.step P) (SharedSystem.Apart recorded) s (reservation i request) := by
  simp [reservation, Along, SharedSystem.step, hcall, hentry, hnew, SharedSystem.setCall,
    SharedSystem.Apart, hother]

theorem along_transaction_apart {P : LedgerPorts} {recorded : String → Bool} {s : SharedSystem}
    {i : Nat} {recorder : Recorder} {prepared : PreparedRecord}
    (hcall : s.ledger.calls i = some (.waiting recorder prepared))
    (hlock : ∀ agentDid, s.ledger.lock agentDid = none)
    (hfree : ∀ row ∈ s.ledger.records.rows, row.recordId = prepared.recordId →
      ¬ row.isReservation) :
    Along (SharedSystem.step P) (SharedSystem.Apart recorded) s
      ((transaction i).map .ledger) := by
  simpa [transaction, Along, SharedSystem.step, RecordSystem.step, hcall, hlock,
    RecordSystem.setCall, SharedSystem.Apart, RecordSystem.commit] using hfree

/-! ## A reservation and a record -/

namespace Audit

open Identity.Relay

/-- Sixty of one hundred, under the identifier of the action's record. -/
def request (agentDid recordId : String) : ReserveRequest where
  recordId := recordId
  agentDid := agentDid
  meterField := ⟨.actionRecord, "transaction_amount", none, none, Types.MeterKey.all, List.Perm.refl _⟩
  windowStart := 1781913600000
  now := 1781956800000
  max := 100
  reserveAmount := .finite 60

def recording : List RecordEvent := call 0 firstId noonText :: transaction 0

def noon : SharedSystem := SharedSystem.start 1781956800000 fun _ => placeholder

theorem run_request (agentDid recordId : String) : ∃ s,
    run (SharedSystem.step ports) noon (reservation 0 (request agentDid recordId)) = some s ∧
      s.ledger = { noon.ledger with records := s.ledger.records } ∧
      s.ledger.records.rows =
        [reservationRow (request agentDid recordId) (.finite 0) placeholder] := by
  have hentry : meterFieldRegistry "transaction_amount" =
      some ⟨.sum, some "amount", some "amount", .success⟩ := by decide +kernel
  obtain ⟨s, hrun, hledger⟩ := @run_reservation ports noon 0 (request agentDid recordId) _
    rfl hentry rfl
  have hwithin : ¬ exceeds (.finite 0) (.finite 60) 100 := by decide +kernel
  refine ⟨s, hrun, by rw [hledger], ?_⟩
  rw [hledger]
  simp [reserve, aggregateWithClient, JsNumber.sum, noon, SharedSystem.start, RecordSystem.start,
    Table.empty, request, hwithin, insertReservation, SharedSystem.db, Database.nextUUID,
    Table.insertOrIgnore, Table.insert?]

theorem noon_timely : Timely ports (prepared firstId noonText) Table.empty := by
  intro createdAt hcreated
  cases noon_time.symm.trans hcreated
  exact ⟨rfl, fun row hrow => by cases hrow⟩

theorem run_recording : ∃ t,
    run (RecordSystem.step ports) (RecordSystem.start Table.empty) recording = some t ∧
      t.results = [(0, .ok firstId)] ∧ verifyIntegrity ports keys editor t.records = .valid := by
  obtain ⟨records', hinsert⟩ := exists_records Table.empty first_signed (by simp [noon_time])
    (fun row hrow => by cases hrow)
  obtain ⟨t, hrun, rfl, hresults, -⟩ := RecordSystem.run_transaction_ok (i := 0)
    (s := (RecordSystem.start Table.empty).setCall 0
      (.waiting recorder (prepared firstId noonText))) rfl (fun _ => rfl) hinsert
  refine ⟨t, by rw [recording, run_cons (step_call rfl _ _), hrun], hresults, ?_⟩
  have hchain := ChainInv.insertRecord (RecordInv.start ports keys).chain (keyed firstId)
    noon_timely hinsert
  exact (hchain editor).verifyIntegrity_eq

/-- The frame fails: with a reservation under its identifier, the record of an action is
refused, and the checker rejects the agent's ledger. -/
theorem reservation_breaks_ledger : ∃ s t,
    run (SharedSystem.step ports) noon
        (reservation 0 (request editor firstId) ++ recording.map .ledger) = some s ∧
      run (RecordSystem.step ports) (RecordSystem.start Table.empty) recording = some t ∧
      t.results = [(0, .ok firstId)] ∧
      s.ledger.results = [(0, .error .duplicateRecordId)] ∧
      verifyIntegrity ports keys editor t.records = .valid ∧
      verifyIntegrity ports keys editor s.ledger.records ≠ .valid := by
  obtain ⟨t, hrun', hresults', hvalid⟩ := run_recording
  obtain ⟨s₀, hrun, hledger, hrows⟩ := run_request editor firstId
  have hplaceholder : loadPreviousRecordHash editor s₀.ledger.records = placeholder :=
    loadPreviousRecordHash_singleton hrows rfl
  obtain ⟨row, hrow⟩ := exists_row first_after_placeholder_signed (by simp [noon_time])
  have hinsert : insertRecord ports recorder.kind recorder.ledgerPrivateKey
      (prepared firstId noonText) placeholder s₀.ledger.records = .error .duplicateRecordId :=
    insertRecord_of_taken hrow (hrows ▸ List.mem_cons_self) rfl
  have hidle : s₀.ledger.calls 0 = none := by rw [hledger]; rfl
  have hlock : ∀ agentDid, s₀.ledger.lock agentDid = none := fun _ => by rw [hledger]; rfl
  have hnone : s₀.ledger.results = [] := by rw [hledger]; rfl
  obtain ⟨ledger', hrun₁, hrecords, hresults⟩ := RecordSystem.run_transaction_error (i := 0)
    (s := s₀.ledger.setCall 0 (.waiting recorder (prepared firstId noonText)))
    RecordSystem.setCall_self hlock (hplaceholder ▸ hinsert)
  have hrecording : run (RecordSystem.step ports) s₀.ledger recording = some ledger' := by
    rw [recording, run_cons (step_call hidle _ _), hrun₁]
  refine ⟨{ s₀ with ledger := ledger' }, t, run_append.mpr ⟨s₀, hrun, run_ledger hrecording⟩,
    hrun', hresults', ?_, hvalid, fun haccepted => ?_⟩
  · rw [hresults]
    exact congrArg (· ++ _) hnone
  · -- The hash of the reservation is an identifier.
    have hrows' : ledger'.records.rows = s₀.ledger.records.rows := congrArg Table.rows hrecords
    refine no_placeholder_of_verifyIntegrity haccepted
      (reservationRow (request editor firstId) (.finite 0) placeholder) ?_ (by decide +kernel)
    simp [agentRows, hrows', hrows, reservationRow, request]

/-- A reservation for another agent, under another identifier. -/
def apart : List SharedEvent := reservation 0 (request writer secondId) ++ recording.map .ledger

theorem apart_keeps_ledger : ∃ s t,
    run (SharedSystem.step ports) noon apart = some s ∧
      run (RecordSystem.step ports) (RecordSystem.start Table.empty) recording = some t ∧
      t.results = [(0, .ok firstId)] ∧ s.ledger.results = t.results ∧
      verifyIntegrity ports keys editor s.ledger.records =
        verifyIntegrity ports keys editor t.records := by
  obtain ⟨s₀, hrun, hledger, hrows⟩ := run_request writer secondId
  have hidle : s₀.ledger.calls 0 = none := by rw [hledger]; rfl
  have hlock : ∀ agentDid, s₀.ledger.lock agentDid = none := fun _ => by rw [hledger]; rfl
  have hnone : s₀.ledger.results = [] := by rw [hledger]; rfl
  have hwriter : writer ≠ editor := by decide +kernel
  have hload : loadPreviousRecordHash editor s₀.ledger.records = "" := by
    simp [loadPreviousRecordHash, agentRows, hrows, reservationRow, request, hwriter]
  obtain ⟨records', hinsert⟩ := exists_records s₀.ledger.records first_signed
    (by simp [noon_time]) (by simp [hrows, reservationRow, request, ids_ne.symm])
  obtain ⟨ledger', hrun₁, -, hresults, -⟩ := RecordSystem.run_transaction_ok (i := 0)
    (s := s₀.ledger.setCall 0 (.waiting recorder (prepared firstId noonText)))
    RecordSystem.setCall_self hlock (hload ▸ hinsert)
  have hrecording : run (RecordSystem.step ports) s₀.ledger recording = some ledger' := by
    rw [recording, run_cons (step_call hidle _ _), hrun₁]
  have hapart : run (SharedSystem.step ports) noon apart = some { s₀ with ledger := ledger' } :=
    run_append.mpr ⟨s₀, hrun, run_ledger hrecording⟩
  have hentry : meterFieldRegistry "transaction_amount" =
      some ⟨.sum, some "amount", some "amount", .success⟩ := by decide +kernel
  have hdomain : ∀ event ∈ apart, event.InDomain fun did => did == editor := by
    intro event hevent
    simp only [apart, reservation, recording, transaction, call, List.map_cons, List.map_nil,
      List.mem_append, List.mem_cons, List.not_mem_nil, or_false] at hevent
    rcases hevent with (rfl | rfl | rfl | rfl) | (rfl | rfl | rfl | rfl)
    all_goals trivial
  have hother : ((request writer secondId).agentDid == editor) = false := by
    simpa [request] using hwriter
  have hstep : s₀.step ports (.ledger (call 0 firstId noonText)) = some { s₀ with
      ledger := s₀.ledger.setCall 0 (.waiting recorder (prepared firstId noonText)) } := by
    simp [SharedSystem.step, step_call hidle]
  have halong : Along (SharedSystem.step ports) (SharedSystem.Apart fun did => did == editor)
      noon apart := by
    refine (along_append hrun).mpr ⟨along_reservation rfl hentry rfl hother, ?_⟩
    refine (along_cons hstep).mpr ⟨trivial, along_transaction_apart RecordSystem.setCall_self
      hlock fun row hrow hid => ?_⟩
    replace hrow : row ∈ s₀.ledger.records.rows := hrow
    rw [hrows, List.mem_singleton] at hrow
    subst hrow
    exact absurd hid ids_ne.symm
  obtain ⟨t, hrun', hsame, hintegrity⟩ := ledger_of_apart ports (fun did => did == editor)
    1781956800000 (fun _ => placeholder) apart _ hdomain halong hapart
  refine ⟨_, t, hapart, hrun', ?_, hsame, hintegrity keys editor (by simp)⟩
  rw [← hsame, hresults]
  exact congrArg (· ++ _) hnone

end Audit

end Coivitas.Policy
