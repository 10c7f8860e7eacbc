import Coivitas.Policy.ActionRecords
import Mathlib.Tactic.Linarith

/-! # The Postgres cumulative tracker

Quota is reserved by a `PENDING` row that later aggregations count until it is
settled, released or older than its time to live. The statements of a
transaction are separate definitions, so that a run can interleave them.
-/

namespace Coivitas.Policy

open Foundation

/-- How long an unsettled reservation counts. -/
def pendingTtlMs : Int := 5 * 60 * 1000

/-- The table, the time `Date.now()` reads and the identifiers `randomUUID()` gives,
one for each number of rows. -/
structure Database where
  records : ActionRecords
  clock : Int
  randomUUID : Nat → String

def Database.nextUUID (db : Database) : String := db.randomUUID db.records.rows.length

/-- `cumulative + amount > max`. -/
def exceeds (cumulative amount : JsNumber) (max : ℚ) : Prop := (cumulative.plus amount).gt max

instance (cumulative amount : JsNumber) (max : ℚ) : Decidable (exceeds cumulative amount max) :=
  inferInstanceAs (Decidable ((cumulative.plus amount).gt max))

/-! ## Aggregation -/

/-- The status filter of the aggregation query. -/
def statusFilter (countFilter : CountFilter) (pendingCutoff : Int) (row : ActionRecordRow) : Prop :=
  match countFilter with
  | .success =>
      row.hasStatus (.result .success) ∨ row.hasStatus .settled ∨
        (row.isReservation ∧ row.hasStatus .pending ∧ pendingCutoff ≤ row.createdAt)
  | .all =>
      (row.hasStatusText ∧ ¬ row.hasStatus .released ∧ ¬ row.hasStatus (.result .rejected) ∧
        ¬ row.hasStatus (.result .error)) ∧
        (¬ row.hasStatus .pending ∨ (row.isReservation ∧ pendingCutoff ≤ row.createdAt))

instance (countFilter : CountFilter) (pendingCutoff : Int) (row : ActionRecordRow) :
    Decidable (statusFilter countFilter pendingCutoff row) := by
  unfold statusFilter
  split <;> infer_instance

/-- What a selected row adds to the total. A reservation always adds what it
reserved, also after it was settled at another amount. -/
def rowAmount (entry : MeterFieldEntry) (row : ActionRecordRow) : ℚ :=
  if row.isReservation then
    match number? (row.field "reserveAmount"), entry.aggregation with
    | none, _ => 0
    | some _, .count => 1
    | some reserveAmount, .sum => reserveAmount
  else
    match entry.aggregation with
    | .count =>
        if entry.countFilter = .all ∨ row.hasStatus .settled then 1
        else if row.hasStatus (.result .success) then 1
        else 0
    | .sum => (number? (row.field (fieldName entry.recordField))).getD 0

/-- The rows an aggregation selects: those of the agent from the start of the window
up to `now` that pass the status filter. The metric of a reservation is not asked. -/
def Selected (entry : MeterFieldEntry) (agentDid : String) (windowStart now pendingCutoff : Int)
    (row : ActionRecordRow) : Prop :=
  row.agentDid = agentDid ∧ windowStart ≤ row.createdAt ∧ row.createdAt ≤ now ∧
    statusFilter entry.countFilter pendingCutoff row

instance (entry : MeterFieldEntry) (agentDid : String) (windowStart now pendingCutoff : Int) :
    DecidablePred (Selected entry agentDid windowStart now pendingCutoff) :=
  fun _ => inferInstanceAs (Decidable (_ ∧ _))

/-- The query leaves the order of the rows open; they are summed in the order of the table. -/
def aggregateWithClient (entry : MeterFieldEntry) (agentDid : String)
    (windowStart now pendingCutoff : Int) (records : ActionRecords) : JsNumber :=
  JsNumber.sum ((records.rows.filter fun row =>
    Selected entry agentDid windowStart now pendingCutoff row).map (rowAmount entry))

/-- The amounts that an aggregation selects, without any rounding. -/
def cumulativeValue (entry : MeterFieldEntry) (agentDid : String)
    (windowStart now pendingCutoff : Int) (records : ActionRecords) : ℚ :=
  ((records.rows.filter fun row => Selected entry agentDid windowStart now pendingCutoff row).map
    (rowAmount entry)).sum

/-- Whole amounts are summed exactly as far as `2 ^ 53`. -/
theorem aggregateWithClient_of_whole {entry : MeterFieldEntry} {agentDid : String}
    {windowStart now pendingCutoff : Int} {records : ActionRecords}
    (hwhole : ∀ row ∈ records.rows, Selected entry agentDid windowStart now pendingCutoff row →
      ∃ amount : ℕ, rowAmount entry row = amount)
    (hbound : cumulativeValue entry agentDid windowStart now pendingCutoff records ≤ 2 ^ 53) :
    aggregateWithClient entry agentDid windowStart now pendingCutoff records =
      .finite (cumulativeValue entry agentDid windowStart now pendingCutoff records) := by
  refine (JsNumber.sum_of_whole ?_ hbound).1
  intro amount hamount
  obtain ⟨row, hrow, rfl⟩ := List.mem_map.mp hamount
  obtain ⟨hmem, hselected⟩ := List.mem_filter.mp hrow
  exact hwhole row hmem (of_decide_eq_true hselected)

/-! ## Reserving -/

/-- The reservation row under a record id, whatever its status. -/
def findReservation (records : ActionRecords) (recordId : String) : Option ActionRecordRow :=
  records.rows.find? fun row => row.recordId = recordId ∧ row.isReservation

/-- The answer of a repeated request, from what the first one stored. -/
def existingResult (request : ReserveRequest) (existing : ActionRecordRow) : ReserveResult :=
  let existingReserveAmount :=
    ((number? (existing.field "reserveAmount")).map JsNumber.finite).getD request.reserveAmount
  let existingMax := (number? (existing.field "max")).getD request.max
  let existingCumulative := (number? (existing.field "cumulativeAtReserve")).getD 0
  ⟨¬ exceeds (.finite existingCumulative) existingReserveAmount existingMax,
    .finite existingCumulative⟩

/-- A reservation is no part of the hash chain: its hash is a random placeholder and
its signatures are empty. -/
def reservationRow (request : ReserveRequest) (currentCumulative : JsNumber)
    (placeholder : String) : ActionRecordRow where
  recordId := request.recordId
  agentDid := request.agentDid
  principalDid := request.agentDid
  actionType := cumulativeReserveActionType
  parametersSummary := .null
  authorizationRef := .null
  resultSummary := some (((((OrderedMap.empty
    |>.set "status" (.str RecordStatus.pending.text))
    |>.set "metric" (.str request.meterField.metric))
    |>.set "reserveAmount" request.reserveAmount.toJson)
    |>.set "max" (.num request.max))
    |>.set "cumulativeAtReserve" currentCumulative.toJson)
  recordHash := placeholder
  previousRecordHash := ""
  actorSignature := ""
  ledgerSignature := ""
  delegationDepth := none
  sessionId := none
  createdAt := request.now

def insertReservation (request : ReserveRequest) (currentCumulative : JsNumber) (db : Database) :
    Database :=
  { db with
    records := db.records.insertOrIgnore (reservationRow request currentCumulative db.nextUUID) }

/-- The decision after the aggregation, with the database it commits. -/
def reserve (request : ReserveRequest) (currentCumulative : JsNumber) (db : Database) :
    ReserveResult × Database :=
  if exceeds currentCumulative request.reserveAmount request.max then
    (⟨false, currentCumulative⟩, db)
  else (⟨true, currentCumulative⟩, insertReservation request currentCumulative db)

/-- The whole transaction, undisturbed. -/
def checkAndReserve (request : ReserveRequest) (db : Database) : Option ReserveResult × Database :=
  match meterFieldRegistry request.meterField.metric with
  | none => (none, db)
  | some entry =>
      match findReservation db.records request.recordId with
      | some existing => (some (existingResult request existing), db)
      | none =>
          let currentCumulative := aggregateWithClient entry request.agentDid request.windowStart
            request.now (db.clock - pendingTtlMs) db.records
          let (result, db') := reserve request currentCumulative db
          (some result, db')

/-! ## Settling -/

structure SettleRequest where
  recordId : String
  resultStatus : ResultStatus
  settledAmount : Option JsNumber

/-- The settled amount would exceed the limit: the transaction is rolled back. -/
structure SettleError where
  effectiveAmount : JsNumber
  cumulativeAtReserve : ℚ
  max : ℚ
  recordId : String

/-- The registry entry of the metric a reservation was made for. -/
def reservationEntry (reservation : ActionRecordRow) : Option MeterFieldEntry :=
  match reservation.field "metric" with
  | some (.str metric) => meterFieldRegistry metric
  | _ => none

def reservedAmount (reservation : ActionRecordRow) : ℚ :=
  (number? (reservation.field "reserveAmount")).getD 0

/-- The amount a settlement stores. -/
def effectiveAmount (request : SettleRequest) (reservation : ActionRecordRow) : JsNumber :=
  request.settledAmount.getD (.finite (reservedAmount reservation))

/-- The limit is checked again for a higher amount only, against the cumulative
value of the time of the reservation. A reservation without a maximum has none. -/
def recheck (request : SettleRequest) (reservation : ActionRecordRow) : Option SettleError :=
  let effective := effectiveAmount request reservation
  let cumulativeAtReserve := (number? (reservation.field "cumulativeAtReserve")).getD 0
  match number? (reservation.field "max") with
  | none => none
  | some max =>
      if effective.gt (reservedAmount reservation) ∧
          exceeds (.finite cumulativeAtReserve) effective max then
        some ⟨effective, cumulativeAtReserve, max, request.recordId⟩
      else none

def newStatus (entry : MeterFieldEntry) (request : SettleRequest) (reservation : ActionRecordRow) :
    Except SettleError RecordStatus :=
  match entry.aggregation with
  | .count =>
      match entry.countFilter with
      | .all => .ok .settled
      | .success => .ok (if request.resultStatus = .success then .settled else .released)
  | .sum =>
      if request.resultStatus ≠ .success then .ok .released
      else
        match recheck request reservation with
        | some error => .error error
        | none => .ok .settled

def updatedResultSummary (request : SettleRequest) (reservation : ActionRecordRow)
    (status : RecordStatus) : ResultSummary :=
  (((reservation.resultSummary.getD OrderedMap.empty)
    |>.set "status" (.str status.text))
    |>.set "resultStatus" (.str request.resultStatus.text))
    |>.set "settledAmount" (effectiveAmount request reservation).toJson

def ActionRecordRow.withResultSummary (summary : ResultSummary) (row : ActionRecordRow) :
    ActionRecordRow :=
  if row.isReservation then { row with resultSummary := some summary } else row

@[simp] theorem ActionRecordRow.withResultSummary_recordId (summary : ResultSummary)
    (row : ActionRecordRow) : (row.withResultSummary summary).recordId = row.recordId := by
  unfold withResultSummary
  split <;> rfl

/-- `UPDATE … SET result_summary` of the reservation, from the copy read before. -/
def updateReservation (request : SettleRequest) (reservation : ActionRecordRow)
    (status : RecordStatus) (records : ActionRecords) : ActionRecords :=
  records.update request.recordId
    (ActionRecordRow.withResultSummary (updatedResultSummary request reservation status))
    (ActionRecordRow.withResultSummary_recordId _)

/-- What a settlement does with the reservation it has read. -/
def settle (request : SettleRequest) (reservation : ActionRecordRow) (records : ActionRecords) :
    Except SettleError ActionRecords :=
  match reservationEntry reservation with
  | none => .ok records
  | some entry =>
      match newStatus entry request reservation with
      | .error error => .error error
      | .ok status => .ok (updateReservation request reservation status records)

/-- The whole settlement, undisturbed. -/
def doSettle (request : SettleRequest) (records : ActionRecords) :
    Except SettleError ActionRecords :=
  match findReservation records request.recordId with
  | none => .ok records
  | some reservation => settle request reservation records

/-! ## What the statements write -/

section Reservations

variable (request : ReserveRequest) (cumulative : JsNumber) (placeholder : String)

@[simp] theorem reservationRow_isReservation :
    (reservationRow request cumulative placeholder).isReservation := rfl

theorem reservationRow_hasStatus :
    (reservationRow request cumulative placeholder).hasStatus .pending := by
  rw [ActionRecordRow.hasStatus_iff]
  simp [reservationRow, ActionRecordRow.field, OrderedMap.get?_set]

theorem reservationRow_metric :
    (reservationRow request cumulative placeholder).field "metric" =
      some (.str request.meterField.metric) := by
  simp [reservationRow, ActionRecordRow.field, OrderedMap.get?_set]

theorem reservationRow_reserveAmount :
    (reservationRow request cumulative placeholder).field "reserveAmount" =
      some request.reserveAmount.toJson := by
  simp [reservationRow, ActionRecordRow.field, OrderedMap.get?_set]

end Reservations

section Rows

variable {records : ActionRecords} {request : SettleRequest} {reservation row : ActionRecordRow}
  {status : RecordStatus}

theorem findReservation_eq_some {recordId : String} :
    findReservation records recordId = some row ↔
      row ∈ records.rows ∧ row.recordId = recordId ∧ row.isReservation := by
  constructor
  · intro hfind
    have hrow := List.find?_some hfind
    exact ⟨List.mem_of_find?_eq_some hfind, by simpa using hrow⟩
  · rintro ⟨hmem, rfl, hres⟩
    cases hfind : findReservation records row.recordId with
    | none =>
        have hnone := List.find?_eq_none.mp hfind row hmem
        simp [hres] at hnone
    | some other =>
        have hother := List.find?_some hfind
        simp only [decide_eq_true_eq] at hother
        rw [List.inj_on_of_nodup_map records.nodup (List.mem_of_find?_eq_some hfind) hmem hother.1]

theorem findReservation_eq_none {recordId : String} :
    findReservation records recordId = none ↔
      ∀ row ∈ records.rows, row.recordId = recordId → ¬ row.isReservation := by
  simp [findReservation]

/-- A reservation adds one to a count and its amount to a sum. -/
theorem rowAmount_of_reserveAmount (entry : MeterFieldEntry) {amount : ℚ} (hres : row.isReservation)
    (hamount : row.field "reserveAmount" = some (.num amount)) :
    rowAmount entry row = if entry.aggregation = .count then 1 else amount := by
  unfold rowAmount
  rw [if_pos hres, hamount]
  cases entry.aggregation <;> simp [number?]

theorem withResultSummary_field (summary : ResultSummary) (hres : row.isReservation)
    (name : String) : (row.withResultSummary summary).field name = summary.get? name := by
  simp [ActionRecordRow.withResultSummary, hres, ActionRecordRow.field]

@[simp] theorem withResultSummary_agentDid (summary : ResultSummary) :
    (row.withResultSummary summary).agentDid = row.agentDid := by
  unfold ActionRecordRow.withResultSummary
  split <;> rfl

@[simp] theorem withResultSummary_createdAt (summary : ResultSummary) :
    (row.withResultSummary summary).createdAt = row.createdAt := by
  unfold ActionRecordRow.withResultSummary
  split <;> rfl

@[simp] theorem withResultSummary_isReservation (summary : ResultSummary) :
    (row.withResultSummary summary).isReservation ↔ row.isReservation := by
  unfold ActionRecordRow.withResultSummary
  split <;> rfl

theorem mem_updateReservation :
    row ∈ (updateReservation request reservation status records).rows ↔
      (∃ old ∈ records.rows, old.recordId = request.recordId ∧
        row = old.withResultSummary (updatedResultSummary request reservation status)) ∨
      (row ∈ records.rows ∧ row.recordId ≠ request.recordId) :=
  Table.mem_update

theorem updatedResultSummary_status :
    (updatedResultSummary request reservation status).get? "status" = some (.str status.text) := by
  simp [updatedResultSummary, OrderedMap.get?_set]

/-- A settlement writes back the other fields it has read. -/
theorem updatedResultSummary_get? {name : String} (hstatus : "status" ≠ name)
    (hresult : "resultStatus" ≠ name) (hsettled : "settledAmount" ≠ name) :
    (updatedResultSummary request reservation status).get? name = reservation.field name := by
  simp only [updatedResultSummary, OrderedMap.get?_set, hstatus, hresult, hsettled, if_false,
    ActionRecordRow.field]
  cases reservation.resultSummary <;> simp

/-- What does not exceed a limit, from bounds on, is a number, and so is the sum. -/
theorem exists_finite_of_not_exceeds {used max bound : ℚ} {cumulative amount : JsNumber}
    (hused : cumulative.AtLeast used) (hbound : amount.AtLeast bound)
    (hadds : cumulative.AddsUp amount) (hmax : ¬ exceeds cumulative amount max) :
    ∃ value, amount = .finite value ∧ bound ≤ value ∧ used + value ≤ max := by
  cases amount with
  | nan => exact absurd hbound id
  | negInf => exact absurd hbound id
  | finite value =>
      refine ⟨value, rfl, hbound, ?_⟩
      cases cumulative with
      | nan => exact absurd hused id
      | negInf => exact absurd hused id
      | finite total =>
          have hsum : total + value ≤ max := JsNumber.AtLeast.le_of_not_gt hadds hmax
          have htotal : used ≤ total := hused
          linarith
      | posInf => exact absurd trivial hmax
  | posInf =>
      cases cumulative with
      | nan => exact absurd hused id
      | negInf => exact absurd hused id
      | finite total => exact absurd trivial hmax
      | posInf => exact absurd trivial hmax

end Rows

end Coivitas.Policy
