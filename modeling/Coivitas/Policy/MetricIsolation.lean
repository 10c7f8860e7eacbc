import Coivitas.Policy.ReservationFinality

/-! # What other metrics do to a cumulative value

All metrics share one table. A reservation row names its metric, but the
aggregation does not ask for it, so the value of one metric is free of the
others exactly when their reservations carry no weight in it.
-/

namespace Coivitas.Policy

open Foundation Coivitas.Types

/-- An ordinary record, or a reservation of the metric. -/
def ActionRecordRow.OfMetric (metric : String) (row : ActionRecordRow) : Prop :=
  ¬ row.isReservation ∨ row.field "metric" = some (.str metric)

instance (metric : String) : DecidablePred (ActionRecordRow.OfMetric metric) :=
  fun _ => inferInstanceAs (Decidable (_ ∨ _))

/-- The value over the ordinary records and the reservations of the metric alone. -/
def ownValue (metric : String) (entry : MeterFieldEntry) (agentDid : String)
    (windowStart now pendingCutoff : Int) (records : ActionRecords) : JsNumber :=
  JsNumber.sum ((records.rows.filter fun row =>
    Selected entry agentDid windowStart now pendingCutoff row ∧ row.OfMetric metric).map
      (rowAmount entry))

/-- The aggregated value, for every agent and window, is that of the rows of the metric. -/
def DependsOnOwn (metric : String) (entry : MeterFieldEntry) (records : ActionRecords) : Prop :=
  ∀ agentDid windowStart now pendingCutoff,
    aggregateWithClient entry agentDid windowStart now pendingCutoff records =
      ownValue metric entry agentDid windowStart now pendingCutoff records

/-- The aggregated value, for every agent and window, is the same in both tables. -/
def SameValues (entry : MeterFieldEntry) (records records' : ActionRecords) : Prop :=
  ∀ agentDid windowStart now pendingCutoff,
    aggregateWithClient entry agentDid windowStart now pendingCutoff records' =
      aggregateWithClient entry agentDid windowStart now pendingCutoff records

/-- A reservation of another metric, or the settlement of one. -/
def QuotaCall.OfOther (metric : String) (db : Database) : QuotaCall → Prop
  | .reserve request _ => request.meterField.metric ≠ metric
  | .settle request => ∀ row ∈ findReservation db.records request.recordId,
      row.field "metric" ≠ some (.str metric)
  | .record _ _ => False

/-- A call leaves the values of the metric alone, when it is made for another one, and leaves
a table whose values depend on the rows of the metric only. -/
def QuotaCall.Isolates (metric : String) (entry : MeterFieldEntry) (db : Database)
    (call : QuotaCall) : Prop :=
  ∀ db', call.step db = some db' →
    (call.OfOther metric db → SameValues entry db.records db'.records) ∧
      DependsOnOwn metric entry db'.records

/-- What a reserved amount adds to a value. -/
def reservedWeight (entry : MeterFieldEntry) (amount : JsNumber) : ℚ :=
  match amount, entry.aggregation with
  | .finite value, .sum => value
  | .finite _, .count => 1
  | _, _ => 0

/-- The request finds its metric registered, its record id unused and its limit open. -/
def Granted (request : ReserveRequest) (clock : Int) (db : Database) : Prop :=
  ∃ entry, meterFieldRegistry request.meterField.metric = some entry ∧
    request.recordId ∉ db.records.rows.map ActionRecordRow.recordId ∧
    ¬ exceeds (aggregateWithClient entry request.agentDid request.windowStart request.now
      (clock - pendingTtlMs) db.records) request.reserveAmount request.max

/-- A reservation granted for another metric has no weight in this one. -/
def QuotaCall.Weightless (metric : String) (entry : MeterFieldEntry) (db : Database) :
    QuotaCall → Prop
  | .reserve request clock => request.meterField.metric ≠ metric → Granted request clock db →
      reservedWeight entry request.reserveAmount = 0
  | .settle _ | .record _ _ => True

/-- A sum is not rounded. -/
def JsNumber.Exactly (a : JsNumber) (amount : ℚ) : Prop :=
  ∃ value, a = .finite value ∧ a.plus (.finite amount) = .finite (value + amount)

/-- What a reservation adds to the sum of the rows of its own instant is not rounded. -/
def QuotaCall.Unrounded (entry : MeterFieldEntry) (db : Database) : QuotaCall → Prop
  | .reserve request _ =>
      (aggregateWithClient entry request.agentDid request.now request.now request.now
        db.records).Exactly (reservedWeight entry request.reserveAmount)
  | .settle _ | .record _ _ => True

/-- The reservations of other metrics have no weight. -/
def ForeignWeightless (metric : String) (entry : MeterFieldEntry) (records : ActionRecords) :
    Prop :=
  ∀ row ∈ records.rows, ¬ row.OfMetric metric → rowAmount entry row = 0

section Values

variable {metric : String} {entry : MeterFieldEntry} {records : ActionRecords}

theorem aggregateWithClient_eq_sum (agentDid : String) (windowStart now pendingCutoff : Int) :
    aggregateWithClient entry agentDid windowStart now pendingCutoff records =
      JsNumber.sum (records.rows.map fun row =>
        if Selected entry agentDid windowStart now pendingCutoff row then rowAmount entry row
        else 0) :=
  JsNumber.sum_filter _ _ _

theorem dependsOnOwn_of_foreignWeightless (hforeign : ForeignWeightless metric entry records) :
    DependsOnOwn metric entry records := by
  intro agentDid windowStart now pendingCutoff
  rw [aggregateWithClient_eq_sum, ownValue, JsNumber.sum_filter]
  refine congrArg JsNumber.sum (List.map_congr_left fun row hrow => ?_)
  by_cases hown : row.OfMetric metric
  · simp only [hown, and_true]
  · simp only [hown, and_false, hforeign row hrow hown, ite_self]

theorem rowAmount_reservationRow (request : ReserveRequest) (cumulative : JsNumber)
    (placeholder : String) :
    rowAmount entry (reservationRow request cumulative placeholder) =
      reservedWeight entry request.reserveAmount := by
  unfold rowAmount
  rw [if_pos (reservationRow_isReservation _ _ _), reservationRow_reserveAmount]
  cases request.reserveAmount <;> cases haggregation : entry.aggregation <;>
    simp [reservedWeight, JsNumber.toJson, number?, haggregation]

/-- A new row adds its weight to the values that select it. -/
theorem aggregateWithClient_append {records' : ActionRecords} {row : ActionRecordRow}
    (hrows : records'.rows = records.rows ++ [row]) (agentDid : String)
    (windowStart now pendingCutoff : Int) :
    aggregateWithClient entry agentDid windowStart now pendingCutoff records' =
      (aggregateWithClient entry agentDid windowStart now pendingCutoff records).plus (.finite
        (if Selected entry agentDid windowStart now pendingCutoff row then rowAmount entry row
        else 0)) := by
  rw [aggregateWithClient_eq_sum, aggregateWithClient_eq_sum, hrows, List.map_append,
    List.map_singleton, JsNumber.sum_append]

/-- A `PENDING` reservation is selected by the window of its own instant. -/
theorem selected_reservationRow (request : ReserveRequest) (cumulative : JsNumber)
    (placeholder : String) :
    Selected entry request.agentDid request.now request.now request.now
      (reservationRow request cumulative placeholder) := by
  have hpending := reservationRow_hasStatus request cumulative placeholder
  have hres := reservationRow_isReservation request cumulative placeholder
  refine ⟨rfl, le_refl request.now, le_refl request.now, ?_⟩
  have hother : ∀ status, status ≠ RecordStatus.pending →
      ¬ (reservationRow request cumulative placeholder).hasStatus status :=
    fun status hne hstatus => hne (ActionRecordRow.hasStatus_unique hstatus hpending)
  cases hfilter : entry.countFilter with
  | success => exact Or.inr (Or.inr ⟨hres, hpending, le_refl request.now⟩)
  | all =>
      exact ⟨⟨hpending.hasStatusText, hother _ (by simp), hother _ (by simp), hother _ (by simp)⟩,
        Or.inr ⟨hres, le_refl request.now⟩⟩

end Values

section Steps

variable {metric : String} {entry : MeterFieldEntry} {db db' : Database}

/-- A reservation is written exactly when it is granted. -/
theorem reserve_cases (request : ReserveRequest) (clock : Int) (db : Database) :
    (¬ Granted request clock db ∧
      (checkAndReserve request { db with clock }).2.records = db.records) ∨
    (Granted request clock db ∧ ∃ cumulative placeholder,
      (checkAndReserve request { db with clock }).2.records.rows =
        db.records.rows ++ [reservationRow request cumulative placeholder]) := by
  by_cases hused : request.recordId ∈ db.records.rows.map ActionRecordRow.recordId
  · left
    refine ⟨fun ⟨_, _, hfree, _⟩ => hfree hused, ?_⟩
    obtain hsame | ⟨cumulative, hinsert⟩ := checkAndReserve_cases request { db with clock }
    · rw [hsame]
    · rw [hinsert]
      exact Table.insertOrIgnore_of_mem hused
  · have hfind : findReservation db.records request.recordId = none :=
      findReservation_eq_none.mpr fun row hrow hid =>
        absurd (List.mem_map.mpr ⟨row, hrow, hid⟩) hused
    unfold checkAndReserve
    cases hregistry : meterFieldRegistry request.meterField.metric with
    | none =>
        left
        refine ⟨?_, rfl⟩
        rintro ⟨entry, hentry, -⟩
        rw [hregistry] at hentry
        cases hentry
    | some entry =>
        simp only [hfind, reserve]
        split
        next hexceeds =>
          left
          refine ⟨?_, rfl⟩
          rintro ⟨entry', hentry, -, hopen⟩
          obtain rfl := Option.some.inj (hregistry.symm.trans hentry)
          exact hopen hexceeds
        next hopen =>
          right
          exact ⟨⟨entry, hregistry, hused, hopen⟩, _, _, Table.rows_insertOrIgnore hused⟩

/-- A settled row has the metric and the weight it had. -/
theorem settled_ofMetric_and_amount {request : SettleRequest} {row : ActionRecordRow}
    {status : RecordStatus} (hres : row.isReservation) :
    ((row.withResultSummary (updatedResultSummary request row status)).OfMetric metric ↔
        row.OfMetric metric) ∧
      rowAmount entry (row.withResultSummary (updatedResultSummary request row status)) =
        rowAmount entry row := by
  have hfield : ∀ name, "status" ≠ name → "resultStatus" ≠ name → "settledAmount" ≠ name →
      (row.withResultSummary (updatedResultSummary request row status)).field name =
        row.field name := by
    intro name hstatus hresult hsettled
    rw [withResultSummary_field _ hres, updatedResultSummary_get? hstatus hresult hsettled]
  constructor
  · unfold ActionRecordRow.OfMetric
    rw [withResultSummary_isReservation, hfield "metric" (by decide) (by decide) (by decide)]
  · unfold rowAmount
    rw [if_pos hres, if_pos ((withResultSummary_isReservation _).mpr hres),
      hfield "reserveAmount" (by decide) (by decide) (by decide)]

theorem ForeignWeightless.settle {request : SettleRequest}
    (hforeign : ForeignWeightless metric entry db.records) :
    ForeignWeightless metric entry (settleReservation request db).records := by
  obtain ⟨hsame, -⟩ | ⟨row, settled, hfind, -, -, hupdate⟩ := @settleReservation_cases db request
  · rw [hsame]
    exact hforeign
  · rw [hupdate]
    obtain ⟨hmem, hid, hres⟩ := findReservation_eq_some.mp hfind
    intro found hfound hother
    obtain ⟨old, hold, holdId, rfl⟩ | ⟨hfound, -⟩ := mem_updateReservation.mp hfound
    · obtain rfl := List.inj_on_of_nodup_map db.records.nodup hold hmem (holdId.trans hid.symm)
      have hkept := @settled_ofMetric_and_amount metric entry request old
        (settledStatus settled request.resultStatus) hres
      rw [hkept.2]
      exact hforeign old hold fun hown => hother (hkept.1.mpr hown)
    · exact hforeign found hfound hother

/-- Settling a reservation without weight changes no value. -/
theorem sameValues_settle {request : SettleRequest}
    (hforeign : ForeignWeightless metric entry db.records)
    (hother : ∀ row ∈ findReservation db.records request.recordId,
      row.field "metric" ≠ some (.str metric)) :
    SameValues entry db.records (settleReservation request db).records := by
  obtain ⟨hsame, -⟩ | ⟨row, _, hfind, -, -, hupdate⟩ := @settleReservation_cases db request
  · rw [hsame]
    intro agentDid windowStart now pendingCutoff
    rfl
  · rw [hupdate]
    obtain ⟨hmem, hid, hres⟩ := findReservation_eq_some.mp hfind
    have hweight : rowAmount entry row = 0 :=
      hforeign row hmem fun hown => hown.elim (fun hordinary => hordinary hres) (hother row hfind)
    intro agentDid windowStart now pendingCutoff
    rw [aggregateWithClient_eq_sum, aggregateWithClient_eq_sum]
    simp only [updateReservation, Table.update, List.map_map]
    refine congrArg JsNumber.sum (List.map_congr_left fun old hold => ?_)
    simp only [Function.comp_apply]
    by_cases holdId : old.recordId = request.recordId
    · obtain rfl := List.inj_on_of_nodup_map db.records.nodup hold hmem (holdId.trans hid.symm)
      rw [if_pos holdId, (@settled_ofMetric_and_amount metric entry request old _ hres).2, hweight]
      simp only [ite_self]
    · rw [if_neg holdId]

theorem not_ofMetric_reservationRow {request : ReserveRequest} (cumulative : JsNumber)
    (placeholder : String) :
    ¬ (reservationRow request cumulative placeholder).OfMetric metric ↔
      request.meterField.metric ≠ metric := by
  simp [ActionRecordRow.OfMetric, reservationRow_metric]

/-- A call that meets the condition keeps the reservations of other metrics weightless. -/
theorem ForeignWeightless.step {call : QuotaCall}
    (hforeign : ForeignWeightless metric entry db.records)
    (hcall : call.Weightless metric entry db) (hstep : call.step db = some db') :
    ForeignWeightless metric entry db'.records := by
  cases call with
  | reserve request clock =>
      obtain rfl := Option.some.inj hstep
      obtain ⟨-, hsame⟩ | ⟨hgranted, cumulative, placeholder, hrows⟩ :=
        reserve_cases request clock db
      · rw [hsame]
        exact hforeign
      · intro row hrow hother
        rw [hrows] at hrow
        rcases List.mem_append.mp hrow with hold | hnew
        · exact hforeign row hold hother
        · obtain rfl := List.mem_singleton.mp hnew
          rw [rowAmount_reservationRow]
          exact hcall ((not_ofMetric_reservationRow _ _).mp hother) hgranted
  | settle request =>
      obtain rfl := Option.some.inj hstep
      exact hforeign.settle
  | record row ordinary =>
      obtain rfl := Option.some.inj hstep
      intro found hfound hother
      rcases Table.mem_insertOrIgnore hfound with hold | rfl
      · exact hforeign found hold hother
      · exact absurd (Or.inl ordinary) hother

/-- A sum of doubles is what it was when a row without weight is added. -/
theorem aggregateWithClient_plus_zero (agentDid : String) (windowStart now pendingCutoff : Int) :
    (aggregateWithClient entry agentDid windowStart now pendingCutoff db.records).plus (.finite 0) =
      aggregateWithClient entry agentDid windowStart now pendingCutoff db.records :=
  JsNumber.sum_plus_zero _

/-- One call isolates the metric when it meets the condition. -/
theorem QuotaCall.Weightless.isolates {call : QuotaCall}
    (hforeign : ForeignWeightless metric entry db.records)
    (hcall : call.Weightless metric entry db) : call.Isolates metric entry db := by
  intro db' hstep
  refine ⟨fun hother => ?_, dependsOnOwn_of_foreignWeightless (hforeign.step hcall hstep)⟩
  cases call with
  | reserve request clock =>
      obtain rfl := Option.some.inj hstep
      obtain ⟨-, hsame⟩ | ⟨hgranted, cumulative, placeholder, hrows⟩ :=
        reserve_cases request clock db
      · rw [hsame]
        intro agentDid windowStart now pendingCutoff
        rfl
      · intro agentDid windowStart now pendingCutoff
        rw [aggregateWithClient_append hrows, rowAmount_reservationRow, hcall hother hgranted,
          ite_self, aggregateWithClient_plus_zero]
  | settle request =>
      obtain rfl := Option.some.inj hstep
      exact sameValues_settle hforeign hother
  | record row ordinary => exact absurd hother id

/-- A call that isolates the metric meets the condition, unless its amount is rounded away. -/
theorem QuotaCall.Isolates.weightless {call : QuotaCall}
    (hisolates : call.Isolates metric entry db) (hunrounded : call.Unrounded entry db) :
    call.Weightless metric entry db := by
  cases call with
  | reserve request clock =>
      intro hother hgranted
      obtain ⟨hnot, -⟩ | ⟨-, cumulative, placeholder, hrows⟩ := reserve_cases request clock db
      · exact absurd hgranted hnot
      · obtain ⟨value, hvalue, hsum⟩ := hunrounded
        have hsame := (hisolates _ rfl).1 hother request.agentDid request.now request.now
          request.now
        rw [aggregateWithClient_append hrows, if_pos (selected_reservationRow _ _ _),
          rowAmount_reservationRow, hsum, hvalue, JsNumber.finite.injEq, add_eq_left] at hsame
        exact hsame
  | settle request => trivial
  | record row ordinary => trivial

end Steps

/-- Over every history from a table of ordinary records: each call leaves the metric isolated if
each reservation granted for another metric has no weight in it, and only then if what the
reservations add is not rounded. -/
theorem metric_isolated_iff {metric : String} {entry : MeterFieldEntry} {db : Database}
    (hordinary : ∀ row ∈ db.records.rows, ¬ row.isReservation) (calls : List QuotaCall) :
    (Along QuotaCall.step (QuotaCall.Weightless metric entry) db calls →
      Along QuotaCall.step (QuotaCall.Isolates metric entry) db calls) ∧
    (Along QuotaCall.step (QuotaCall.Unrounded entry) db calls →
      (Along QuotaCall.step (QuotaCall.Isolates metric entry) db calls ↔
        Along QuotaCall.step (QuotaCall.Weightless metric entry) db calls)) := by
  have hstart : ForeignWeightless metric entry db.records :=
    fun row hrow hother => absurd (Or.inl (hordinary row hrow)) hother
  have hisolated : Along QuotaCall.step (QuotaCall.Weightless metric entry) db calls →
      Along QuotaCall.step (QuotaCall.Isolates metric entry) db calls :=
    Along.of_invariant (fun db => ForeignWeightless metric entry db.records)
      (fun _ _ _ hforeign hcall => hforeign.step hcall)
      (fun _ _ hforeign hcall => hcall.isolates hforeign) hstart
  refine ⟨hisolated, fun hunrounded => ⟨fun hisolates => ?_, hisolated⟩⟩
  exact (hisolates.and hunrounded).mono fun _ _ hcall => hcall.1.weightless hcall.2

/-! ## A counted call adds to an amount -/

namespace Interference

open Resettled (start reserveSixty settleWith)

def amountEntry : MeterFieldEntry := ⟨.sum, some "amount", some "amount", .success⟩

def callCount : MeterFieldRef :=
  ⟨.actionRecord, "api_call_count", none, none, MeterKey.all, .refl _⟩

/-- Some calls of at most ten are counted. -/
def countCalls (amount : ℚ) : QuotaCall :=
  .reserve ⟨"936da01f-9abd-4d9d-80c7-02af85c822a8", "did:agent:payer", callCount, 0, 1000, 10,
    .finite amount⟩ 1000

theorem amount_after_countCalls :
    ((QuotaCall.step start (countCalls 1)).map fun db =>
      aggregateWithClient amountEntry "did:agent:payer" 0 1000 0 db.records) =
        some (.finite 1) := by
  decide +kernel

/-- A reservation of `api_call_count` changes the value of `transaction_amount`. -/
theorem countCalls_changes_amount :
    ¬ ∀ (metric : String) (entry : MeterFieldEntry) (db : Database) (calls : List QuotaCall),
      meterFieldRegistry metric = some entry →
        (∀ row ∈ db.records.rows, ¬ row.isReservation) →
          Along QuotaCall.step (QuotaCall.Isolates metric entry) db calls := by
  intro hclaim
  have hcall := (hclaim "transaction_amount" amountEntry start [countCalls 1] rfl
    (by simp [start, Table.empty])).1
  obtain ⟨db', hstep, hvalue⟩ := Option.map_eq_some_iff.mp amount_after_countCalls
  have hsame := (hcall db' hstep).1 (by decide : callCount.metric ≠ "transaction_amount")
    "did:agent:payer" 0 1000 0
  rw [hvalue] at hsame
  exact absurd hsame (by decide)

/-- Reservations of the metric itself, and of no calls at all, leave it isolated. -/
theorem amount_isolated :
    Along QuotaCall.step (QuotaCall.Isolates "transaction_amount" amountEntry) start
      [reserveSixty, countCalls 0, settleWith .success] :=
  (metric_isolated_iff (by simp [start, Table.empty]) _).1
    ⟨fun hother => absurd rfl hother, fun _ _ => rfl, trivial, trivial⟩

end Interference

end Coivitas.Policy
