import Coivitas.Foundation.Run
import Coivitas.Policy.PostgresTracker

/-! # Finality of settlements

Calls of the tracker one after the other. A settlement finds the reservation
by its record id alone and rewrites it, so a row that has left `PENDING` stays
as it is exactly when every later settlement repeats the outcome it records.
-/

namespace Coivitas.Policy

open Foundation Coivitas.Types

/-- Without a client of its own the settlement is a transaction; an error rolls it back. -/
def settleReservation (request : SettleRequest) (db : Database) : Database :=
  match doSettle request db.records with
  | .ok records => { db with records }
  | .error _ => db

/-- A call on the tracker, or the record of an action written by the recorder. A reservation
reads the clock. -/
inductive QuotaCall where
  | reserve (request : ReserveRequest) (clock : Int)
  | settle (request : SettleRequest)
  | record (row : ActionRecordRow) (ordinary : ¬ row.isReservation)

def QuotaCall.step (db : Database) : QuotaCall → Option Database
  | .reserve request clock => some (checkAndReserve request { db with clock }).2
  | .settle request => some (settleReservation request db)
  | .record row _ => some { db with records := db.records.insertOrIgnore row }

/-- The status a settlement of a result gives, when the limit does not refuse it. -/
def settledStatus (entry : MeterFieldEntry) (resultStatus : ResultStatus) : RecordStatus :=
  match entry.aggregation, entry.countFilter with
  | .count, .all => .settled
  | _, _ => if resultStatus = .success then .settled else .released

/-- The settlement throws: the limit refuses the amount. -/
def LimitRefuses (entry : MeterFieldEntry) (request : SettleRequest) (row : ActionRecordRow) :
    Prop :=
  entry.aggregation = .sum ∧ request.resultStatus = .success ∧ (recheck request row).isSome = true

/-- The request has the result and the amount that the row records. -/
def SameOutcome (request : SettleRequest) (row : ActionRecordRow) : Prop :=
  row.field "resultStatus" = some (.str request.resultStatus.text) ∧
    row.field "settledAmount" = some (effectiveAmount request row).toJson

/-- A settlement of a reservation that has left `PENDING` is refused or repeats its outcome. -/
def QuotaCall.RepeatsOutcome (db : Database) : QuotaCall → Prop
  | .reserve _ _ | .record _ _ => True
  | .settle request => ∀ row ∈ findReservation db.records request.recordId,
      ¬ row.hasStatus .pending → ∀ entry ∈ reservationEntry row,
        LimitRefuses entry request row ∨ SameOutcome request row

instance (entry : MeterFieldEntry) (request : SettleRequest) (row : ActionRecordRow) :
    Decidable (LimitRefuses entry request row) :=
  inferInstanceAs (Decidable (_ ∧ _))

instance (request : SettleRequest) (row : ActionRecordRow) : Decidable (SameOutcome request row) :=
  inferInstanceAs (Decidable (_ ∧ _))

instance (db : Database) : DecidablePred (QuotaCall.RepeatsOutcome db)
  | .reserve _ _ | .record _ _ => instDecidableTrue
  | .settle request => inferInstanceAs
      (Decidable (∀ row ∈ findReservation db.records request.recordId, _ → _))

/-- Reservations that have left `PENDING` are the same rows later. -/
def SettledFinal (db db' : Database) : Prop :=
  ∀ recordId row, findReservation db.records recordId = some row → ¬ row.hasStatus .pending →
    findReservation db'.records recordId = some row

/-- A reservation that has left `PENDING` has the status of the result it records. -/
def OutcomeRecorded (db : Database) : Prop :=
  ∀ row ∈ db.records.rows, row.isReservation → ¬ row.hasStatus .pending →
    ∀ entry, reservationEntry row = some entry → ∃ resultStatus : ResultStatus,
      row.field "resultStatus" = some (.str resultStatus.text) ∧
        row.hasStatus (settledStatus entry resultStatus)

theorem SettledFinal.refl (db : Database) : SettledFinal db db := fun _ _ hfind _ => hfind

theorem SettledFinal.trans {db₁ db₂ db₃ : Database} (h₁₂ : SettledFinal db₁ db₂)
    (h₂₃ : SettledFinal db₂ db₃) : SettledFinal db₁ db₃ :=
  fun recordId row hfind hstatus =>
    h₂₃ recordId row (h₁₂ recordId row hfind hstatus) hstatus

theorem ResultStatus.text_inj {a b : ResultStatus} (h : a.text = b.text) : a = b :=
  RecordStatus.result.inj (RecordStatus.text_inj.mp h)

/-! ## One call -/

section Steps

variable {db : Database} {request : SettleRequest} {entry : MeterFieldEntry}
  {row : ActionRecordRow}

/-- A settlement is refused by the limit or gives the status of its result. -/
theorem newStatus_cases :
    (LimitRefuses entry request row ∧ ∃ error, newStatus entry request row = .error error) ∨
      (¬ LimitRefuses entry request row ∧
        newStatus entry request row = .ok (settledStatus entry request.resultStatus)) := by
  cases haggregation : entry.aggregation with
  | count =>
      refine Or.inr ⟨fun hrefused => ?_, ?_⟩
      · rw [hrefused.1] at haggregation
        cases haggregation
      · cases hfilter : entry.countFilter <;> simp [newStatus, settledStatus, haggregation, hfilter]
  | sum =>
      by_cases hsuccess : request.resultStatus = .success
      · cases hrecheck : recheck request row with
        | some error =>
            left
            exact ⟨⟨haggregation, hsuccess, by simp [hrecheck]⟩, error,
              by simp [newStatus, haggregation, hsuccess, hrecheck]⟩
        | none =>
            right
            exact ⟨by simp [LimitRefuses, hrecheck],
              by simp [newStatus, settledStatus, haggregation, hsuccess, hrecheck]⟩
      · right
        exact ⟨fun hrefused => hsuccess hrefused.2.1,
          by simp [newStatus, settledStatus, haggregation, hsuccess]⟩

/-- What one settlement does to the table. -/
theorem settleReservation_cases :
    (settleReservation request db = db ∧
      ∀ row, findReservation db.records request.recordId = some row →
        ∀ entry, reservationEntry row = some entry → LimitRefuses entry request row) ∨
    ∃ row entry, findReservation db.records request.recordId = some row ∧
      reservationEntry row = some entry ∧ ¬ LimitRefuses entry request row ∧
      settleReservation request db = { db with
        records := updateReservation request row (settledStatus entry request.resultStatus)
          db.records } := by
  unfold settleReservation doSettle settle
  cases hfind : findReservation db.records request.recordId with
  | none => exact Or.inl ⟨rfl, by simp⟩
  | some row =>
      cases hentry : reservationEntry row with
      | none =>
          refine Or.inl ⟨by simp [hentry], ?_⟩
          rintro found hfound entry hentry'
          obtain rfl := Option.some.inj hfound
          rw [hentry] at hentry'
          cases hentry'
      | some entry =>
          obtain ⟨hrefused, error, hnew⟩ | ⟨hrefused, hnew⟩ :=
            @newStatus_cases request entry row
          · refine Or.inl ⟨by simp [hentry, hnew], ?_⟩
            rintro found hfound entry' hentry'
            obtain rfl := Option.some.inj hfound
            obtain rfl := Option.some.inj (hentry.symm.trans hentry')
            exact hrefused
          · exact Or.inr ⟨row, entry, rfl, hentry, hrefused, by simp [hentry, hnew]⟩

theorem findReservation_updateReservation {status : RecordStatus} {records : ActionRecords}
    (hfind : findReservation records request.recordId = some row) (recordId : String) :
    findReservation (updateReservation request row status records) recordId =
      if recordId = request.recordId then
        some (row.withResultSummary (updatedResultSummary request row status))
      else findReservation records recordId := by
  obtain ⟨hmem, hid, hres⟩ := findReservation_eq_some.mp hfind
  split
  next heq =>
    rw [findReservation_eq_some, heq]
    exact ⟨mem_updateReservation.mpr (.inl ⟨row, hmem, hid, rfl⟩), by simpa using hid,
      by simpa using hres⟩
  next hne =>
    apply Option.ext
    intro found
    rw [findReservation_eq_some, findReservation_eq_some, mem_updateReservation]
    constructor
    · rintro ⟨⟨old, -, hold, rfl⟩ | ⟨hfound, -⟩, rfl, hfoundRes⟩
      · exact absurd (by simpa using hold) hne
      · exact ⟨hfound, rfl, hfoundRes⟩
    · rintro ⟨hfound, rfl, hfoundRes⟩
      exact ⟨Or.inr ⟨hfound, hne⟩, rfl, hfoundRes⟩

/-- A settlement leaves the row as it is exactly when the row records its outcome. -/
theorem withResultSummary_eq_self_iff {status : RecordStatus} (hres : row.isReservation) :
    row.withResultSummary (updatedResultSummary request row status) = row ↔
      row.hasStatus status ∧ SameOutcome request row := by
  rw [ActionRecordRow.hasStatus_iff]
  constructor
  · intro hsame
    have hfield : ∀ name, row.field name = (updatedResultSummary request row status).get? name := by
      intro name
      rw [← withResultSummary_field _ hres, hsame]
    refine ⟨?_, ?_, ?_⟩
    · rw [hfield, updatedResultSummary_status]
    · rw [hfield]
      simp [updatedResultSummary, OrderedMap.get?_set]
    · rw [hfield]
      simp [updatedResultSummary, OrderedMap.get?_set]
  · rintro ⟨hstatus, hresult, hamount⟩
    cases hsummary : row.resultSummary with
    | none => simp [ActionRecordRow.field, hsummary] at hstatus
    | some summary =>
        simp only [ActionRecordRow.field, hsummary, Option.bind_some] at hstatus hresult hamount
        rw [ActionRecordRow.withResultSummary, if_pos hres, updatedResultSummary, hsummary,
          Option.getD_some, OrderedMap.set_eq_self hstatus, OrderedMap.set_eq_self hresult,
          OrderedMap.set_eq_self hamount, ← hsummary]

theorem reservationEntry_withResultSummary {status : RecordStatus} (hres : row.isReservation) :
    reservationEntry (row.withResultSummary (updatedResultSummary request row status)) =
      reservationEntry row := by
  unfold reservationEntry
  rw [withResultSummary_field _ hres,
    updatedResultSummary_get? (by decide) (by decide) (by decide)]

/-- A reservation request adds at most one `PENDING` row. -/
theorem checkAndReserve_cases (request : ReserveRequest) (db : Database) :
    (checkAndReserve request db).2 = db ∨
      ∃ cumulative, (checkAndReserve request db).2 = insertReservation request cumulative db := by
  unfold checkAndReserve
  cases meterFieldRegistry request.meterField.metric with
  | none => exact Or.inl rfl
  | some entry =>
      cases findReservation db.records request.recordId with
      | some existing => exact Or.inl rfl
      | none =>
          simp only [reserve]
          split
          next => exact Or.inl rfl
          next => exact Or.inr ⟨_, rfl⟩

/-- Every call keeps the invariant. -/
theorem OutcomeRecorded.step {db' : Database} {call : QuotaCall} (hrecorded : OutcomeRecorded db)
    (hstep : call.step db = some db') : OutcomeRecorded db' := by
  cases call with
  | reserve request clock =>
      obtain rfl := Option.some.inj hstep
      obtain hsame | ⟨cumulative, hinsert⟩ := checkAndReserve_cases request { db with clock }
      · rw [hsame]
        exact hrecorded
      · rw [hinsert]
        intro row hrow hres hstatus
        rcases Table.mem_insertOrIgnore hrow with hold | rfl
        · exact hrecorded row hold hres hstatus
        · exact absurd (reservationRow_hasStatus _ _ _) hstatus
  | settle request =>
      obtain rfl := Option.some.inj hstep
      obtain ⟨hsame, -⟩ | ⟨row, entry, hfind, hentry, -, hupdate⟩ :=
        @settleReservation_cases db request
      · rw [hsame]
        exact hrecorded
      · rw [hupdate]
        obtain ⟨hmem, hid, hres⟩ := findReservation_eq_some.mp hfind
        intro found hfound hfoundRes hstatus entry' hentry'
        obtain ⟨old, hold, holdId, rfl⟩ | ⟨hfound, -⟩ := mem_updateReservation.mp hfound
        · obtain rfl := List.inj_on_of_nodup_map db.records.nodup hold hmem (holdId.trans hid.symm)
          rw [reservationEntry_withResultSummary hres, hentry] at hentry'
          obtain rfl := Option.some.inj hentry'
          refine ⟨request.resultStatus, ?_, ?_⟩
          · rw [withResultSummary_field _ hres]
            simp [updatedResultSummary, OrderedMap.get?_set]
          · rw [ActionRecordRow.hasStatus_iff, withResultSummary_field _ hres,
              updatedResultSummary_status]
        · exact hrecorded found hfound hfoundRes hstatus entry' hentry'
  | record row ordinary =>
      obtain rfl := Option.some.inj hstep
      intro found hfound hres hstatus
      rcases Table.mem_insertOrIgnore hfound with hold | rfl
      · exact hrecorded found hold hres hstatus
      · exact absurd hres ordinary

theorem final_insertOrIgnore (row : ActionRecordRow) (db : Database) :
    SettledFinal db { db with records := db.records.insertOrIgnore row } := by
  intro recordId found hfind _
  obtain ⟨hmem, hid, hres⟩ := findReservation_eq_some.mp hfind
  exact findReservation_eq_some.mpr ⟨Table.mem_insertOrIgnore_of_mem hmem, hid, hres⟩

theorem final_reserve (request : ReserveRequest) (db : Database) :
    SettledFinal db (checkAndReserve request db).2 := by
  obtain hsame | ⟨cumulative, hinsert⟩ := checkAndReserve_cases request db
  · rw [hsame]
    exact SettledFinal.refl db
  · rw [hinsert]
    exact final_insertOrIgnore _ db

/-- One call keeps the rows that have left `PENDING` exactly when it repeats their outcome. -/
theorem final_step_iff {call : QuotaCall} (hrecorded : OutcomeRecorded db) :
    (∀ db', call.step db = some db' → SettledFinal db db') ↔ call.RepeatsOutcome db := by
  cases call with
  | reserve request clock =>
      simp only [QuotaCall.step, Option.some.injEq, forall_eq', QuotaCall.RepeatsOutcome,
        iff_true]
      exact final_reserve request { db with clock }
  | record row ordinary =>
      simp only [QuotaCall.step, Option.some.injEq, forall_eq', QuotaCall.RepeatsOutcome,
        iff_true]
      exact final_insertOrIgnore row db
  | settle request =>
      simp only [QuotaCall.step, Option.some.injEq, forall_eq', QuotaCall.RepeatsOutcome]
      obtain ⟨hsame, hrefused⟩ | ⟨row, entry, hfind, hentry, hallowed, hupdate⟩ :=
        @settleReservation_cases db request
      · rw [hsame]
        exact ⟨fun _ row hfind _ entry hentry => Or.inl (hrefused row hfind entry hentry),
          fun _ => SettledFinal.refl db⟩
      · obtain ⟨hmem, -, hres⟩ := findReservation_eq_some.mp hfind
        have hlookup := fun recordId =>
          @findReservation_updateReservation request row
            (settledStatus entry request.resultStatus) db.records hfind recordId
        rw [hupdate]
        constructor
        · intro hfinal found hfound hstatus entry' _
          obtain rfl := Option.some.inj (hfind.symm.trans hfound)
          have hkept := hfinal request.recordId row hfind hstatus
          rw [hlookup, if_pos rfl, Option.some.injEq, withResultSummary_eq_self_iff hres] at hkept
          exact Or.inr hkept.2
        · intro hrepeats recordId found hfound hstatus
          rw [hlookup]
          split
          next heq =>
            obtain rfl := heq
            obtain rfl := Option.some.inj (hfind.symm.trans hfound)
            have houtcome := (hrepeats row hfind hstatus entry hentry).resolve_left hallowed
            obtain ⟨resultStatus, hresult, hrecordedStatus⟩ :=
              hrecorded row hmem hres hstatus entry hentry
            rw [houtcome.1, Option.some.injEq, Json.str.injEq] at hresult
            obtain rfl := ResultStatus.text_inj hresult
            rw [(withResultSummary_eq_self_iff hres).mpr ⟨hrecordedStatus, houtcome⟩]
          next => exact hfound

end Steps

/-! ## Whole runs -/

/-- From a table of unsettled reservations, over every sequence of calls: a row that has left
`PENDING` is never changed exactly when each later settlement of it is refused or repeats its
outcome. -/
theorem settlement_final_iff {db : Database}
    (hpending : ∀ row ∈ db.records.rows, row.isReservation → row.hasStatus .pending)
    (calls : List QuotaCall) :
    Related QuotaCall.step SettledFinal db calls ↔
      Along QuotaCall.step QuotaCall.RepeatsOutcome db calls := by
  have hstart : OutcomeRecorded db :=
    fun row hrow hres hstatus => absurd (hpending row hrow hres) hstatus
  rw [related_iff_along SettledFinal.refl SettledFinal.trans]
  constructor
  · exact Along.of_invariant OutcomeRecorded (fun _ _ _ hrecorded _ hstep => hrecorded.step hstep)
      (fun _ _ hrecorded => (final_step_iff hrecorded).mp) hstart
  · exact Along.of_invariant OutcomeRecorded (fun _ _ _ hrecorded _ hstep => hrecorded.step hstep)
      (fun _ _ hrecorded => (final_step_iff hrecorded).mpr) hstart

/-! ## A settled amount released -/

namespace Resettled

def start : Database := ⟨Table.empty, 0, fun _ => "b6f1c3de-8a57-4f0e-9c2b-51d0e7a4f3c8"⟩

def recordId : String := "4fa85f64-5717-4562-b3fc-2c963f66afa6"

def amount : MeterFieldRef :=
  ⟨.actionRecord, "transaction_amount", none, none, MeterKey.all, .refl _⟩

/-- Sixty of one hundred are reserved. -/
def reserveSixty : QuotaCall :=
  .reserve ⟨recordId, "did:agent:payer", amount, 0, 1000, 100, .finite 60⟩ 1000

def settleWith (resultStatus : ResultStatus) : QuotaCall := .settle ⟨recordId, resultStatus, none⟩

def statusAfter (calls : List QuotaCall) : Option Json :=
  (run QuotaCall.step start calls).bind fun db =>
    (findReservation db.records recordId).bind fun row => row.field "status"

theorem settled_then_released :
    statusAfter [reserveSixty, settleWith .success] = some (.str "SETTLED") ∧
      statusAfter [reserveSixty, settleWith .success, settleWith .error] =
        some (.str "RELEASED") := by
  decide +kernel

/-- A settled reservation is released by a second settlement with another result. -/
theorem settled_reservation_released :
    ¬ ∀ calls : List QuotaCall, Related QuotaCall.step SettledFinal start calls := by
  intro hfinal
  obtain ⟨hsettled, hreleased⟩ := settled_then_released
  simp only [statusAfter, Option.bind_eq_some_iff] at hsettled hreleased
  obtain ⟨s₁, hrun₁, row₁, hfind₁, hstatus₁⟩ := hsettled
  obtain ⟨s₂, hrun₂, row₂, hfind₂, hstatus₂⟩ := hreleased
  have hbetween : run QuotaCall.step s₁ [settleWith .error] = some s₂ := by
    obtain ⟨mid, hmid, hrest⟩ := run_append.mp
      (show run QuotaCall.step start ([reserveSixty, settleWith .success] ++
        [settleWith .error]) = some s₂ from hrun₂)
    obtain rfl := Option.some.inj (hrun₁.symm.trans hmid)
    exact hrest
  have hpending : ¬ row₁.hasStatus .pending := by
    rw [ActionRecordRow.hasStatus_iff, hstatus₁]
    decide
  have hkept := hfinal [reserveSixty, settleWith .success, settleWith .error]
    [reserveSixty, settleWith .success] [settleWith .error] [] s₁ s₂ rfl hrun₁ hbetween recordId
    row₁ hfind₁ hpending
  obtain rfl := Option.some.inj (hkept.symm.trans hfind₂)
  rw [hstatus₁] at hstatus₂
  exact absurd hstatus₂ (by decide)

/-- A repeated settlement changes nothing. -/
theorem repeated_settlement_final :
    Related QuotaCall.step SettledFinal start
      [reserveSixty, settleWith .success, settleWith .success] := by
  refine (settlement_final_iff (by simp [start, Table.empty]) _).mpr ?_
  decide +kernel

end Resettled

end Coivitas.Policy
