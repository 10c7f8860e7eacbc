import Coivitas.Policy.PostgresTracker

/-! # Whole runs of the cumulative tracker

Calls that reserve and settle quota for one meter interleave statement by
statement. The advisory lock serialises the reserving transactions from their
aggregation to their commit; settlements take no lock.
-/

namespace Coivitas.Policy

open Foundation Coivitas.Types

/-- One agent, registered metric, window and limit. -/
structure Meter where
  agentDid : String
  meterField : Types.MeterFieldRef
  entry : MeterFieldEntry
  registered : meterFieldRegistry meterField.metric = some entry
  windowStart : Int
  max : ℚ
  max_nonneg : 0 ≤ max

def Meter.request (m : Meter) (recordId : String) (now : Int) (reserveAmount : JsNumber) :
    ReserveRequest :=
  ⟨recordId, m.agentDid, m.meterField, m.windowStart, now, m.max, reserveAmount⟩

/-- A call in flight, by the statement it has completed. -/
inductive Call where
  | waiting (request : ReserveRequest)
  | locked (request : ReserveRequest)
  | timed (request : ReserveRequest) (pendingCutoff : Int)
  | counted (request : ReserveRequest) (currentCumulative : JsNumber)
  | settling (request : SettleRequest) (reservation : ActionRecordRow)

/-- The shared database, the holder of the advisory lock, the calls in flight and
the amounts of the reservations whose settlement has returned success. -/
structure System where
  db : Database
  lock : Option Nat
  calls : Nat → Option Call
  settled : OrderedMap String ℚ

inductive Event where
  | wait (ms : Nat)
  | checkAndReserve (call : Nat) (recordId : String) (now : Int) (reserveAmount : JsNumber)
  | acquireAdvisoryLock (call : Nat)
  | readClock (call : Nat)
  | aggregate (call : Nat)
  | commit (call : Nat)
  | settleReservation (call : Nat) (request : SettleRequest)
  | update (call : Nat)
  | rollback (call : Nat)

namespace System

def start (db : Database) : System where
  db := db
  lock := none
  calls := fun _ => none
  settled := OrderedMap.empty

def setCall (s : System) (i : Nat) (call : Option Call) : System :=
  { s with calls := Function.update s.calls i call }

def setRecords (s : System) (records : ActionRecords) : System :=
  { s with db := { s.db with records } }

/-- The end of a call's transaction. -/
def finish (s : System) (i : Nat) : System :=
  { s.setCall i none with lock := if s.lock = some i then none else s.lock }

/-- The sum of the amounts of the reservations whose settlement returned success. -/
def spent (s : System) : ℚ := (s.settled.entries.map Prod.snd).sum

end System

/-- The amount of a successful settlement: a counted reservation is one. -/
def settledValue (entry : MeterFieldEntry) (request : SettleRequest)
    (reservation : ActionRecordRow) : ℚ :=
  match entry.aggregation, effectiveAmount request reservation with
  | .count, _ => 1
  | .sum, .finite amount => amount
  -- An infinite amount never passes the second check.
  | .sum, _ => 0

namespace Meter

variable (m : Meter)

/-- The agent's settlements that returned success, after one more settlement. -/
def credit (request : SettleRequest) (reservation : ActionRecordRow)
    (settled : OrderedMap String ℚ) : OrderedMap String ℚ :=
  match reservationEntry reservation with
  | none => settled
  | some entry =>
      if reservation.agentDid = m.agentDid ∧ request.resultStatus = .success then
        settled.set request.recordId (settledValue entry request reservation)
      else settled

/-- One statement of one call; `none` when it cannot run now. -/
def step (s : System) : Event → Option System
  | .wait ms => some { s with db := { s.db with clock := s.db.clock + ms } }
  | .checkAndReserve i recordId now reserveAmount =>
      match s.calls i, findReservation s.db.records recordId with
      | some _, _ => none
      | none, some _ => some s
      | none, none => some (s.setCall i (some (.waiting (m.request recordId now reserveAmount))))
  | .acquireAdvisoryLock i =>
      match s.calls i, s.lock with
      | some (.waiting request), none =>
          some { s.setCall i (some (.locked request)) with lock := some i }
      | _, _ => none
  | .readClock i =>
      match s.calls i with
      | some (.locked request) =>
          some (s.setCall i (some (.timed request (s.db.clock - pendingTtlMs))))
      | _ => none
  | .aggregate i =>
      match s.calls i with
      | some (.timed request pendingCutoff) =>
          some (s.setCall i (some (.counted request (aggregateWithClient m.entry request.agentDid
            request.windowStart request.now pendingCutoff s.db.records))))
      | _ => none
  | .commit i =>
      match s.calls i with
      | some (.counted request currentCumulative) =>
          some ({ s with db := (reserve request currentCumulative s.db).2 }.finish i)
      | _ => none
  | .settleReservation i request =>
      match s.calls i, findReservation s.db.records request.recordId with
      | some _, _ => none
      | none, none => some s
      | none, some reservation => some (s.setCall i (some (.settling request reservation)))
  | .update i =>
      match s.calls i with
      | some (.settling request reservation) =>
          match settle request reservation s.db.records with
          | .error _ => some (s.finish i)
          | .ok records =>
              some { (s.setRecords records).finish i with
                settled := m.credit request reservation s.settled }
      | _ => none
  | .rollback i =>
      match s.calls i with
      | some _ => some (s.finish i)
      | none => none

def run : System → List Event → Option System
  | s, [] => some s
  | s, event :: events =>
      match m.step s event with
      | none => none
      | some s' => run s' events

/-! ## The inputs and the condition -/

/-- A table that the meter starts on: other agents' rows and action records of the
agent with non-negative amounts, but no reservation of the agent. -/
def Clean (records : ActionRecords) : Prop :=
  ∀ row ∈ records.rows, row.agentDid = m.agentDid →
    ¬ row.isReservation ∧ 0 ≤ rowAmount m.entry row

/-- Amounts are non-negative and requests fall in the window. -/
def InDomain : Event → Prop
  | .checkAndReserve _ _ now reserveAmount => m.windowStart ≤ now ∧ reserveAmount.AtLeast 0
  | .settleReservation _ request => ∀ amount ∈ request.settledAmount, amount.AtLeast 0
  | _ => True

/-- A reservation of the agent that uses quota: it is settled, or pending and young
enough. -/
def Counts (clock : Int) (row : ActionRecordRow) : Prop :=
  row.agentDid = m.agentDid ∧ row.isReservation ∧
    (row.hasStatus .settled ∨ (row.hasStatus .pending ∧ clock - pendingTtlMs ≤ row.createdAt))

instance (clock : Int) : DecidablePred (m.Counts clock) :=
  fun _ => inferInstanceAs (Decidable (_ ∧ _))

/-- The settlement ends in `SETTLED`, unless it is refused. -/
def Settles (request : SettleRequest) : Prop :=
  request.resultStatus = .success ∨ (m.entry.aggregation = .count ∧ m.entry.countFilter = .all)

/-- The second check refuses the settlement. -/
def Refused (request : SettleRequest) (reservation : ActionRecordRow) : Prop :=
  m.entry.aggregation = .sum ∧ request.resultStatus = .success ∧
    (recheck request reservation).isSome = true

/-- A settlement that is not refused finds the reservation still counted and asks for
no more than it reserved; a release finds it not yet settled. -/
def SettlesSoundly (clock : Int) (request : SettleRequest) (reservation row : ActionRecordRow) :
    Prop :=
  m.Refused request reservation ∨
    (m.Settles request → m.Counts clock row ∧ (m.entry.aggregation = .sum →
      ¬ (effectiveAmount request reservation).gt (reservedAmount reservation))) ∧
    (¬ m.Settles request → ¬ row.hasStatus .settled)

/-- The amounts that an aggregation selects are not rounded down in their sum. -/
def SumsUp (request : ReserveRequest) (pendingCutoff : Int) (records : ActionRecords) : Prop :=
  (aggregateWithClient m.entry request.agentDid request.windowStart request.now pendingCutoff
    records).AtLeast (cumulativeValue m.entry request.agentDid request.windowStart request.now
      pendingCutoff records)

/-- Whole amounts sum up as far as `2 ^ 53`. -/
theorem sumsUp_of_whole {request : ReserveRequest} {pendingCutoff : Int} {records : ActionRecords}
    (hwhole : ∀ row ∈ records.rows,
      Selected m.entry request.agentDid request.windowStart request.now pendingCutoff row →
        ∃ amount : ℕ, rowAmount m.entry row = amount)
    (hbound : cumulativeValue m.entry request.agentDid request.windowStart request.now
      pendingCutoff records ≤ 2 ^ 53) :
    m.SumsUp request pendingCutoff records := by
  rw [SumsUp, aggregateWithClient_of_whole hwhole hbound]
  exact le_rfl

/-- The condition on a state and its next statement. -/
def Sound (s : System) : Event → Prop
  | .aggregate i =>
      match s.calls i with
      | some (.timed request pendingCutoff) =>
          (∀ row ∈ s.db.records.rows, m.Counts s.db.clock row → row.createdAt ≤ request.now) ∧
            m.SumsUp request pendingCutoff s.db.records
      | _ => True
  | .commit i =>
      match s.calls i with
      | some (.counted request currentCumulative) =>
          (m.entry.aggregation = .count → request.reserveAmount.AtLeast 1) ∧
            currentCumulative.AddsUp request.reserveAmount
      | _ => True
  | .update i =>
      match s.calls i with
      | some (.settling request reservation) =>
          ∀ row ∈ s.db.records.rows, row.recordId = request.recordId →
            row.agentDid = m.agentDid →
            m.SettlesSoundly s.db.clock request reservation row
      | _ => True
  | _ => True

def SoundRun : System → List Event → Prop
  | _, [] => True
  | s, event :: events => m.Sound s event ∧
      match m.step s event with
      | none => True
      | some s' => SoundRun s' events

instance (request : ReserveRequest) (pendingCutoff : Int) (records : ActionRecords) :
    Decidable (m.SumsUp request pendingCutoff records) :=
  inferInstanceAs (Decidable (JsNumber.AtLeast _ _))

instance (request : SettleRequest) : Decidable (m.Settles request) :=
  inferInstanceAs (Decidable (_ ∨ _))

instance (request : SettleRequest) (reservation : ActionRecordRow) :
    Decidable (m.Refused request reservation) :=
  inferInstanceAs (Decidable (_ ∧ _))

instance (clock : Int) (request : SettleRequest) (reservation row : ActionRecordRow) :
    Decidable (m.SettlesSoundly clock request reservation row) :=
  inferInstanceAs (Decidable (_ ∨ _))

instance (event : Event) : Decidable (m.InDomain event) := by
  cases event <;> unfold InDomain <;> infer_instance

instance (s : System) (event : Event) : Decidable (m.Sound s event) := by
  cases event <;> unfold Sound <;> dsimp only <;> (try split) <;> infer_instance

instance decidableSoundRun : (s : System) → (events : List Event) → Decidable (m.SoundRun s events)
  | _, [] => instDecidableTrue
  | s, event :: events => by
      unfold SoundRun
      have hrest := fun s' => decidableSoundRun s' events
      cases m.step s event <;> infer_instance

/-! ## The invariant -/

/-- A reservation of the meter as the tracker writes it. -/
structure Reserved (row : ActionRecordRow) : Prop where
  window : m.windowStart ≤ row.createdAt
  metric : row.field "metric" = some (.str m.meterField.metric)
  amount : ∃ reserveAmount : ℚ, 0 ≤ reserveAmount ∧
    row.field "reserveAmount" = some (.num reserveAmount)

structure TableInv (records : ActionRecords) : Prop where
  reserved : ∀ row ∈ records.rows, row.agentDid = m.agentDid → row.isReservation → m.Reserved row
  recorded : ∀ row ∈ records.rows, row.agentDid = m.agentDid → 0 ≤ rowAmount m.entry row

def weight (clock : Int) (row : ActionRecordRow) : ℚ :=
  if m.Counts clock row then rowAmount m.entry row else 0

/-- The quota in use. -/
def quota (db : Database) : ℚ := db.records.total (m.weight db.clock)

def Requested (request : ReserveRequest) : Prop :=
  ∃ recordId now reserveAmount, request = m.request recordId now reserveAmount ∧
    m.windowStart ≤ now ∧ reserveAmount.AtLeast 0

/-- The row that a settlement read is still there, with its metric and amount. -/
def Tracked (records : ActionRecords) (request : SettleRequest) (reservation : ActionRecordRow) :
    Prop :=
  ∃ row ∈ records.rows, row.recordId = request.recordId ∧ row.isReservation ∧
    row.agentDid = reservation.agentDid ∧
    row.field "metric" = reservation.field "metric" ∧
    row.field "reserveAmount" = reservation.field "reserveAmount"

/-- A settled amount is covered by a settled row. -/
def Covered (records : ActionRecords) (recordId : String) (amount : ℚ) : Prop :=
  ∃ row ∈ records.rows, row.recordId = recordId ∧ row.agentDid = m.agentDid ∧
    row.isReservation ∧ row.hasStatus .settled ∧ amount ≤ rowAmount m.entry row

/-- What a call in flight relies on. From its aggregation on, the holder of the lock
has counted at least the quota in use. -/
def CallInv (db : Database) (lock : Option Nat) (i : Nat) : Call → Prop
  | .waiting request => m.Requested request
  | .locked request => m.Requested request ∧ lock = some i
  | .timed request pendingCutoff =>
      m.Requested request ∧ lock = some i ∧ pendingCutoff ≤ db.clock - pendingTtlMs
  | .counted request currentCumulative =>
      m.Requested request ∧ lock = some i ∧ currentCumulative.AtLeast (m.quota db)
  | .settling request reservation => Tracked db.records request reservation

structure Inv (s : System) : Prop where
  table : m.TableInv s.db.records
  quota : m.quota s.db ≤ m.max
  calls : ∀ i call, s.calls i = some call → m.CallInv s.db s.lock i call
  settled : ∀ recordId amount, (recordId, amount) ∈ s.settled.entries →
    m.Covered s.db.records recordId amount

/-! ## Rows -/

section Rows

variable {m} {row : ActionRecordRow} {clock clock' : Int}

theorem TableInv.weight_nonneg {records : ActionRecords} (htable : m.TableInv records)
    (hrow : row ∈ records.rows) : 0 ≤ m.weight clock row := by
  unfold weight
  split
  next hcounts => exact htable.recorded row hrow hcounts.1
  next => exact le_rfl

/-- A counted row stays selected under an earlier cutoff, once its time is in range. -/
theorem Counts.selected (hcounts : m.Counts clock row) {windowStart now pendingCutoff : Int}
    (hwindow : windowStart ≤ row.createdAt) (hnow : row.createdAt ≤ now)
    (hcutoff : pendingCutoff ≤ clock - pendingTtlMs) :
    Selected m.entry m.agentDid windowStart now pendingCutoff row := by
  obtain ⟨hagent, hres, hstatus⟩ := hcounts
  refine ⟨hagent, hwindow, hnow, ?_⟩
  have hne : ∀ {a b : RecordStatus}, row.hasStatus a → a ≠ b → ¬ row.hasStatus b :=
    fun ha hab hb => hab (ActionRecordRow.hasStatus_unique ha hb)
  cases m.entry.countFilter with
  | success =>
      rcases hstatus with hsettled | ⟨hpending, hlive⟩
      · exact .inr (.inl hsettled)
      · exact .inr (.inr ⟨hres, hpending, hcutoff.trans hlive⟩)
  | all =>
      rcases hstatus with hsettled | ⟨hpending, hlive⟩
      · exact ⟨⟨hsettled.hasStatusText, hne hsettled (by decide), hne hsettled (by decide),
          hne hsettled (by decide)⟩, .inl (hne hsettled (by decide))⟩
      · exact ⟨⟨hpending.hasStatusText, hne hpending (by decide), hne hpending (by decide),
          hne hpending (by decide)⟩, .inr ⟨hres, hcutoff.trans hlive⟩⟩

theorem Counts.earlier (hcounts : m.Counts clock' row) (hle : clock ≤ clock') :
    m.Counts clock row := by
  obtain ⟨hagent, hres, hstatus⟩ := hcounts
  refine ⟨hagent, hres, hstatus.imp_right ?_⟩
  rintro ⟨hpending, hlive⟩
  exact ⟨hpending, le_trans (by omega) hlive⟩

/-- An aggregation selects at least the quota in use. -/
theorem quota_le_cumulativeValue {db : Database} {now pendingCutoff : Int}
    (htable : m.TableInv db.records) (hcutoff : pendingCutoff ≤ db.clock - pendingTtlMs)
    (hnow : ∀ row ∈ db.records.rows, m.Counts db.clock row → row.createdAt ≤ now) :
    m.quota db ≤
      cumulativeValue m.entry m.agentDid m.windowStart now pendingCutoff db.records := by
  unfold quota cumulativeValue
  rw [Table.total_filter]
  refine Table.total_mono fun row hrow => ?_
  unfold weight
  split
  next hcounts =>
    have hwindow := (htable.reserved row hrow hcounts.1 hcounts.2.1).window
    rw [if_pos (hcounts.selected hwindow (hnow row hrow hcounts) hcutoff)]
  next =>
    split
    next hselected => exact htable.recorded row hrow hselected.1
    next => exact le_rfl

end Rows

/-! ## Statements that reserve nothing -/

/-- What such a statement keeps of a database. -/
structure Keeps (db db' : Database) : Prop where
  clock : db.clock ≤ db'.clock
  table : m.TableInv db'.records
  quota : m.quota db' ≤ m.quota db
  tracked : ∀ request reservation, Tracked db.records request reservation →
    Tracked db'.records request reservation
  covered : ∀ recordId amount, m.Covered db.records recordId amount →
    m.Covered db'.records recordId amount

section Keeping

variable {m} {db db' : Database}

theorem keeps_wait (htable : m.TableInv db.records) (ms : Nat) :
    m.Keeps db { db with clock := db.clock + ms } where
  clock := by simp
  table := htable
  quota := by
    refine Table.total_mono fun row hrow => ?_
    by_cases hcounts : m.Counts (db.clock + ms) row
    · have hbefore : m.Counts db.clock row := hcounts.earlier (by omega)
      simp [weight, hcounts, hbefore]
    · rw [weight, if_neg hcounts]
      exact htable.weight_nonneg hrow
  tracked := fun _ _ h => h
  covered := fun _ _ h => h

theorem rowAmount_congr {entry : MeterFieldEntry} {a b : ActionRecordRow} (ha : a.isReservation)
    (hb : b.isReservation) (hamount : a.field "reserveAmount" = b.field "reserveAmount") :
    rowAmount entry a = rowAmount entry b := by
  simp [rowAmount, ha, hb, hamount]

/-- The row that a settlement rewrites. -/
structure Rewritten (request : SettleRequest) (reservation : ActionRecordRow)
    (status : RecordStatus) (row row' : ActionRecordRow) : Prop where
  recordId : row'.recordId = row.recordId
  agentDid : row'.agentDid = row.agentDid
  createdAt : row'.createdAt = row.createdAt
  wasReservation : row.isReservation
  isReservation : row'.isReservation
  agent : row.agentDid = reservation.agentDid
  metric : row'.field "metric" = row.field "metric"
  reserveAmount : row'.field "reserveAmount" = row.field "reserveAmount"
  status : row'.hasStatus status

theorem Tracked.rewritten {request : SettleRequest} {reservation row : ActionRecordRow}
    (htracked : Tracked db.records request reservation) (hrow : row ∈ db.records.rows)
    (hid : row.recordId = request.recordId) (status : RecordStatus) :
    Rewritten request reservation status row
      (row.withResultSummary (updatedResultSummary request reservation status)) := by
  obtain ⟨row', hrow', hid', hres, hagent, hmetric, hamount⟩ := htracked
  obtain rfl : row' = row :=
    List.inj_on_of_nodup_map db.records.nodup hrow' hrow (hid'.trans hid.symm)
  refine ⟨by simp, by simp, by simp, hres, by simpa using hres, hagent, ?_, ?_, ?_⟩
  · rw [withResultSummary_field _ hres, hmetric]
    exact updatedResultSummary_get? (by decide) (by decide) (by decide)
  · rw [withResultSummary_field _ hres, hamount]
    exact updatedResultSummary_get? (by decide) (by decide) (by decide)
  · rw [ActionRecordRow.hasStatus_iff, withResultSummary_field _ hres]
    exact updatedResultSummary_status

/-- A settlement keeps the quota in use when it settles a row that counts or releases
one that is not settled. -/
theorem keeps_update {request : SettleRequest} {reservation : ActionRecordRow}
    {status : RecordStatus} (htable : m.TableInv db.records)
    (htracked : Tracked db.records request reservation)
    (hstatus : ∀ row ∈ db.records.rows, row.recordId = request.recordId →
      row.agentDid = m.agentDid → (status = .settled ∧ m.Counts db.clock row) ∨
        (status = .released ∧ ¬ row.hasStatus .settled)) :
    m.Keeps db { db with records := updateReservation request reservation status db.records } := by
  have hrewritten : ∀ row ∈ db.records.rows, row.recordId = request.recordId → Rewritten request
      reservation status row (row.withResultSummary (updatedResultSummary request reservation
        status)) := fun row hrow hid => htracked.rewritten hrow hid status
  refine ⟨le_rfl, ⟨?_, ?_⟩, ?_, ?_, ?_⟩
  · intro row hrow hagent hres
    obtain ⟨old, hold, hid, rfl⟩ | ⟨hrow, -⟩ := mem_updateReservation.mp hrow
    · have hnew := hrewritten old hold hid
      obtain ⟨hwindow, hmetric, hamount⟩ :=
        htable.reserved old hold (hnew.agentDid ▸ hagent) hnew.wasReservation
      exact ⟨hnew.createdAt ▸ hwindow, hnew.metric ▸ hmetric, hnew.reserveAmount ▸ hamount⟩
    · exact htable.reserved row hrow hagent hres
  · intro row hrow hagent
    obtain ⟨old, hold, hid, rfl⟩ | ⟨hrow, -⟩ := mem_updateReservation.mp hrow
    · have hnew := hrewritten old hold hid
      rw [rowAmount_congr hnew.isReservation hnew.wasReservation hnew.reserveAmount]
      exact htable.recorded old hold (hnew.agentDid ▸ hagent)
    · exact htable.recorded row hrow hagent
  · refine Table.total_update_le (ActionRecordRow.withResultSummary_recordId _) fun row hrow hid => ?_
    have hnew := hrewritten row hrow hid
    unfold weight
    split
    next hcounts =>
      -- Only a row that was counted before is settled.
      have hbefore : m.Counts db.clock row := by
        obtain ⟨hagent, -, hcounted⟩ := hcounts
        rcases hstatus row hrow hid (hnew.agentDid ▸ hagent) with ⟨-, hbefore⟩ | ⟨rfl, -⟩
        · exact hbefore
        · rcases hcounted with hsettled | ⟨hpending, -⟩
          · cases ActionRecordRow.hasStatus_unique hnew.status hsettled
          · cases ActionRecordRow.hasStatus_unique hnew.status hpending
      rw [if_pos hbefore, rowAmount_congr hnew.isReservation hnew.wasReservation hnew.reserveAmount]
    next => exact htable.weight_nonneg hrow
  · rintro other copy ⟨row, hrow, hid, hres, hagent, hmetric, hamount⟩
    by_cases hk : row.recordId = request.recordId
    · have hnew := hrewritten row hrow hk
      exact ⟨_, mem_updateReservation.mpr (.inl ⟨row, hrow, hk, rfl⟩), hnew.recordId.trans hid,
        hnew.isReservation, hnew.agentDid.trans hagent, hnew.metric.trans hmetric,
        hnew.reserveAmount.trans hamount⟩
    · exact ⟨row, mem_updateReservation.mpr (.inr ⟨hrow, hk⟩), hid, hres, hagent, hmetric, hamount⟩
  · rintro recordId amount ⟨row, hrow, hid, hagent, hres, hsettled, hamount⟩
    by_cases hk : row.recordId = request.recordId
    · have hnew := hrewritten row hrow hk
      rcases hstatus row hrow hk hagent with ⟨rfl, -⟩ | ⟨-, hnot⟩
      · refine ⟨_, mem_updateReservation.mpr (.inl ⟨row, hrow, hk, rfl⟩), hnew.recordId.trans hid,
          hnew.agentDid.trans hagent, hnew.isReservation, hnew.status, ?_⟩
        rwa [rowAmount_congr hnew.isReservation hnew.wasReservation hnew.reserveAmount]
      · exact absurd hsettled hnot
    · exact ⟨row, mem_updateReservation.mpr (.inr ⟨hrow, hk⟩), hid, hagent, hres, hsettled, hamount⟩

theorem CallInv.keeps {lock : Option Nat} {i : Nat} {call : Call}
    (hcall : m.CallInv db lock i call) (hkeeps : m.Keeps db db') : m.CallInv db' lock i call := by
  cases call with
  | waiting request => exact hcall
  | locked request => exact hcall
  | timed request pendingCutoff =>
      obtain ⟨hrequest, hlock, hcutoff⟩ := hcall
      have hclock := hkeeps.clock
      exact ⟨hrequest, hlock, by omega⟩
  | counted request currentCumulative =>
      obtain ⟨hrequest, hlock, hquota⟩ := hcall
      exact ⟨hrequest, hlock, hquota.mono hkeeps.quota⟩
  | settling request reservation => exact hkeeps.tracked _ _ hcall

end Keeping

/-! ## Steps -/

section Steps

variable {m} {s s' : System} {i : Nat}

theorem Inv.setCall (hinv : m.Inv s) {call : Call} (hcall : m.CallInv s.db s.lock i call) :
    m.Inv (s.setCall i (some call)) where
  table := hinv.table
  quota := hinv.quota
  calls := by
    intro j call' hj
    by_cases hij : j = i
    · subst hij
      simp only [System.setCall, Function.update_self, Option.some.injEq] at hj
      exact hj ▸ hcall
    · simp only [System.setCall, Function.update_of_ne hij] at hj
      exact hinv.calls j call' hj
  settled := hinv.settled

/-- A call that ends takes only its own lock with it. -/
theorem CallInv.finish {db : Database} {lock : Option Nat} {j : Nat} {call : Call}
    (hcall : m.CallInv db lock j call) (hij : j ≠ i) :
    m.CallInv db (if lock = some i then none else lock) j call := by
  have hlock : lock = some j → (if lock = some i then none else lock) = some j := by
    rintro rfl
    rw [if_neg (fun h => hij (Option.some.inj h))]
  cases call with
  | waiting request => exact hcall
  | locked request => exact ⟨hcall.1, hlock hcall.2⟩
  | timed request pendingCutoff => exact ⟨hcall.1, hlock hcall.2.1, hcall.2.2⟩
  | counted request currentCumulative => exact ⟨hcall.1, hlock hcall.2.1, hcall.2.2⟩
  | settling request reservation => exact hcall

/-- The end of a call over a database that every other call can live with. -/
theorem inv_finish {db : Database} {settled : OrderedMap String ℚ} (htable : m.TableInv db.records)
    (hquota : m.quota db ≤ m.max)
    (hcalls : ∀ j call, j ≠ i → s.calls j = some call → m.CallInv db s.lock j call)
    (hsettled : ∀ recordId amount, (recordId, amount) ∈ settled.entries →
      m.Covered db.records recordId amount) :
    m.Inv { s.finish i with db := db, settled := settled } where
  table := htable
  quota := hquota
  calls := by
    intro j call hj
    by_cases hij : j = i
    · simp [System.finish, System.setCall, hij] at hj
    · simp only [System.finish, System.setCall, Function.update_of_ne hij] at hj
      exact (hcalls j call hij hj).finish hij
  settled := hsettled

theorem Inv.finish (hinv : m.Inv s) : m.Inv (s.finish i) :=
  inv_finish hinv.table hinv.quota (fun j call _ hj => hinv.calls j call hj) hinv.settled

theorem Inv.wait (hinv : m.Inv s) (ms : Nat) :
    m.Inv { s with db := { s.db with clock := s.db.clock + ms } } := by
  have hkeeps := keeps_wait hinv.table ms
  exact ⟨hkeeps.table, hkeeps.quota.trans hinv.quota,
    fun j call hj => (hinv.calls j call hj).keeps hkeeps, hinv.settled⟩

theorem Inv.acquire (hinv : m.Inv s) {request : ReserveRequest}
    (hcall : s.calls i = some (.waiting request)) (hlock : s.lock = none) :
    m.Inv { s.setCall i (some (.locked request)) with lock := some i } where
  table := hinv.table
  quota := hinv.quota
  calls := by
    intro j call hj
    by_cases hij : j = i
    · subst hij
      simp only [System.setCall, Function.update_self, Option.some.injEq] at hj
      exact hj ▸ ⟨hinv.calls _ _ hcall, rfl⟩
    · simp only [System.setCall, Function.update_of_ne hij] at hj
      have hother := hinv.calls j call hj
      -- Nobody else relies on the lock: it was free.
      rw [hlock] at hother
      cases call with
      | waiting request => exact hother
      | locked request => cases hother.2
      | timed request pendingCutoff => cases hother.2.1
      | counted request currentCumulative => cases hother.2.1
      | settling request reservation => exact hother
  settled := hinv.settled

section Commit

variable {request : ReserveRequest} {amount : ℚ}

theorem reserved_reservationRow (cumulative : JsNumber) (placeholder : String)
    (hrequest : m.Requested request) (hamount : request.reserveAmount = .finite amount) :
    m.Reserved (reservationRow request cumulative placeholder) := by
  obtain ⟨recordId, now, reserveAmount, rfl, hnow, hnonneg⟩ := hrequest
  obtain rfl : reserveAmount = .finite amount := hamount
  exact ⟨hnow, reservationRow_metric _ _ _, amount, hnonneg, reservationRow_reserveAmount _ _ _⟩

/-- A reservation adds no more than it asked for. -/
theorem rowAmount_reservationRow (cumulative : JsNumber) (placeholder : String)
    (hamount : request.reserveAmount = .finite amount) (hnonneg : 0 ≤ amount)
    (hsound : m.entry.aggregation = .count → request.reserveAmount.AtLeast 1) :
    rowAmount m.entry (reservationRow request cumulative placeholder) ∈ Set.Icc 0 amount := by
  have hfield := reservationRow_reserveAmount request cumulative placeholder
  rw [hamount] at hfield hsound
  rw [rowAmount_of_reserveAmount m.entry (reservationRow_isReservation _ _ _) hfield]
  split
  next hcount => exact ⟨zero_le_one, hsound hcount⟩
  next => exact ⟨hnonneg, le_rfl⟩

/-- The commit of the lock's holder: what it adds was checked against a value that is
still no less than the quota in use. -/
theorem Inv.commit (hinv : m.Inv s) {currentCumulative : JsNumber}
    (hcall : s.calls i = some (.counted request currentCumulative))
    (hsound : m.entry.aggregation = .count → request.reserveAmount.AtLeast 1)
    (hadds : currentCumulative.AddsUp request.reserveAmount) :
    m.Inv ({ s with db := (reserve request currentCumulative s.db).2 }.finish i) := by
  obtain ⟨hrequest, hlock, hquota⟩ := hinv.calls _ _ hcall
  unfold reserve
  split
  next => exact hinv.finish
  next hadmitted =>
    have hnonneg : request.reserveAmount.AtLeast 0 := by
      obtain ⟨recordId, now, reserveAmount, rfl, -, hnonneg⟩ := hrequest
      exact hnonneg
    have hlimit : request.max = m.max := by
      obtain ⟨recordId, now, reserveAmount, rfl, -⟩ := hrequest
      rfl
    obtain ⟨amount, hamount, hle, hmax⟩ :=
      exists_finite_of_not_exceeds hquota hnonneg hadds hadmitted
    have hadded := rowAmount_reservationRow currentCumulative s.db.nextUUID hamount hle hsound
    refine inv_finish ⟨?_, ?_⟩ ?_ ?_ ?_
    · intro row hrow hagent hres
      rcases Table.mem_insertOrIgnore hrow with hold | rfl
      · exact hinv.table.reserved row hold hagent hres
      · exact reserved_reservationRow _ _ hrequest hamount
    · intro row hrow hagent
      rcases Table.mem_insertOrIgnore hrow with hold | rfl
      · exact hinv.table.recorded row hold hagent
      · exact hadded.1
    · have hweight : m.weight s.db.clock (reservationRow request currentCumulative
          s.db.nextUUID) ∈ Set.Icc 0 amount := by
        unfold weight
        split
        next => exact hadded
        next => exact ⟨le_rfl, hle⟩
      calc m.quota (insertReservation request currentCumulative s.db)
          ≤ m.quota s.db + m.weight s.db.clock (reservationRow request currentCumulative
              s.db.nextUUID) := Table.total_insertOrIgnore_le hweight.1
        _ ≤ m.quota s.db + amount := add_le_add_right hweight.2 _
        _ ≤ m.max := hlimit ▸ hmax
    · intro j call hij hj
      have hother := hinv.calls j call hj
      -- The other reserving calls still wait for the lock.
      have hnot : s.lock ≠ some j := fun h => hij (Option.some.inj (h.symm.trans hlock))
      cases call with
      | waiting request => exact hother
      | locked request => exact absurd hother.2 hnot
      | timed request pendingCutoff => exact absurd hother.2.1 hnot
      | counted request currentCumulative => exact absurd hother.2.1 hnot
      | settling request reservation =>
          obtain ⟨row, hrow, hrest⟩ := hother
          exact ⟨row, Table.mem_insertOrIgnore_of_mem hrow, hrest⟩
    · intro recordId amount' hentry
      obtain ⟨row, hrow, hrest⟩ := hinv.settled recordId amount' hentry
      exact ⟨row, Table.mem_insertOrIgnore_of_mem hrow, hrest⟩

end Commit

/-- A settlement that goes through ends as `Settles` says. -/
theorem newStatus_eq_ok {request : SettleRequest} {reservation : ActionRecordRow}
    {status : RecordStatus} (hstatus : newStatus m.entry request reservation = .ok status) :
    ¬ m.Refused request reservation ∧
      (m.Settles request ∧ status = .settled ∨ ¬ m.Settles request ∧ status = .released) := by
  unfold newStatus at hstatus
  unfold Refused Settles
  cases haggregation : m.entry.aggregation with
  | count =>
      cases hfilter : m.entry.countFilter with
      | all =>
          simp only [haggregation, hfilter, Except.ok.injEq] at hstatus
          simp [← hstatus]
      | success =>
          simp only [haggregation, hfilter, Except.ok.injEq] at hstatus
          by_cases hsuccess : request.resultStatus = .success
          · simp [← hstatus, hsuccess]
          · simp [← hstatus, hsuccess]
  | sum =>
      simp only [haggregation] at hstatus
      by_cases hsuccess : request.resultStatus = .success
      · cases hrecheck : recheck request reservation with
        | some error => simp [hsuccess, hrecheck] at hstatus
        | none =>
            simp only [hsuccess, hrecheck, ne_eq, not_true_eq_false, if_false,
              Except.ok.injEq] at hstatus
            simp [← hstatus, hsuccess]
      · simp only [ne_eq, hsuccess, not_false_eq_true, if_true, Except.ok.injEq] at hstatus
        simp [← hstatus, hsuccess]

/-- A settled amount within the reservation is covered by what the row adds. -/
theorem settledValue_le_rowAmount {request : SettleRequest} {reservation row : ActionRecordRow}
    (hreserved : m.Reserved row) (hres : row.isReservation)
    (hamount : row.field "reserveAmount" = reservation.field "reserveAmount")
    (hwithin : m.entry.aggregation = .sum →
      ¬ (effectiveAmount request reservation).gt (reservedAmount reservation)) :
    settledValue m.entry request reservation ≤ rowAmount m.entry row := by
  obtain ⟨reserveAmount, hnonneg, hfield⟩ := hreserved.amount
  rw [rowAmount_of_reserveAmount m.entry hres hfield]
  rw [hamount] at hfield
  cases haggregation : m.entry.aggregation with
  | count => simp [settledValue, haggregation]
  | sum =>
      have hle := hwithin haggregation
      simp only [reservedAmount, hfield, number?, Option.getD_some] at hle
      simp only [settledValue, haggregation, reduceCtorEq, if_false]
      split
      next h => cases h
      next amount heffective =>
        simp only [heffective] at hle
        exact not_lt.mp hle
      next => exact hnonneg

section Settlement

variable {request : SettleRequest} {reservation row : ActionRecordRow} {entry : MeterFieldEntry}
  {status : RecordStatus}

/-- The metric of a reservation of the agent is the meter's. -/
theorem TableInv.entry_eq (htable : m.TableInv s.db.records)
    (htracked : Tracked s.db.records request reservation)
    (hagent : reservation.agentDid = m.agentDid)
    (hentry : reservationEntry reservation = some entry) : entry = m.entry := by
  obtain ⟨row, hrow, -, hres, hagent', hmetric, -⟩ := htracked
  have hreserved := htable.reserved row hrow (hagent'.trans hagent) hres
  rw [reservationEntry, ← hmetric, hreserved.metric] at hentry
  exact Option.some.inj (hentry.symm.trans m.registered)

/-- How a settlement that goes through meets the row it rewrites. -/
theorem SettlesSoundly.cases (hstatus : newStatus m.entry request reservation = .ok status)
    (hsound : m.SettlesSoundly s.db.clock request reservation row) :
    (status = .settled ∧ m.Counts s.db.clock row ∧ (m.entry.aggregation = .sum →
      ¬ (effectiveAmount request reservation).gt (reservedAmount reservation))) ∨
    (¬ m.Settles request ∧ status = .released ∧ ¬ row.hasStatus .settled) := by
  obtain ⟨hrefused, hcases⟩ := newStatus_eq_ok hstatus
  obtain ⟨hsettles, hreleases⟩ := hsound.resolve_left hrefused
  rcases hcases with ⟨h, hsettled⟩ | ⟨h, hreleased⟩
  · exact .inl ⟨hsettled, hsettles h⟩
  · exact .inr ⟨h, hreleased, hreleases h⟩

/-- A successful settlement of the agent is covered by the row it has written. -/
theorem covered_settledValue (htable : m.TableInv s.db.records)
    (htracked : Tracked s.db.records request reservation)
    (hagent : reservation.agentDid = m.agentDid) (hsuccess : request.resultStatus = .success)
    (hstatus : newStatus m.entry request reservation = .ok status)
    (hsound : ∀ row ∈ s.db.records.rows, row.recordId = request.recordId →
      row.agentDid = m.agentDid → m.SettlesSoundly s.db.clock request reservation row) :
    m.Covered (updateReservation request reservation status s.db.records) request.recordId
      (settledValue m.entry request reservation) := by
  obtain ⟨row, hrow, hid, hres, hagent', -, hamount⟩ := id htracked
  have hnew := htracked.rewritten hrow hid status
  have hreserved := htable.reserved row hrow (hagent'.trans hagent) hres
  rcases (hsound row hrow hid (hagent'.trans hagent)).cases hstatus with
    ⟨rfl, -, hwithin⟩ | ⟨hreleases, -⟩
  · refine ⟨_, mem_updateReservation.mpr (.inl ⟨row, hrow, hid, rfl⟩), hnew.recordId.trans hid,
      hnew.agentDid.trans (hagent'.trans hagent), hnew.isReservation, hnew.status, ?_⟩
    rw [rowAmount_congr hnew.isReservation hnew.wasReservation hnew.reserveAmount]
    exact settledValue_le_rowAmount hreserved hres hamount hwithin
  · exact absurd (.inl hsuccess) hreleases

theorem Inv.update (hinv : m.Inv s) {records : ActionRecords}
    (hcall : s.calls i = some (.settling request reservation))
    (hsettle : settle request reservation s.db.records = .ok records)
    (hsound : ∀ row ∈ s.db.records.rows, row.recordId = request.recordId →
      row.agentDid = m.agentDid → m.SettlesSoundly s.db.clock request reservation row) :
    m.Inv { (s.setRecords records).finish i with
      settled := m.credit request reservation s.settled } := by
  have htracked : Tracked s.db.records request reservation := hinv.calls _ _ hcall
  unfold settle at hsettle
  unfold credit
  cases hentry : reservationEntry reservation with
  | none =>
      simp only [hentry, Except.ok.injEq] at hsettle
      subst hsettle
      exact hinv.finish
  | some entry =>
      cases hstatus : newStatus entry request reservation with
      | error error => simp [hentry, hstatus] at hsettle
      | ok status =>
          simp only [hentry, hstatus, Except.ok.injEq] at hsettle
          subst hsettle
          have hkeeps : m.Keeps s.db { s.db with
              records := updateReservation request reservation status s.db.records } := by
            refine keeps_update hinv.table htracked fun row hrow hid hagent => ?_
            have hagent' := (htracked.rewritten hrow hid status).agent
            obtain rfl := hinv.table.entry_eq htracked (hagent'.symm.trans hagent) hentry
            rcases (hsound row hrow hid hagent).cases hstatus with
              ⟨hsettled, hcounts, -⟩ | ⟨-, hreleased, hnot⟩
            · exact .inl ⟨hsettled, hcounts⟩
            · exact .inr ⟨hreleased, hnot⟩
          refine inv_finish hkeeps.table (hkeeps.quota.trans hinv.quota)
            (fun j call _ hj => (hinv.calls j call hj).keeps hkeeps) ?_
          intro recordId amount hmem
          simp only at hmem
          split at hmem
          next hcredit =>
            obtain ⟨hagent, hsuccess⟩ := hcredit
            rw [OrderedMap.mem_entries_iff, OrderedMap.get?_set] at hmem
            split at hmem
            next hid =>
              obtain rfl := hinv.table.entry_eq htracked hagent hentry
              obtain rfl := Option.some.inj hmem
              exact hid ▸ covered_settledValue hinv.table htracked hagent hsuccess hstatus hsound
            next =>
              exact hkeeps.covered _ _ (hinv.settled recordId amount
                ((OrderedMap.mem_entries_iff _ _ _).mpr hmem))
          next => exact hkeeps.covered _ _ (hinv.settled recordId amount hmem)

end Settlement

theorem Inv.step (hinv : m.Inv s) {event : Event} (hdomain : m.InDomain event)
    (hsound : m.Sound s event) (hstep : m.step s event = some s') : m.Inv s' := by
  cases event with
  | wait ms =>
      obtain rfl := Option.some.inj hstep
      exact hinv.wait ms
  | checkAndReserve i recordId now reserveAmount =>
      simp only [Meter.step] at hstep
      split at hstep
      next => cases hstep
      next =>
        obtain rfl := Option.some.inj hstep
        exact hinv
      next =>
        obtain rfl := Option.some.inj hstep
        exact hinv.setCall ⟨recordId, now, reserveAmount, rfl, hdomain⟩
  | acquireAdvisoryLock i =>
      simp only [Meter.step] at hstep
      split at hstep
      next request hcall hlock =>
        obtain rfl := Option.some.inj hstep
        exact hinv.acquire hcall hlock
      next => cases hstep
  | readClock i =>
      simp only [Meter.step] at hstep
      split at hstep
      next request hcall =>
        obtain rfl := Option.some.inj hstep
        obtain ⟨hrequest, hlock⟩ := hinv.calls _ _ hcall
        exact hinv.setCall ⟨hrequest, hlock, le_rfl⟩
      next => cases hstep
  | aggregate i =>
      simp only [Meter.step] at hstep
      simp only [Sound] at hsound
      split at hstep
      next request pendingCutoff hcall =>
        obtain rfl := Option.some.inj hstep
        obtain ⟨hrequest, hlock, hcutoff⟩ := hinv.calls _ _ hcall
        simp only [hcall] at hsound
        refine hinv.setCall ⟨hrequest, hlock, ?_⟩
        obtain ⟨recordId, now, reserveAmount, rfl, -⟩ := hrequest
        exact hsound.2.mono (quota_le_cumulativeValue hinv.table hcutoff hsound.1)
      next => cases hstep
  | commit i =>
      simp only [Meter.step] at hstep
      simp only [Sound] at hsound
      split at hstep
      next request currentCumulative hcall =>
        obtain rfl := Option.some.inj hstep
        simp only [hcall] at hsound
        exact hinv.commit hcall hsound.1 hsound.2
      next => cases hstep
  | settleReservation i request =>
      simp only [Meter.step] at hstep
      split at hstep
      next => cases hstep
      next =>
        obtain rfl := Option.some.inj hstep
        exact hinv
      next reservation _ hfind =>
        obtain rfl := Option.some.inj hstep
        obtain ⟨hrow, hid, hres⟩ := findReservation_eq_some.mp hfind
        exact hinv.setCall ⟨reservation, hrow, hid, hres, rfl, rfl, rfl⟩
  | update i =>
      simp only [Meter.step] at hstep
      simp only [Sound] at hsound
      split at hstep
      next request reservation hcall =>
        simp only [hcall] at hsound
        split at hstep
        next =>
          obtain rfl := Option.some.inj hstep
          exact hinv.finish
        next records hsettle =>
          obtain rfl := Option.some.inj hstep
          exact hinv.update hcall hsettle hsound
      next => cases hstep
  | rollback i =>
      simp only [Meter.step] at hstep
      split at hstep
      next =>
        obtain rfl := Option.some.inj hstep
        exact hinv.finish
      next => cases hstep

theorem Inv.run (hinv : m.Inv s) {events : List Event} (hdomain : ∀ event ∈ events, m.InDomain event)
    (hsound : m.SoundRun s events) (hrun : m.run s events = some s') : m.Inv s' := by
  induction events generalizing s with
  | nil => exact Option.some.inj hrun ▸ hinv
  | cons event events ih =>
      obtain ⟨hevent, hrest⟩ := hsound
      simp only [Meter.run] at hrun
      cases hstep : m.step s event with
      | none => simp [hstep] at hrun
      | some middle =>
          simp only [hstep] at hrun hrest
          exact ih (hinv.step (hdomain event List.mem_cons_self) hevent hstep)
            (fun e he => hdomain e (List.mem_cons_of_mem _ he)) hrest hrun

theorem inv_start {db : Database} (hclean : m.Clean db.records) : m.Inv (System.start db) where
  table := ⟨fun row hrow hagent hres => absurd hres (hclean row hrow hagent).1,
    fun row hrow hagent => (hclean row hrow hagent).2⟩
  quota := by
    have hzero : ∀ row ∈ db.records.rows, m.weight db.clock row ≤ 0 := by
      intro row hrow
      rw [weight, if_neg (fun hcounts => (hclean row hrow hcounts.1).1 hcounts.2.1)]
    calc m.quota db
        ≤ db.records.total fun _ => 0 := Table.total_mono hzero
      _ = 0 := by simp [Table.total]
      _ ≤ m.max := m.max_nonneg
  calls := fun _ _ h => by cases h
  settled := fun _ _ h => by cases h

/-- What was spent is in use. -/
theorem Inv.spent_le_max (hinv : m.Inv s) : s.spent ≤ m.max := by
  refine le_trans (Table.sum_le_total (fun row hrow => hinv.table.weight_nonneg hrow)
    s.settled.nodup ?_) hinv.quota
  rintro ⟨recordId, amount⟩ hentry
  obtain ⟨row, hrow, hid, hagent, hres, hsettled, hle⟩ := hinv.settled recordId amount hentry
  refine ⟨row, hrow, hid, ?_⟩
  rwa [weight, if_pos ⟨hagent, hres, .inl hsettled⟩]

end Steps

/-- In every run whose statements meet the condition, the successful settlements stay
within the limit. -/
theorem no_overspend {db : Database} (hclean : m.Clean db.records) {events : List Event}
    (hdomain : ∀ event ∈ events, m.InDomain event) (hsound : m.SoundRun (System.start db) events)
    {s : System} (hrun : m.run (System.start db) events = some s) : s.spent ≤ m.max :=
  ((inv_start hclean).run hdomain hsound hrun).spent_le_max

end Meter

/-! A payer with a daily limit of 100. -/

namespace Payer

def meter : Meter where
  agentDid := "did:agent:payer"
  meterField := ⟨.actionRecord, "transaction_amount", none, none, MeterKey.all, List.Perm.refl _⟩
  entry := ⟨.sum, some "amount", some "amount", .success⟩
  registered := rfl
  windowStart := 1767225600000
  max := 100
  max_nonneg := by decide

/-- Eight in the morning, with an empty table. -/
def morning : Database := ⟨Table.empty, 1767254400000,
  fun _ => "1f0e2c44-5b0d-4a7c-9b2e-6d1a3f4c5e66"⟩

def reserving (i : Nat) (recordId : String) (now : Int) (reserveAmount : ℚ) : List Event :=
  [.checkAndReserve i recordId now (.finite reserveAmount), .acquireAdvisoryLock i, .readClock i,
    .aggregate i, .commit i]

def settling (i : Nat) (recordId : String) (settledAmount : ℚ) : List Event :=
  [.settleReservation i ⟨recordId, .success, some (.finite settledAmount)⟩, .update i]

theorem clean_morning : meter.Clean morning.records := by
  intro row hrow
  cases hrow

/-- Both reservations are settled in time, the first at less than it reserved. -/
def prompt : List Event :=
  reserving 0 "r1" morning.clock 60 ++ settling 1 "r1" 55 ++ [.wait 60000] ++
    reserving 2 "r2" (morning.clock + 60000) 40 ++ settling 3 "r2" 40

theorem prompt_spends :
    (meter.run (System.start morning) prompt).map System.spent = some 95 := by
  decide +kernel

theorem prompt_within_limit : ∃ s, meter.run (System.start morning) prompt = some s ∧
    s.spent = 95 ∧ s.spent ≤ meter.max := by
  obtain ⟨s, hrun, hspent⟩ := Option.map_eq_some_iff.mp prompt_spends
  exact ⟨s, hrun, hspent, meter.no_overspend clean_morning (by decide +kernel)
    (by decide +kernel) hrun⟩

/-- The first reservation expires unsettled, a second one takes its place, and both
are then settled. -/
def late : List Event :=
  reserving 0 "r1" morning.clock 60 ++ [.wait 300001] ++ reserving 1 "r2" (morning.clock + 300001) 60 ++
    settling 2 "r1" 60 ++ settling 3 "r2" 60

theorem late_spends :
    (meter.run (System.start morning) late).map System.spent = some 120 := by
  decide +kernel

theorem late_overspends : meter.Clean morning.records ∧ (∀ event ∈ late, meter.InDomain event) ∧
    ∃ s, meter.run (System.start morning) late = some s ∧ meter.max < s.spent := by
  obtain ⟨s, hrun, hspent⟩ := Option.map_eq_some_iff.mp late_spends
  refine ⟨clean_morning, by decide +kernel, s, hrun, ?_⟩
  rw [hspent]
  decide +kernel

end Payer

end Coivitas.Policy
