import Coivitas.Foundation.Json
import Coivitas.Foundation.OrderedMap
import Coivitas.Foundation.Table
import Coivitas.Policy.CumulativeTracker

/-! # The action record table

One table holds the records of executed actions and the reservations of
cumulative quota. Both are read through the JSON of their result summary.
-/

namespace Coivitas.Policy

open Foundation

/-- How an action ended. -/
inductive ResultStatus where
  | success
  | rejected
  | error
  deriving DecidableEq

/-- The `status` of a result summary: that of an action, or of a reservation. -/
inductive RecordStatus where
  | result (status : ResultStatus)
  | pending
  | settled
  | released
  deriving DecidableEq

def ResultStatus.text : ResultStatus → String
  | .success => "SUCCESS"
  | .rejected => "REJECTED"
  | .error => "ERROR"

def RecordStatus.text : RecordStatus → String
  | .result status => status.text
  | .pending => "PENDING"
  | .settled => "SETTLED"
  | .released => "RELEASED"

theorem RecordStatus.text_inj {a b : RecordStatus} : a.text = b.text ↔ a = b := by
  constructor
  · cases a with
    | result s => cases b with
      | result s' => cases s <;> cases s' <;> decide
      | _ => cases s <;> decide
    | _ => cases b with
      | result s' => cases s' <;> decide
      | _ => decide
  · rintro rfl
    rfl

abbrev ResultSummary := OrderedMap String Json

structure ActionRecordRow where
  recordId : String
  agentDid : String
  principalDid : String
  actionType : String
  parametersSummary : Json
  authorizationRef : Json
  resultSummary : Option ResultSummary
  recordHash : String
  previousRecordHash : String
  actorSignature : String
  ledgerSignature : String
  delegationDepth : Option Int
  sessionId : Option String
  createdAt : Int

/-- `policy.action_records`; `record_id` is unique. -/
abbrev ActionRecords := Table ActionRecordRow.recordId

def cumulativeReserveActionType : String := "__CUMULATIVE_RESERVE__"

/-- `typeof value === 'number'`. -/
def number? : Option Json → Option ℚ
  | some (.num value) => some value
  | _ => none

def isText (text : String) : Option Json → Bool
  | some (.str value) => value == text
  | _ => false

/-- Numbers without a JSON form are written as `null`. -/
def JsNumber.toJson : JsNumber → Json
  | .finite value => .num value
  | _ => .null

namespace ActionRecordRow

variable (row : ActionRecordRow)

/-- `row.result_summary?.[name]`. -/
def field (name : String) : Option Json := row.resultSummary.bind fun summary => summary.get? name

def hasStatus (status : RecordStatus) : Prop := isText status.text (row.field "status") = true

instance (status : RecordStatus) : Decidable (row.hasStatus status) :=
  inferInstanceAs (Decidable (_ = _))

/-- `result_summary->>'status'` is not `NULL`. -/
def hasStatusText : Prop :=
  match row.field "status" with
  | none => False
  | some .null => False
  | some _ => True

instance : Decidable row.hasStatusText := by
  unfold hasStatusText
  split <;> infer_instance

def isReservation : Prop := row.actionType = cumulativeReserveActionType

instance : Decidable row.isReservation := inferInstanceAs (Decidable (_ = _))

variable {row}

theorem hasStatus_iff {status : RecordStatus} :
    row.hasStatus status ↔ row.field "status" = some (.str status.text) := by
  unfold hasStatus isText
  split
  next value hfield => simp [hfield]
  next hfield =>
    simp only [Bool.false_eq_true, false_iff]
    exact fun h => hfield _ h

/-- A row has one status. -/
theorem hasStatus_unique {a b : RecordStatus} (ha : row.hasStatus a) (hb : row.hasStatus b) :
    a = b := by
  rw [hasStatus_iff] at ha hb
  rw [ha, Option.some.injEq, Json.str.injEq] at hb
  exact RecordStatus.text_inj.mp hb

theorem hasStatus.hasStatusText {status : RecordStatus} (h : row.hasStatus status) :
    row.hasStatusText := by
  rw [hasStatus_iff] at h
  simp [ActionRecordRow.hasStatusText, h]

end ActionRecordRow

end Coivitas.Policy
