import Coivitas.Foundation.Outcome
import Coivitas.Foundation.Run
import Coivitas.Policy.ActionRecorder
import Coivitas.Types.Errors

/-! # The audit barrier

The model of `packages/policy/src/recorder/audit-barrier.ts`. Calls overlap at
their awaits: a call of `beforeExecute` waits for the earlier calls of its agent
and then for its write or its timer, whichever comes first, and a call of
`afterExecute` reads the lifecycle of its intent before its write and sets it
after. A write that has timed out goes on, and may still be committed.
-/

namespace Coivitas.Policy

open Foundation Coivitas.Types

def actionIntent : String := "ACTION_INTENT"

def actionResult : String := "ACTION_RESULT"

structure AuditBarrierRecord where
  agentDid : String
  principalDid : String
  actionType : String
  sessionId : Option String
  envelopeId : Option String
  /-- Empty when it is absent. -/
  parametersSummary : OrderedMap String Json

inductive IntentLifecycle where
  | intentWritten
  | resultWritten
  deriving DecidableEq

structure IntentState where
  agentDid : String
  principalDid : String
  actionType : String
  envelopeId : Option String
  sessionId : Option String
  intentRecordId : String
  lifecycle : IntentLifecycle
  deriving DecidableEq

structure AuditBarrier where
  actorPrivateKey : String
  timeoutMs : Int

/-! ## Records -/

/-- `...(record.parametersSummary ?? {})`: the caller's members are set last. -/
def spread (base extra : OrderedMap String Json) : OrderedMap String Json :=
  extra.entries.foldl (fun summary member => summary.set member.1 member.2) base

def recordInput (B : AuditBarrier) (agentDid principalDid actionType : String)
    (parametersSummary : OrderedMap String Json) (sessionId : Option String) :
    ActionRecordInput where
  recordId := none
  agentDid := agentDid
  principalDid := principalDid
  actionType := actionType
  parametersSummary := .obj parametersSummary.entries
  authorizationRef := .null
  resultSummary := none
  actorPrivateKey := B.actorPrivateKey
  delegationDepth := none
  sessionId := sessionId
  outputEncoding := none
  createdAt := none

def intentSummary (record : AuditBarrierRecord) (auditIntentId : String) :
    OrderedMap String Json :=
  let originalActionType : OrderedMap String Json :=
    OrderedMap.empty.set "originalActionType" (.str record.actionType)
  let envelopeId := match record.envelopeId with
    | none => originalActionType
    | some envelopeId => originalActionType.set "envelopeId" (.str envelopeId)
  spread (envelopeId.set "auditIntentId" (.str auditIntentId)) record.parametersSummary

def intentInput (B : AuditBarrier) (record : AuditBarrierRecord) (auditIntentId : String) :
    ActionRecordInput :=
  recordInput B record.agentDid record.principalDid actionIntent
    (intentSummary record auditIntentId) record.sessionId

def resultInput (B : AuditBarrier) (state : IntentState) (auditIntentId : String)
    (outcome : ResultStatus) : ActionRecordInput :=
  recordInput B state.agentDid state.principalDid actionResult
    (((OrderedMap.empty
      |>.set "auditIntentId" (.str auditIntentId))
      |>.set "intentRecordId" (.str state.intentRecordId))
      |>.set "outcome" (.str outcome.text)) state.sessionId

/-- A committed record, with the call that wrote it. -/
structure WrittenRecord where
  recordId : String
  input : ActionRecordInput
  writer : Nat

/-- `parametersSummary.auditIntentId`. -/
def ActionRecordInput.auditIntentId (input : ActionRecordInput) : Option Json :=
  match input.parametersSummary with
  | .obj members => OrderedMap.lookupList "auditIntentId" members
  | _ => none

def WrittenRecord.IsIntent (auditIntentId : String) (record : WrittenRecord) : Prop :=
  record.input.actionType = actionIntent ∧
    record.input.auditIntentId = some (.str auditIntentId)

def WrittenRecord.IsResult (auditIntentId : String) (record : WrittenRecord) : Prop :=
  record.input.actionType = actionResult ∧
    record.input.auditIntentId = some (.str auditIntentId)

instance (auditIntentId : String) : DecidablePred (WrittenRecord.IsIntent auditIntentId) :=
  fun _ => inferInstanceAs (Decidable (_ ∧ _))

instance (auditIntentId : String) : DecidablePred (WrittenRecord.IsResult auditIntentId) :=
  fun _ => inferInstanceAs (Decidable (_ ∧ _))

/-! ## Calls -/

/-- Where a call of `beforeExecute` is. A call that has timed out is over, but its write is not. -/
inductive IntentStage where
  | queued
  | writing
  | written (recordId : String)
  | returned
  | timedOut (error : ProtocolError)
  | failed (error : ProtocolError)
  deriving DecidableEq

/-- The lock of the call is resolved. -/
def IntentStage.released : IntentStage → Bool
  | .returned | .timedOut _ | .failed _ => true
  | _ => false

/-- The call is over and its write goes on. -/
def IntentStage.lingers : IntentStage → Bool
  | .timedOut _ => true
  | _ => false

structure IntentCall where
  record : AuditBarrierRecord
  auditIntentId : String
  stage : IntentStage

inductive ResultStage where
  | writing
  | written
  | returned
  | failed (error : ProtocolError)
  deriving DecidableEq

/-- A call of `afterExecute` behind its guards, with the state it has read. -/
structure ResultCall where
  auditIntentId : String
  outcome : ResultStatus
  state : IntentState
  stage : ResultStage
  deriving DecidableEq

/-- The calls in the order in which they were made, the intent states and the records. -/
structure BarrierSystem where
  intents : Nat → Option IntentCall
  intentCount : Nat
  results : Nat → Option ResultCall
  resultCount : Nat
  intentStates : String → Option IntentState
  records : List WrittenRecord

namespace BarrierSystem

def start : BarrierSystem := ⟨fun _ => none, 0, fun _ => none, 0, fun _ => none, []⟩

def setStage (s : BarrierSystem) (i : Nat) (call : IntentCall) (stage : IntentStage) :
    BarrierSystem :=
  { s with intents := Function.update s.intents i (some { call with stage }) }

def setResultStage (s : BarrierSystem) (j : Nat) (call : ResultCall) (stage : ResultStage) :
    BarrierSystem :=
  { s with results := Function.update s.results j (some { call with stage }) }

def setIntentState (s : BarrierSystem) (auditIntentId : String) (state : IntentState) :
    BarrierSystem :=
  { s with intentStates := Function.update s.intentStates auditIntentId (some state) }

def addRecord (s : BarrierSystem) (record : WrittenRecord) : BarrierSystem :=
  { s with records := s.records ++ [record] }

end BarrierSystem

inductive BarrierEvent where
  | beforeExecute (record : AuditBarrierRecord) (randomUUID : String)
  /-- The earlier calls of the agent have resolved their locks; the write and the timer start. -/
  | start (i : Nat)
  | commitIntent (i : Nat) (recordId : String)
  | answerIntent (i : Nat)
  | failIntent (i : Nat) (detail : String)
  | timeout (i : Nat)
  | afterExecute (auditIntentId : String) (outcome : ResultStatus)
  | commitResult (j : Nat) (recordId : String)
  | answerResult (j : Nat)
  | failResult (j : Nat) (detail : String)

def timeoutError (B : AuditBarrier) (call : IntentCall) : ProtocolError where
  code := .other "AUDIT_INTENT_TIMEOUT"
  detail := "AuditBarrier.beforeExecute timed out after " ++ toString B.timeoutMs ++
    "ms (agentDid=" ++ call.record.agentDid ++ ", auditIntentId=" ++ call.auditIntentId ++ ")"

def persistError (call : IntentCall) (detail : String) : ProtocolError where
  code := .other "AUDIT_INTENT_PERSIST_FAILED"
  detail := "AuditBarrier.beforeExecute persist failed (agentDid=" ++ call.record.agentDid ++
    ", auditIntentId=" ++ call.auditIntentId ++ "): " ++ detail

def registeredState (call : IntentCall) (intentRecordId : String) : IntentState where
  agentDid := call.record.agentDid
  principalDid := call.record.principalDid
  actionType := call.record.actionType
  envelopeId := call.record.envelopeId
  sessionId := call.record.sessionId
  intentRecordId := intentRecordId
  lifecycle := .intentWritten

/-- The guards of `afterExecute`: nothing to write for a result that is written. -/
def admitResult (s : BarrierSystem) (auditIntentId : String) :
    Except ProtocolError (Option IntentState) :=
  match s.intentStates auditIntentId with
  | none => .error ⟨.internalError,
      "AuditBarrier.afterExecute: unknown auditIntentId=" ++ auditIntentId, none⟩
  | some state => .ok (if state.lifecycle = .resultWritten then none else some state)

def beforeReceiptSign (s : BarrierSystem) (envelopeId auditIntentId : String) :
    Except ProtocolError Unit :=
  match s.intentStates auditIntentId with
  | none => .error ⟨.internalError, "AuditBarrier.beforeReceiptSign: unknown auditIntentId=" ++
      auditIntentId ++ " (envelopeId=" ++ envelopeId ++ ")", none⟩
  | some state =>
      require (state.lifecycle = .resultWritten) ⟨.other "AUDIT_RECORD_UPDATE_FAILED",
        "AuditBarrier.beforeReceiptSign: ACTION_RESULT not yet written for auditIntentId=" ++
          auditIntentId ++ " (envelopeId=" ++ envelopeId ++ ")", none⟩

def BarrierSystem.step (B : AuditBarrier) (s : BarrierSystem) :
    BarrierEvent → Option BarrierSystem
  | .beforeExecute record randomUUID =>
      -- A random identifier is not given twice.
      if ∀ k < s.intentCount, ∀ call ∈ s.intents k, call.auditIntentId ≠ randomUUID then
        some { s with
          intents := Function.update s.intents s.intentCount (some ⟨record, randomUUID, .queued⟩)
          intentCount := s.intentCount + 1 }
      else none
  | .start i =>
      match s.intents i with
      | some call =>
          if call.stage = .queued ∧ ∀ k < i, ∀ earlier ∈ s.intents k,
              earlier.record.agentDid = call.record.agentDid → earlier.stage.released = true then
            some (s.setStage i call .writing)
          else none
      | none => none
  | .commitIntent i recordId =>
      match s.intents i with
      | some call =>
          let record := ⟨recordId, intentInput B call.record call.auditIntentId, i⟩
          match call.stage with
          | .writing => some ((s.setStage i call (.written recordId)).addRecord record)
          | .timedOut error => some ((s.setStage i call (.failed error)).addRecord record)
          | _ => none
      | none => none
  | .answerIntent i =>
      match s.intents i with
      | some call =>
          match call.stage with
          | .written recordId => some ((s.setStage i call .returned).setIntentState
              call.auditIntentId (registeredState call recordId))
          | _ => none
      | none => none
  | .failIntent i detail =>
      match s.intents i with
      | some call =>
          match call.stage with
          | .writing => some (s.setStage i call (.failed (persistError call detail)))
          | .timedOut error => some (s.setStage i call (.failed error))
          | _ => none
      | none => none
  | .timeout i =>
      match s.intents i with
      | some call =>
          match call.stage with
          | .writing => some (s.setStage i call (.timedOut (timeoutError B call)))
          | .written _ => some (s.setStage i call (.failed (timeoutError B call)))
          | _ => none
      | none => none
  | .afterExecute auditIntentId outcome =>
      match admitResult s auditIntentId with
      | .ok (some state) => some { s with
          results := Function.update s.results s.resultCount
            (some ⟨auditIntentId, outcome, state, .writing⟩)
          resultCount := s.resultCount + 1 }
      | _ => some s
  | .commitResult j recordId =>
      match s.results j with
      | some call =>
          if call.stage = .writing then
            some ((s.setResultStage j call .written).addRecord
              ⟨recordId, resultInput B call.state call.auditIntentId call.outcome, j⟩)
          else none
      | none => none
  | .answerResult j =>
      match s.results j with
      | some call =>
          if call.stage = .written then
            some ((s.setResultStage j call .returned).setIntentState call.auditIntentId
              { call.state with lifecycle := .resultWritten })
          else none
      | none => none
  | .failResult j detail =>
      match s.results j with
      | some call =>
          if call.stage = .writing then
            some (s.setResultStage j call (.failed ⟨.other "AUDIT_RECORD_UPDATE_FAILED",
              "AuditBarrier.afterExecute failed: " ++ detail, none⟩))
          else none
      | none => none

/-! ## The property and its condition -/

/-- Intents and results are paired, and the intents of an agent are in the order of its calls. -/
structure BarrierSafe (s : BarrierSystem) : Prop where
  intents_le_one : ∀ id, (s.records.filter (WrittenRecord.IsIntent id)).length ≤ 1
  results_le_one : ∀ id, (s.records.filter (WrittenRecord.IsResult id)).length ≤ 1
  receipt : ∀ envelopeId id, beforeReceiptSign s envelopeId id = .ok () →
    ∃ intent result, [intent, result].Sublist s.records ∧ intent.IsIntent id ∧ result.IsResult id
  order : ∀ agentDid, ((s.records.filter fun record => record.input.actionType = actionIntent ∧
    record.input.agentDid = agentDid).map WrittenRecord.writer).Pairwise (· < ·)

/-- The caller's summary does not name an intent of its own, no call starts its write while a
timed-out write of its agent goes on, and a result is not written for an intent while another
one is in flight. -/
def Orderly (s : BarrierSystem) : BarrierEvent → Prop
  | .beforeExecute record _ => record.parametersSummary.get? "auditIntentId" = none
  | .start i => ∀ call ∈ s.intents i, ∀ k < i, ∀ earlier ∈ s.intents k,
      earlier.record.agentDid = call.record.agentDid → earlier.stage.lingers = false
  | .afterExecute auditIntentId _ => ∀ j < s.resultCount, ∀ call ∈ s.results j,
      call.auditIntentId = auditIntentId → call.stage ≠ .writing ∧ call.stage ≠ .written
  | _ => True

instance (s : BarrierSystem) : DecidablePred (Orderly s)
  | .beforeExecute record _ =>
      inferInstanceAs (Decidable (record.parametersSummary.get? "auditIntentId" = none))
  | .start i => inferInstanceAs (Decidable (∀ call ∈ s.intents i, ∀ k < i, _))
  | .afterExecute _ _ => inferInstanceAs (Decidable (∀ j < s.resultCount, _))
  | .commitIntent _ _ | .answerIntent _ | .failIntent _ _ | .timeout _ | .commitResult _ _
  | .answerResult _ | .failResult _ _ => instDecidableTrue

end Coivitas.Policy
