import Coivitas.Crypto.HashChain
import Coivitas.Foundation.Table
import Coivitas.Policy.CumulativeTracker

/-! # Settlement retries

One call submits a settlement to the provider, records the attempt in the audit
log and the attempt table, and then moves the idempotency record of its key.
The calls of the ports are separate, and each of them may throw.
-/

namespace Coivitas.Policy.Settlement

open Foundation Crypto

/-! ## States -/

inductive SettlementRetryState where
  | pending
  | inProgress
  | succeeded
  | failed
  | deadLetter
  deriving DecidableEq

def settlementRetryStateTransitions : List (SettlementRetryState × SettlementRetryState) :=
  [(.pending, .inProgress), (.inProgress, .succeeded), (.inProgress, .failed),
    (.inProgress, .deadLetter), (.failed, .inProgress), (.failed, .deadLetter)]

def SettlementRetryState.isTerminal (state : SettlementRetryState) : Prop :=
  state ∈ [SettlementRetryState.succeeded, .deadLetter]

instance (state : SettlementRetryState) : Decidable state.isTerminal :=
  inferInstanceAs (Decidable (_ ∈ _))

def maxRetryAttempts : ℚ := 3

def srSupportedVersions : List String := ["1.0.0"]

/-! ## Operations and records -/

/-- The fields of the signed payload that the algorithm reads itself. -/
structure SignedPayload where
  challenge : String
  audience : String
  notAfter : String
  cspVersion : String

structure SettlementOperation where
  id : String
  srVersion : String
  tenantId : String
  idempotencyKey : String
  settlementType : String
  principalDid : String
  counterpartyDid : String
  amount : ℚ
  currency : String
  signedPayload : SignedPayload
  currentState : SettlementRetryState
  attemptCount : ℚ
  revoked : Bool
  createdAt : String
  updatedAt : String
  finalizedAt : Option String

structure IdempotencyRecord where
  key : String
  tenantId : String
  operationId : String
  currentState : SettlementRetryState
  createdAt : String
  finalizedAt : Option String

def IdempotencyRecord.moveTo (tenantId : String) (newState : SettlementRetryState)
    (finalizedAt : Option String) (record : IdempotencyRecord) : IdempotencyRecord :=
  if record.tenantId = tenantId then
    { record with currentState := newState, finalizedAt := finalizedAt.or record.finalizedAt }
  else record

theorem IdempotencyRecord.moveTo_key (tenantId : String) (newState : SettlementRetryState)
    (finalizedAt : Option String) (record : IdempotencyRecord) :
    (record.moveTo tenantId newState finalizedAt).key = record.key := by
  unfold moveTo
  split <;> rfl

inductive FailureReason where
  | providerUnavailable
  | providerTimeout
  | providerDeclined
  | insufficientFunds
  | regulatoryRejected
  | internalError
  deriving DecidableEq

structure RetryAttempt where
  id : String
  operationId : String
  attemptNumber : ℚ
  fromState : SettlementRetryState
  toState : SettlementRetryState
  attemptedAt : String
  completedAt : String
  resultSummary : Option String
  failureReason : Option FailureReason
  backoffDelayMs : JsNumber
  auditEventId : String

structure AuditEvent where
  operationId : String
  tenantId : String
  actorDid : String
  attemptNumber : ℚ
  fromState : SettlementRetryState
  toState : SettlementRetryState
  settlementType : String
  amountBucket : String
  currency : String

inductive SrErrorCode where
  | idempotencyViolation
  | canonicalHashMismatch
  | stateTransitionInvalid
  | retryExhausted
  | providerUnavailable
  | providerTimeout
  | providerDeclined
  | providerResponseInvalid
  | operationRevoked
  | signedPayloadInvalid
  | freshnessInvalid
  | versionUnsupported
  | amountInvalid
  | backoffInvalid
  deriving DecidableEq

def SrErrorCode.text : SrErrorCode → String
  | .idempotencyViolation => "SR_IDEMPOTENCY_VIOLATION"
  | .canonicalHashMismatch => "SR_CANONICAL_HASH_MISMATCH"
  | .stateTransitionInvalid => "SR_STATE_TRANSITION_INVALID"
  | .retryExhausted => "SR_RETRY_EXHAUSTED"
  | .providerUnavailable => "SR_PROVIDER_UNAVAILABLE"
  | .providerTimeout => "SR_PROVIDER_TIMEOUT"
  | .providerDeclined => "SR_PROVIDER_DECLINED"
  | .providerResponseInvalid => "SR_PROVIDER_RESPONSE_INVALID"
  | .operationRevoked => "SR_OPERATION_REVOKED"
  | .signedPayloadInvalid => "SR_SIGNED_PAYLOAD_INVALID"
  | .freshnessInvalid => "SR_FRESHNESS_INVALID"
  | .versionUnsupported => "SR_VERSION_UNSUPPORTED"
  | .amountInvalid => "SR_AMOUNT_INVALID"
  | .backoffInvalid => "SR_BACKOFF_INVALID"

/-- What a call throws: an error of its own with its reason, or what a port threw. -/
inductive SettlementError where
  | sr (code : SrErrorCode) (reason : String)
  | port
  deriving DecidableEq

/-! ## Checks -/

/-- What the algorithm takes from the crypto package, the schema engine and the runtime. -/
structure SettlementPorts where
  numberFormat : NumberFormat
  sha256 : List UInt8 → List UInt8
  /-- The format `uuid` of the schema engine. -/
  uuidFormat : String → Bool
  /-- `new Date(text).getTime()`; `none` is `NaN`. -/
  getTime : String → Option Int

variable (P : SettlementPorts)

def computeIdempotencyKey (operation : SettlementOperation) : String :=
  toHex (P.sha256 (utf8 (Json.canonicalize P.numberFormat (.obj [
    ("operationId", .str operation.id), ("principalDid", .str operation.principalDid),
    ("settlementType", .str operation.settlementType), ("amount", .num operation.amount),
    ("currency", .str operation.currency),
    ("cspVersion", .str operation.signedPayload.cspVersion)]))))

def checkKey (operation : SettlementOperation) : Except SettlementError Unit :=
  if operation.idempotencyKey ≠ computeIdempotencyKey P operation then
    .error (.sr .canonicalHashMismatch "idempotency_key_field_drift_detected")
  else .ok ()

def validateStateTransition (fromState toState : SettlementRetryState) :
    Except SettlementError Unit :=
  if (fromState, toState) ∈ settlementRetryStateTransitions then .ok ()
  else .error (.sr .stateTransitionInvalid "transition_not_in_allowlist")

def isIntegerIn (low high value : ℚ) : Bool :=
  value.den == 1 && decide (low ≤ value) && decide (value ≤ high)

def validateIdempotencyRecord (record : IdempotencyRecord) : Bool :=
  isSha256Hex record.key && P.uuidFormat record.tenantId && P.uuidFormat record.operationId

/-- The schema's pattern of `srVersion` holds of every supported version. -/
def validateSettlementOperation (operation : SettlementOperation) : Bool :=
  P.uuidFormat operation.id && P.uuidFormat operation.tenantId &&
    isSha256Hex operation.idempotencyKey &&
    ["fiat_transfer", "digital_wallet"].contains operation.settlementType &&
    operation.principalDid.startsWith "did:" && operation.counterpartyDid.startsWith "did:" &&
    operation.amount.den == 1 && decide (1 ≤ operation.amount) &&
    operation.currency.toList.length == 3 &&
    operation.currency.toList.all (fun c => 'A' ≤ c && c ≤ 'Z') &&
    isIntegerIn 0 5 operation.attemptCount

def validateRetryAttempt (attempt : RetryAttempt) : Bool :=
  P.uuidFormat attempt.id && P.uuidFormat attempt.operationId &&
    isIntegerIn 1 5 attempt.attemptNumber &&
    (match attempt.backoffDelayMs with
      | .finite value => isIntegerIn 0 60000 value
      | _ => false) &&
    P.uuidFormat attempt.auditEventId

/-- `responseCode` by its first match. -/
def responseCodeReason (responseCode : String) : FailureReason :=
  if responseCode = "INSUFFICIENT_FUNDS" ∨ responseCode = "NSF" then .insufficientFunds
  else if responseCode = "REGULATORY_BLOCK" ∨ responseCode.startsWith "REG_" = true then
    .regulatoryRejected
  else if responseCode = "DECLINED" then .providerDeclined
  else if responseCode = "TIMEOUT" then .providerTimeout
  else if responseCode.startsWith "5" = true then .providerTimeout
  else .internalError

def mapErrorToFailureReason (error : Option SrErrorCode) (responseCode : Option String) :
    FailureReason :=
  match error with
  | some .providerUnavailable => .providerUnavailable
  | some .providerTimeout => .providerTimeout
  | some .providerDeclined => .providerDeclined
  | _ =>
      match responseCode with
      | none => .internalError
      | some "" => .internalError
      | some responseCode => responseCodeReason responseCode

/-- Amounts are disclosed to the audit log by range only. -/
def bucketizeAmount (amount : ℚ) : String :=
  if amount < 100 then "0-100"
  else if amount < 1000 then "100-1000"
  else if amount < 10000 then "1000-10000"
  else if amount < 100000 then "10000-100000"
  else if amount < 1000000 then "100000-1000000"
  else "1000000+"

/-! ## One call -/

/-- How a write ends: it is done, it is not, or it is done and its caller sees an error. -/
inductive WriteOutcome where
  | done
  | failed
  | lost
  deriving DecidableEq

inductive ProviderOutcome where
  | answered (providerTxId finalState : String) (responseCode responseMessage : Option String)
  | threwSr (code : SrErrorCode) (message : String)
  | threw (message : String)
  deriving DecidableEq

/-- What the ports and the clock give to one call. -/
structure PortOutcomes where
  acquireAdvisoryLock : Bool
  findByKey : Bool
  insertRecord : WriteOutcome
  /-- The answer of the signature verifier with its reason, unless it throws. -/
  verify : Option (Bool × Option String)
  isOperationRevoked : Option Bool
  startState : WriteOutcome
  backoffDelayMs : JsNumber
  submitSettlement : ProviderOutcome
  /-- The identifier of the audit event, unless its recording throws. -/
  recordEvent : Option String
  insertAttempt : WriteOutcome
  finalState : WriteOutcome
  retryAttemptId : String
  now : Int
  createdAt : String
  attemptedAt : String
  completedAt : String

/-- A submission to the provider, with how it ended. -/
structure Submission where
  key : String
  operationId : String
  outcome : ProviderOutcome

/-- The tables, the audit log and what the provider has seen. A key has one record. -/
structure SettlementStore where
  records : Table IdempotencyRecord.key
  attempts : List RetryAttempt
  audit : List AuditEvent
  submissions : List Submission

namespace SettlementStore

def empty : SettlementStore := ⟨Table.empty, [], [], []⟩

def findByKey (s : SettlementStore) (tenantId key : String) : Option IdempotencyRecord :=
  (s.records.find? key).filter fun record => record.tenantId = tenantId

def insertRecord (record : IdempotencyRecord) (s : SettlementStore) : Option SettlementStore :=
  (s.records.insert? record).map fun records => { s with records }

/-- `UPDATE … WHERE tenant_id = … AND key = …`. -/
def updateState (tenantId key : String) (newState : SettlementRetryState)
    (finalizedAt : Option String) (s : SettlementStore) : SettlementStore :=
  { s with
    records := s.records.update key (IdempotencyRecord.moveTo tenantId newState finalizedAt)
      (IdempotencyRecord.moveTo_key tenantId newState finalizedAt) }

/-- Attempt identifiers are a primary key. -/
def insertAttempt (attempt : RetryAttempt) (s : SettlementStore) : Option SettlementStore :=
  if ∃ other ∈ s.attempts, other.id = attempt.id then none
  else some { s with attempts := s.attempts ++ [attempt] }

end SettlementStore

/-- A write that its store may refuse. -/
def perform (outcome : WriteOutcome) (write : SettlementStore → Option SettlementStore)
    (s : SettlementStore) : Except SettlementError Unit × SettlementStore :=
  match outcome, write s with
  | .failed, _ => (.error .port, s)
  | _, none => (.error .port, s)
  | .done, some s' => (.ok (), s')
  | .lost, some s' => (.error .port, s')

variable (expectedSettlerDid : String) (env : PortOutcomes) (operation : SettlementOperation)

/-- The record of a first call takes its state from the caller. -/
def newRecord : IdempotencyRecord :=
  ⟨operation.idempotencyKey, operation.tenantId, operation.id, operation.currentState,
    env.createdAt, none⟩

/-- Lookup or insertion of the key's record; whether the call goes on. -/
def claimKey (s : SettlementStore) : Except SettlementError Bool × SettlementStore :=
  if env.acquireAdvisoryLock = false ∨ env.findByKey = false then (.error .port, s)
  else
    match s.findByKey operation.tenantId operation.idempotencyKey with
    | some existing =>
        if existing.currentState.isTerminal then (.ok false, s)
        else if existing.operationId ≠ operation.id then
          (.error (.sr .idempotencyViolation "concurrent_duplicate_key_different_operation_id"), s)
        else (.ok true, s)
    | none =>
        if validateIdempotencyRecord P (newRecord env operation) = false then
          (.error (.sr .stateTransitionInvalid "idempotency_record_schema_violation"), s)
        else
          match perform env.insertRecord
              (SettlementStore.insertRecord (newRecord env operation)) s with
          | (.error error, s') => (.error error, s')
          | (.ok (), s') => (.ok true, s')

/-- What `trim` removes. -/
def isTrimmed (c : Char) : Bool :=
  (9 ≤ c.toNat && c.toNat ≤ 13) || (0x2000 ≤ c.toNat && c.toNat ≤ 0x200a) ||
    [0x20, 0xa0, 0x1680, 0x2028, 0x2029, 0x202f, 0x205f, 0x3000, 0xfeff].contains c.toNat

/-- `text.trim() === ''`. -/
def isBlank (text : String) : Bool := text.toList.all isTrimmed

/-- Fields, signed payload and revocation. -/
def validateRequest : Except SettlementError Unit := do
  require (operation.settlementType = "fiat_transfer" ∨
    operation.settlementType = "digital_wallet") (.sr .versionUnsupported "settlementType")
  require (operation.srVersion ∈ srSupportedVersions) (.sr .versionUnsupported "srVersion")
  require (0 < operation.amount) (.sr .amountInvalid "amount_must_be_positive_integer")
  require (validateSettlementOperation P operation = true)
    (.sr .versionUnsupported "settlement_operation_schema_violation")
  require (isBlank operation.signedPayload.challenge = false)
    (.sr .signedPayloadInvalid "csp_challenge_empty")
  require (operation.signedPayload.cspVersion = "1.0.0")
    (.sr .versionUnsupported "csp_version_not_supported")
  match P.getTime operation.signedPayload.notAfter with
  | none => throw (.sr .freshnessInvalid "notAfter_not_parseable_as_timestamp")
  | some notAfter =>
      require (env.now ≤ notAfter) (.sr .freshnessInvalid "signed_payload_expired")
  require (operation.signedPayload.audience = expectedSettlerDid)
    (.sr .signedPayloadInvalid "audience_binding_mismatch")
  match env.verify with
  | none => throw .port
  | some (valid, reason) =>
      require (valid = true)
        (.sr .signedPayloadInvalid (reason.getD "ed25519_signature_verification_failed"))
  match env.isOperationRevoked with
  | none => throw (.sr .operationRevoked "revocation_check_network_failure_fail_closed")
  | some revoked =>
      require (revoked = false) (.sr .operationRevoked "operation_revoked_by_revocation_checker")
  require (operation.revoked = false)
    (.sr .operationRevoked "operation_revoked_field_set_defense_in_depth")

/-- `backoffDelayMs < 0 || backoffDelayMs > 60000`. -/
def backoffOutOfRange : JsNumber → Bool
  | .nan => false
  | .negInf => true
  | .posInf => true
  | .finite value => decide (value < 0) || decide (60000 < value)

def updateState (outcome : WriteOutcome) (newState : SettlementRetryState)
    (finalizedAt : Option String) (s : SettlementStore) :
    Except SettlementError Unit × SettlementStore :=
  perform outcome (fun s => some (s.updateState operation.tenantId operation.idempotencyKey
    newState finalizedAt)) s

/-- The move to `IN_PROGRESS`; a call that is there already leaves the record as it is. -/
def startAttempt (s : SettlementStore) : Except SettlementError Unit × SettlementStore :=
  if operation.currentState.isTerminal then
    (.error (.sr .stateTransitionInvalid "cannot_transition_from_terminal_state"), s)
  else if operation.currentState = .inProgress then (.ok (), s)
  else
    match validateStateTransition operation.currentState .inProgress with
    | .error error => (.error error, s)
    | .ok () => updateState operation env.startState .inProgress none s

/-- The limit of attempts and the backoff delay. -/
def scheduleAttempt (s : SettlementStore) : Except SettlementError Unit × SettlementStore :=
  if maxRetryAttempts ≤ operation.attemptCount then
    match updateState operation env.finalState .deadLetter (some env.completedAt) s with
    | (.error error, s') => (.error error, s')
    | (.ok (), s') =>
        (.error (.sr .retryExhausted "retry_attempts_exhausted_moved_to_dead_letter"), s')
  else if backoffOutOfRange env.backoffDelayMs = true then
    (.error (.sr .backoffInvalid "backoff_delay_out_of_valid_range_0_to_60000ms"), s)
  else (.ok (), s)

/-- What a submission comes to: the state of the attempt, its summary and failure, and
the error that the call throws after it has recorded the attempt. -/
structure AttemptResult where
  toState : SettlementRetryState
  resultSummary : Option String
  failureReason : Option FailureReason
  thrown : Option SettlementError

/-- The message of an error with details. -/
def srMessage (code : SrErrorCode) (detail : List (String × Json)) : String :=
  "[SR] " ++ code.text ++ ": " ++ Json.stringify P.numberFormat (.obj detail)

/-- An attempt that fails with an error of the given code and message. -/
def failedAttempt (code : SrErrorCode) (message reason : String) : AttemptResult :=
  ⟨.failed, some message, some (mapErrorToFailureReason (some code) none), some (.sr code reason)⟩

def attemptResult (outcome : ProviderOutcome) : AttemptResult :=
  match outcome with
  | .answered providerTxId finalState responseCode responseMessage =>
      if finalState = "SUCCEEDED" then ⟨.succeeded, responseMessage, none, none⟩
      else if finalState = "FAILED" then
        ⟨.failed, responseMessage, some (mapErrorToFailureReason none responseCode), none⟩
      else
        failedAttempt .providerResponseInvalid
          (srMessage P .providerResponseInvalid [("providerTxId", .str providerTxId),
            ("finalState", .str finalState),
            ("reason", .str "provider_returned_invalid_final_state")])
          "provider_returned_invalid_final_state"
  | .threwSr code message => failedAttempt code message message
  | .threw message =>
      failedAttempt .providerResponseInvalid
        (srMessage P .providerResponseInvalid [
          ("reason", .str "ledger_port_threw_unknown_error_fail_closed"),
          ("originalError", .str message), ("operationId", .str operation.id)])
        "ledger_port_threw_unknown_error_fail_closed"

def submit (s : SettlementStore) : SettlementStore :=
  { s with submissions := s.submissions ++
    [⟨operation.idempotencyKey, operation.id, env.submitSettlement⟩] }

def auditEvent (toState : SettlementRetryState) : AuditEvent where
  operationId := operation.id
  tenantId := operation.tenantId
  actorDid := operation.principalDid
  attemptNumber := operation.attemptCount + 1
  fromState := operation.currentState
  toState := toState
  settlementType := operation.settlementType
  amountBucket := bucketizeAmount operation.amount
  currency := operation.currency

def retryAttempt (result : AttemptResult) (auditEventId : String) : RetryAttempt where
  id := env.retryAttemptId
  operationId := operation.id
  attemptNumber := operation.attemptCount + 1
  fromState := operation.currentState
  toState := result.toState
  attemptedAt := env.attemptedAt
  completedAt := env.completedAt
  resultSummary := result.resultSummary
  failureReason := result.failureReason
  backoffDelayMs := env.backoffDelayMs
  auditEventId := auditEventId

/-- The audit event, then the attempt with the event's identifier. -/
def recordAttempt (result : AttemptResult) (s : SettlementStore) :
    Except SettlementError Unit × SettlementStore :=
  match env.recordEvent with
  | none => (.error .port, s)
  | some auditEventId =>
      let s₁ := { s with audit := s.audit ++ [auditEvent operation result.toState] }
      if validateRetryAttempt P (retryAttempt env operation result auditEventId) = false then
        (.error (.sr .stateTransitionInvalid "retry_attempt_schema_violation"), s₁)
      else
        perform env.insertAttempt
          (SettlementStore.insertAttempt (retryAttempt env operation result auditEventId)) s₁

/-- The operation as the caller gets it back. -/
def updatedOperation (state : SettlementRetryState) : SettlementOperation :=
  { operation with
    currentState := state
    attemptCount := operation.attemptCount + 1
    finalizedAt := if state.isTerminal then some env.completedAt else operation.finalizedAt
    updatedAt := env.completedAt }

/-- The state that the record moves to in the end. -/
def committedState (result : AttemptResult) : SettlementRetryState :=
  if result.toState = .succeeded then .succeeded
  else if result.thrown = none ∧ maxRetryAttempts ≤ operation.attemptCount + 1 then .deadLetter
  else .failed

def commitState (result : AttemptResult) (s : SettlementStore) :
    Except SettlementError SettlementOperation × SettlementStore :=
  let state := committedState operation result
  match updateState operation env.finalState state
      (if state.isTerminal then some env.completedAt else none) s with
  | (.error error, s') => (.error error, s')
  | (.ok (), s') =>
      match result.thrown with
      | some error => (.error error, s')
      | none => (.ok (updatedOperation env operation state), s')

/-- The part of a call from the provider on. -/
def submitAttempt (s : SettlementStore) :
    Except SettlementError SettlementOperation × SettlementStore :=
  let result := attemptResult P operation env.submitSettlement
  match recordAttempt P env operation result (submit env operation s) with
  | (.error error, s') => (.error error, s')
  | (.ok (), s') => commitState env operation result s'

/-- The call after the check of its key. -/
def retryUnderKey (s : SettlementStore) :
    Except SettlementError SettlementOperation × SettlementStore :=
  match claimKey P env operation s with
  | (.error error, s₁) => (.error error, s₁)
  | (.ok false, s₁) => (.ok operation, s₁)
  | (.ok true, s₁) =>
      match validateRequest P expectedSettlerDid env operation with
      | .error error => (.error error, s₁)
      | .ok () =>
          match startAttempt env operation s₁ with
          | (.error error, s₂) => (.error error, s₂)
          | (.ok (), s₂) =>
              match scheduleAttempt env operation s₂ with
              | (.error error, s₃) => (.error error, s₃)
              | (.ok (), s₃) => submitAttempt P env operation s₃

def executeSettlementRetry (s : SettlementStore) :
    Except SettlementError SettlementOperation × SettlementStore :=
  match checkKey P operation with
  | .error error => (.error error, s)
  | .ok () => retryUnderKey P expectedSettlerDid env operation s

end Coivitas.Policy.Settlement
