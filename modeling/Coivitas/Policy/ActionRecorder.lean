import Coivitas.Crypto.Encoding
import Coivitas.Policy.ActionRecords
import Mathlib.Data.List.Sort

/-! # The action recorder and the integrity checker

Every agent has a hash chain of signed records. The recorder links a record to
the agent's last one by creation time, under a lock on the agent's chain; the
checker reads the chain back in the same order and recomputes it.
-/

namespace Coivitas.Policy

open Foundation Crypto

/-- What the ledger takes from the crypto package, the database and its driver: a text
is stored as an instant, and an instant is read back as a text. -/
structure LedgerPorts where
  numberFormat : NumberFormat
  sha256 : List UInt8 → List UInt8
  sha256_length : ∀ bytes, (sha256 bytes).length = 32
  /-- `none` when the private key is malformed. -/
  sign : List UInt8 → String → Encoding → Option String
  /-- `none` when a signature or a key is malformed. -/
  verify : List UInt8 → String → String → Option Bool
  timestamptz : String → Option Int
  toTimestamp : Int → String

variable (P : LedgerPorts)

/-! ## Payloads, hashes and signatures -/

/-- The signed fields of a record. -/
structure RecordBody where
  recordId : String
  agentDid : String
  principalDid : String
  actionType : String
  parametersSummary : Json
  authorizationRef : Json
  resultSummary : Option ResultSummary
  previousRecordHash : String
  createdAt : String
  delegationDepth : Option Int
  sessionId : Option String

def resultSummaryJson : Option ResultSummary → Json
  | none => .null
  | some summary => .obj summary.entries

def buildUnsignedRecordPayload (body : RecordBody) : Json :=
  .obj ([("recordId", .str body.recordId), ("agentDid", .str body.agentDid),
    ("principalDid", .str body.principalDid), ("actionType", .str body.actionType),
    ("parametersSummary", body.parametersSummary), ("authorizationRef", body.authorizationRef),
    ("resultSummary", resultSummaryJson body.resultSummary),
    ("previousRecordHash", .str body.previousRecordHash), ("createdAt", .str body.createdAt)] ++
    (body.delegationDepth.map fun depth => ("delegationDepth", Json.num depth)).toList ++
    (body.sessionId.map fun id => ("sessionId", Json.str id)).toList)

def payloadBytes (body : RecordBody) : List UInt8 :=
  utf8 (Json.canonicalize P.numberFormat (buildUnsignedRecordPayload body))

def computeRecordHash (body : RecordBody) (outputEncoding : Encoding) : String :=
  encode outputEncoding (P.sha256 (utf8 body.previousRecordHash ++ payloadBytes P body))

def createRecordSignature (body : RecordBody) (privateKey : String) (outputEncoding : Encoding) :
    Option String :=
  P.sign (payloadBytes P body) privateKey outputEncoding

def verifyRecordSignature (body : RecordBody) (signature publicKey : String) : Option Bool :=
  P.verify (payloadBytes P body) signature publicKey

def ledgerEncoding : Encoding := .base64url

/-! ## Recording -/

def sessionGovernorDid : String := "did:system:session-governor"

def actionSessionSuperseded : String := "SESSION_SUPERSEDED"

structure ActionRecordInput where
  recordId : Option String
  agentDid : String
  principalDid : String
  actionType : String
  parametersSummary : Json
  authorizationRef : Json
  resultSummary : Option ResultSummary
  actorPrivateKey : String
  delegationDepth : Option Int
  sessionId : Option String
  outputEncoding : Option Encoding
  createdAt : Option String

/-- The business lane, or the governance lane with its guards: the schema check of the
parameters and the owner of a session. -/
inductive RecorderKind where
  | standard
  | controlPlane (assertSchemaCompliant : ActionRecordInput → Bool)
      (resolveOwner : Json → Option (String × String)) (appendSideTable : String → Bool)

inductive RecorderError where
  | laneViolation
  | parametersRequired
  | missingField (field : String)
  | invalidReason
  | invalidNewSessionId
  | schemaViolation
  | sessionBindingMismatch
  | signingFailed
  | invalidTimestamp
  | duplicateRecordId
  | sideTableFailed
  deriving DecidableEq

/-- `params[name]` of a summary. -/
def memberOf (name : String) : Json → Option Json
  | .obj members => (members.find? fun member => member.1 = name).map Prod.snd
  | _ => none

/-- Neither `undefined`, `null` nor the empty text. -/
def isPresent : Option Json → Prop
  | none => False
  | some .null => False
  | some (.str text) => text ≠ ""
  | some _ => True

instance : DecidablePred isPresent := fun value => by
  unfold isPresent
  split <;> infer_instance

def sessionSupersededFields : List String :=
  ["oldSessionId", "reason", "timestamp", "affectedAgentDid", "affectedPrincipalDid"]

def sessionSupersededReasons : List String :=
  ["EXPLICIT_CLOSE", "TOKEN_REVOKED", "IDLE_EXPIRED", "FORCED_CLOSE"]

def nonEmptyText : Option Json → Prop
  | some (.str text) => text ≠ ""
  | _ => False

instance : DecidablePred nonEmptyText := fun value => by
  unfold nonEmptyText
  split <;> infer_instance

/-- The parameters of a governance event: all fields, a known reason, and a successor
session unless the close was forced. -/
def assertSupersededParams (params : Json) : Except RecorderError Unit :=
  match params with
  | .null => .error .parametersRequired
  | params =>
      match sessionSupersededFields.find? fun name => ¬ isPresent (memberOf name params) with
      | some name => .error (.missingField name)
      | none =>
          if ¬ ∃ reason ∈ sessionSupersededReasons,
              isText reason (memberOf "reason" params) = true then .error .invalidReason
          else if isText "FORCED_CLOSE" (memberOf "reason" params) = true then
            match memberOf "newSessionId" params with
            | some .null => .ok ()
            | value => if nonEmptyText value then .ok () else .error .invalidNewSessionId
          else if nonEmptyText (memberOf "newSessionId" params) then .ok ()
          else .error .invalidNewSessionId

def assertLaneAllowed (kind : RecorderKind) (input : ActionRecordInput) :
    Except RecorderError Unit :=
  match kind with
  | .standard =>
      if input.agentDid = sessionGovernorDid ∨ input.principalDid = sessionGovernorDid ∨
          input.actionType = actionSessionSuperseded then .error .laneViolation
      else .ok ()
  | .controlPlane .. =>
      if input.agentDid ≠ sessionGovernorDid ∨ input.principalDid ≠ sessionGovernorDid ∨
          input.actionType ≠ actionSessionSuperseded then .error .laneViolation
      else assertSupersededParams input.parametersSummary

/-- `params[name]` where an `if` takes it for true. -/
def truthyMember (name : String) (params : Json) : Option Json :=
  match memberOf name params with
  | none | some .null | some (.bool false) => none
  | some (.str text) => if text = "" then none else some (.str text)
  | some (.num value) => if value = 0 then none else some (.num value)
  | some value => some value

/-- A DID named in the parameters, if any, is that of the session's owner. -/
def namesOwner (name owner : String) (params : Json) : Prop :=
  ∀ did ∈ truthyMember name params, did = .str owner

instance (name owner : String) (params : Json) : Decidable (namesOwner name owner params) :=
  inferInstanceAs (Decidable (∀ did ∈ truthyMember name params, did = .str owner))

/-- The guards before the transaction. -/
def assertWritable (kind : RecorderKind) (input : ActionRecordInput) : Except RecorderError Unit :=
  match kind with
  | .standard => .ok ()
  | .controlPlane assertSchemaCompliant resolveOwner _ =>
      if ¬ assertSchemaCompliant input then .error .schemaViolation
      else
        match truthyMember "oldSessionId" input.parametersSummary with
        | none => .ok ()
        | some sessionId =>
            match resolveOwner sessionId with
            | none => .error .sessionBindingMismatch
            | some (agentDid, principalDid) =>
                if namesOwner "affectedAgentDid" agentDid input.parametersSummary ∧
                    namesOwner "affectedPrincipalDid" principalDid input.parametersSummary then
                  .ok ()
                else .error .sessionBindingMismatch

/-- A record with the identifier and the time that were fixed before its transaction. -/
structure PreparedRecord where
  input : ActionRecordInput
  recordId : String
  createdAt : String

/-- The part before the transaction; `uuid` and `now` are what the runtime gives. -/
def prepareRecord (kind : RecorderKind) (input : ActionRecordInput) (uuid now : String) :
    Except RecorderError PreparedRecord :=
  match assertLaneAllowed kind input, assertWritable kind input with
  | .error error, _ => .error error
  | .ok (), .error error => .error error
  | .ok (), .ok () => .ok ⟨input, input.recordId.getD uuid, input.createdAt.getD now⟩

/-- The agent's rows by creation time, then by row number. -/
def agentRows (agentDid : String) (records : ActionRecords) : List ActionRecordRow :=
  (records.rows.filter fun row => row.agentDid = agentDid).insertionSort
    fun a b => a.createdAt ≤ b.createdAt

def loadPreviousRecordHash (agentDid : String) (records : ActionRecords) : String :=
  ((agentRows agentDid records).getLast?.map ActionRecordRow.recordHash).getD ""

def PreparedRecord.body (prepared : PreparedRecord) (previousRecordHash : String) : RecordBody where
  recordId := prepared.recordId
  agentDid := prepared.input.agentDid
  principalDid := prepared.input.principalDid
  actionType := prepared.input.actionType
  parametersSummary := prepared.input.parametersSummary
  authorizationRef := prepared.input.authorizationRef
  resultSummary := prepared.input.resultSummary
  previousRecordHash := previousRecordHash
  createdAt := prepared.createdAt
  delegationDepth := prepared.input.delegationDepth
  sessionId := prepared.input.sessionId

/-- The row of a record, signed by the actor and by the ledger. -/
def recordRow (ledgerPrivateKey : String) (prepared : PreparedRecord) (previousRecordHash : String) :
    Except RecorderError ActionRecordRow :=
  let body := prepared.body previousRecordHash
  let outputEncoding := prepared.input.outputEncoding.getD ledgerEncoding
  match createRecordSignature P body prepared.input.actorPrivateKey outputEncoding,
      createRecordSignature P body ledgerPrivateKey outputEncoding,
      P.timestamptz prepared.createdAt with
  | some actorSignature, some ledgerSignature, some createdAt =>
      .ok {
        recordId := body.recordId
        agentDid := body.agentDid
        principalDid := body.principalDid
        actionType := body.actionType
        parametersSummary := body.parametersSummary
        authorizationRef := body.authorizationRef
        resultSummary := body.resultSummary
        recordHash := computeRecordHash P body outputEncoding
        previousRecordHash := previousRecordHash
        actorSignature := actorSignature
        ledgerSignature := ledgerSignature
        delegationDepth := body.delegationDepth
        sessionId := body.sessionId
        createdAt := createdAt }
  | some _, some _, none => .error .invalidTimestamp
  | _, _, _ => .error .signingFailed

/-- The statements of the transaction after the previous hash is loaded. -/
def insertRecord (kind : RecorderKind) (ledgerPrivateKey : String) (prepared : PreparedRecord)
    (previousRecordHash : String) (records : ActionRecords) : Except RecorderError ActionRecords :=
  match recordRow P ledgerPrivateKey prepared previousRecordHash with
  | .error error => .error error
  | .ok row =>
      match records.insert? row with
      | none => .error .duplicateRecordId
      | some records' =>
          match kind with
          | .standard => .ok records'
          | .controlPlane _ _ appendSideTable =>
              if appendSideTable row.recordId then .ok records' else .error .sideTableFailed

/-- The whole call, undisturbed: the identifier of the record it wrote. -/
def record (kind : RecorderKind) (ledgerPrivateKey : String) (input : ActionRecordInput)
    (uuid now : String) (records : ActionRecords) : Except RecorderError (String × ActionRecords) :=
  match prepareRecord kind input uuid now with
  | .error error => .error error
  | .ok prepared =>
      match insertRecord P kind ledgerPrivateKey prepared
          (loadPreviousRecordHash input.agentDid records) records with
      | .error error => .error error
      | .ok records' => .ok (prepared.recordId, records')

/-! ## Checking -/

inductive IntegrityReason where
  | previousRecordHashMismatch
  | recordHashMismatch
  | agentPublicKeyUnavailable
  | actorSignatureInvalid
  | ledgerSignatureInvalid
  deriving DecidableEq

inductive IntegrityCheckResult where
  | valid
  | invalid (brokenAt : String) (reason : IntegrityReason)
  | threw
  deriving DecidableEq

/-- The keys the checker verifies with: of an agent, as far as its kind resolves it, and
of the ledger. -/
structure CheckerKeys where
  resolvePublicKey : String → Option String
  ledgerPublicKey : String

/-- The signed fields of a row, read back. -/
def ActionRecordRow.body (row : ActionRecordRow) : RecordBody where
  recordId := row.recordId
  agentDid := row.agentDid
  principalDid := row.principalDid
  actionType := row.actionType
  parametersSummary := row.parametersSummary
  authorizationRef := row.authorizationRef
  resultSummary := row.resultSummary
  previousRecordHash := row.previousRecordHash
  createdAt := P.toTimestamp row.createdAt
  delegationDepth := row.delegationDepth
  sessionId := row.sessionId

/-- One record against the hash its predecessor has. -/
def verifyRecord (keys : CheckerKeys) (expectedPreviousRecordHash : String)
    (row : ActionRecordRow) : IntegrityCheckResult :=
  let body := row.body P
  if row.previousRecordHash ≠ expectedPreviousRecordHash then
    .invalid row.recordId .previousRecordHashMismatch
  else if row.recordHash.toList = [] ∨ row.recordHash.toList.all isBase64UrlChar = false then .threw
  else if row.recordHash ≠ computeRecordHash P body (detectEncoding row.recordHash.toList) then
    .invalid row.recordId .recordHashMismatch
  else
    match keys.resolvePublicKey row.agentDid with
    | none => .invalid row.recordId .agentPublicKeyUnavailable
    | some publicKey =>
        if publicKey = "" then .invalid row.recordId .agentPublicKeyUnavailable
        else
          match verifyRecordSignature P body row.actorSignature publicKey with
          | none => .threw
          | some false => .invalid row.recordId .actorSignatureInvalid
          | some true =>
              match verifyRecordSignature P body row.ledgerSignature keys.ledgerPublicKey with
              | none => .threw
              | some false => .invalid row.recordId .ledgerSignatureInvalid
              | some true => .valid

def verifyRecords (keys : CheckerKeys) : String → List ActionRecordRow → IntegrityCheckResult
  | _, [] => .valid
  | expectedPreviousRecordHash, row :: rows =>
      match verifyRecord P keys expectedPreviousRecordHash row with
      | .valid => verifyRecords keys row.recordHash rows
      | failure => failure

/-- The checker without further filters reads at most ten thousand records. -/
def verifyIntegrity (keys : CheckerKeys) (agentDid : String) (records : ActionRecords) :
    IntegrityCheckResult :=
  verifyRecords P keys "" ((agentRows agentDid records).take 10000)

end Coivitas.Policy
