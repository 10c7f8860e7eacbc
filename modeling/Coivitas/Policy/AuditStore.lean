import Coivitas.Foundation.OrderedMap
import Coivitas.Foundation.Program
import Coivitas.Foundation.Run
import Coivitas.Policy.AuditChain

/-! # The audit writer, verifier and in-memory store

The model of `TamperProofAuditWriter`, `TamperProofAuditVerifier` and
`InMemoryAuditEventStore`. A call runs as a program over the store; what it
wrote before a throw stays written. The event a program leaves is the key of a
lock it had to wait for.
-/

namespace Coivitas.Policy

open Foundation Crypto

/-! ## Schema -/

structure AtpValidationError where
  instancePath : String
  message : String
deriving DecidableEq, Repr

/-- What the writer and the verifier use from outside: the number printer of the
canonical form, two formats of the schema validator, and the first error the
validator reports of an invalid event. -/
structure AuditPorts where
  numberFormat : NumberFormat
  uuidFormat : String → Bool
  dateTimeFormat : String → Bool
  firstSchemaError : AuditEvent → AtpValidationError

def atpVersionCurrent : String := "1.0.0"

/-- `^[A-Za-z0-9_-]+=*$` -/
def isSignatureText (text : String) : Bool :=
  let body := (text.toList.reverse.dropWhile (· == '=')).reverse
  !body.isEmpty && body.all fun c => c.isAlphanum || c == '_' || c == '-'

def AuditEvent.isValid (P : AuditPorts) (event : AuditEvent) : Bool :=
  event.atpVersion == atpVersionCurrent && (P.uuidFormat event.eventId && isUuidV4 event.eventId) &&
    (P.uuidFormat event.tenantId && isUuidV4 event.tenantId) &&
    decide (['d', 'i', 'd', ':'] <+: event.actorDid.toList) &&
    (decide (1 ≤ event.action.toList.length) && decide (event.action.toList.length ≤ 256)) &&
    decide (1 ≤ event.canonicalPayload.toList.length) && isSha256Hex event.tamperProofHash &&
    event.previousHash.all isSha256Hex && P.dateTimeFormat event.timestamp &&
    event.signature.all isSignatureText

def validateAuditEvent (P : AuditPorts) (event : AuditEvent) : Except AtpValidationError Unit :=
  require (event.isValid P = true) (P.firstSchemaError event)

/-! ## The store -/

/-- The three maps of the store. A lock map entry set to null reads as an absent
one, so the lock map is the list of the keys that have a holder. -/
structure InMemoryAuditEventStore where
  events : OrderedMap String AuditEvent
  chainsByTenantClass : OrderedMap String (List String)
  lockHolders : List String

abbrev StoreProgram (α : Type) : Type := Program InMemoryAuditEventStore String AuditFault α

def chainKey (tenantId : String) (auditClass : AuditClass) : String :=
  tenantId ++ ":" ++ auditClass.text

namespace InMemoryAuditEventStore

def empty : InMemoryAuditEventStore := ⟨.empty, .empty, []⟩

/-- The first caller gets the lock at once; a later one waits for the release
before it becomes the holder. -/
def acquireAdvisoryLock (tenantId : String) (auditClass : AuditClass) : StoreProgram Unit := do
  let key := chainKey tenantId auditClass
  let store ← Program.get
  if key ∈ store.lockHolders then
    Program.emit key
  else
    Program.modify fun store => { store with lockHolders := key :: store.lockHolders }

def releaseAdvisoryLock (store : InMemoryAuditEventStore) (tenantId : String)
    (auditClass : AuditClass) : InMemoryAuditEventStore :=
  { store with lockHolders := store.lockHolders.erase (chainKey tenantId auditClass) }

def fetchLastTamperProofHash (store : InMemoryAuditEventStore) (tenantId : String)
    (auditClass : AuditClass) : Except AuditFault (Option String) :=
  match (store.chainsByTenantClass.get? (chainKey tenantId auditClass)).bind List.getLast? with
  | none => pure none
  | some lastEventId =>
      match store.events.get? lastEventId with
      | none =>
          throw (auditError .fetchLastHashFailed ("chain references unknown eventId=\"" ++
            lastEventId ++ "\" (storage state inconsistent)"))
      | some ev => pure (some ev.tamperProofHash)

def insertEvent (event : AuditEvent) : StoreProgram Unit := do
  let store ← Program.get
  if store.events.has event.eventId then
    throw (auditError .failClosed ("duplicate eventId=\"" ++ event.eventId ++
      "\" (insert reject;append-only)"))
  Program.modify fun store => { store with events := store.events.set event.eventId event }
  let key := chainKey event.tenantId event.auditClass
  Program.modify fun store =>
    let chain := (store.chainsByTenantClass.get? key).getD []
    { store with
      chainsByTenantClass := store.chainsByTenantClass.set key (chain ++ [event.eventId]) }

/-- The loop that resolves the event ids of a chain. -/
def resolveEvents (store : InMemoryAuditEventStore) :
    List String → Except AuditFault (List AuditEvent)
  | [] => pure []
  | eventId :: rest =>
      match store.events.get? eventId with
      | none =>
          throw (auditError .reverseReplayFailed ("chain references unknown eventId=\"" ++
            eventId ++ "\" (storage state inconsistent)"))
      | some ev => do
          let result ← resolveEvents store rest
          return ev :: result

def fetchAllEvents (store : InMemoryAuditEventStore) (tenantId : String)
    (auditClass : AuditClass) : Except AuditFault (List AuditEvent) :=
  store.resolveEvents
    ((store.chainsByTenantClass.get? (chainKey tenantId auditClass)).getD [])

def fetchEventById (store : InMemoryAuditEventStore) (eventId tenantId : String) :
    Option AuditEvent :=
  match store.events.get? eventId with
  | none => none
  | some ev => if ev.tenantId ≠ tenantId then none else some ev

end InMemoryAuditEventStore

/-! ## The writer -/

inductive DbRole where
  | auditWriterL1
  | auditWriterL2
deriving DecidableEq, Repr

structure CallerPrincipal where
  actorDid : String
  sessionId : Option String
  dbRole : Option DbRole

structure WriteAuditEventInput where
  atpVersion : Option String
  tenantId : String
  auditClass : AuditClass
  actorDid : String
  action : String
  target : String
  payload : AuditPayload
  signature : Option String

/-- A call with what the tenant resolver and the two generators answer in it. -/
structure WriteAuditEventCall where
  input : WriteAuditEventInput
  caller : CallerPrincipal
  resolveCallerTenant : CallerPrincipal → Except AuditFault String
  generateEventId : Except AuditFault String
  generateTimestamp : Except AuditFault String

def assertTenantScope (inputTenantId resolvedTenantId : String) : Except AuditFault Unit :=
  require (inputTenantId = resolvedTenantId)
    (auditError .tenantScopeViolation ("cross-tenant write attempted: input.tenantId=\"" ++
      inputTenantId ++ "\" !== resolved tenantId=\"" ++ resolvedTenantId ++
      "\" (multi-tenant audit isolation)"))

def assertDbRoleMatchesAuditClass (dbRole : Option DbRole) (auditClass : AuditClass) :
    Except AuditFault Unit := do
  require (dbRole = some .auditWriterL1 → auditClass = .L1)
    (auditError .tenantScopeViolation ("DB role mismatch audit_class: audit_writer_l1 may only " ++
      "write L1 events, got \"" ++ auditClass.text ++ "\""))
  require (dbRole = some .auditWriterL2 → auditClass ≠ .L1)
    (auditError .tenantScopeViolation ("DB role mismatch audit_class: audit_writer_l2 may not " ++
      "write L1 events, got \"" ++ auditClass.text ++ "\" (L1 reserved for audit_writer_l1)"))

def toAuditEventHash (text : String) : Except AuditFault String := do
  require (isSha256Hex text = true)
    (.error ("AUDIT_HASH_CHAIN_BROKEN: tamperProofHash not valid SHA-256 hex " ++
      "(64 lowercase hex chars): \"" ++ text ++ "\""))
  return text

/-- A `catch` that lets an `AuditError` through and reports anything else. -/
def rethrowAs (code : AuditErrorCode) (describe : String → String) : AuditFault → AuditFault
  | .audit error => .audit error
  | .error message => auditError code (describe message)

def schemaFault (subject : String) (error : AtpValidationError) : AuditFault :=
  auditError .schemaViolation (subject ++ error.instancePath ++ ": " ++ error.message)

variable (P : AuditPorts)

/-- From the fetched `previousHash` to the validated event. -/
def composeAuditEvent (call : WriteAuditEventCall) (previousHash : Option String) :
    Except AuditFault AuditEvent := do
  let canonicalPayload ← canonicalizeAuditPayload P.numberFormat call.input.payload
  let eventId ← call.generateEventId
  let timestamp ← call.generateTimestamp
  let candidateForHash : TamperProofHashInputFields :=
    { atpVersion := call.input.atpVersion.getD atpVersionCurrent
      eventId := eventId
      tenantId := call.input.tenantId
      auditClass := call.input.auditClass
      actorDid := call.input.actorDid
      action := call.input.action
      target := call.input.target
      canonicalPayload := canonicalPayload
      previousHash := previousHash
      timestamp := timestamp }
  let input ← buildTamperProofHashInput P.numberFormat candidateForHash
  let tamperProofHash ← toAuditEventHash (hash input)
  let event : AuditEvent := ⟨candidateForHash, tamperProofHash, call.input.signature⟩
  (validateAuditEvent P event).mapError
    (schemaFault "AuditEvent JSON Schema validate failed (third defense line): ")
  return event

open InMemoryAuditEventStore in
def writeAuditEvent (call : WriteAuditEventCall) : StoreProgram AuditEvent := do
  let resolvedTenant ← Program.ofExcept (call.resolveCallerTenant call.caller)
  Program.ofExcept (assertTenantScope call.input.tenantId resolvedTenant)
  Program.ofExcept (assertDbRoleMatchesAuditClass call.caller.dbRole call.input.auditClass)
  acquireAdvisoryLock call.input.tenantId call.input.auditClass
  let store ← Program.get
  let previousHash ← Program.ofExcept
    ((store.fetchLastTamperProofHash call.input.tenantId call.input.auditClass).mapError
      (rethrowAs .fetchLastHashFailed fun message =>
        "fetchLastTamperProofHash failed (DB unreachable or query timeout): " ++ message))
  let event ← Program.ofExcept (composeAuditEvent P call previousHash)
  tryCatch (insertEvent event) fun err =>
    throw (rethrowAs .failClosed (fun message =>
      "INSERT audit event failed (business transaction must ROLLBACK): " ++ message) err)
  return event

/-- A call with the release of its lock in a `finally`. -/
def lockedWrite (call : WriteAuditEventCall) : StoreProgram AuditEvent := fun store =>
  let execution := (writeAuditEvent P call).run store
  let released :=
    execution.world.releaseAdvisoryLock call.input.tenantId call.input.auditClass
  { execution with world := released }

/-- The store after a list of calls, one after the other. -/
def runCalls (store : InMemoryAuditEventStore) (calls : List WriteAuditEventCall) :
    InMemoryAuditEventStore :=
  calls.foldl (fun store call => ((lockedWrite P call).run store).world) store

/-! ## The verifier -/

structure VerifyAuditEventOptions where
  eventId : String
  tenantId : String
  originalPayload : Option AuditPayload

/-- The optional step that canonicalizes the original payload again. -/
def recheckPayload (originalPayload : Option AuditPayload) (event : AuditEvent) :
    Except AuditFault Unit :=
  match originalPayload with
  | none => pure ()
  | some payload => do
      let recomputed ← canonicalizeAuditPayload P.numberFormat payload
      require (recomputed = event.canonicalPayload)
        (auditError .canonicalizeMismatch
          "verifier re-canonicalize(payload) !== event.canonicalPayload")

/-- The body of `verifyAuditEvent` inside its `try`. -/
def verifySteps (store : InMemoryAuditEventStore) (opts : VerifyAuditEventOptions) :
    Except AuditFault AuditEvent :=
  match store.fetchEventById opts.eventId opts.tenantId with
  | none =>
      throw (auditError .tenantScopeViolation
        ("audit event not found (eventId mismatch or cross-tenant query): eventId=\"" ++
          opts.eventId ++ "\" tenantId=\"" ++ opts.tenantId ++ "\""))
  | some event => do
      (validateAuditEvent P event).mapError
        (schemaFault "audit event JSON Schema validate failed: ")
      let chain ← (store.fetchAllEvents event.tenantId event.auditClass).mapError
        (rethrowAs .reverseReplayFailed fun message => "fetchAllEvents failed: " ++ message)
      replayChain P.numberFormat event chain
      recheckPayload P opts.originalPayload event
      require (event.signature = none)
        (auditError .eventSignatureInvalid ("event.signature present but Ed25519 verify not " ++
          "implemented in atp v0.1 (deferred to v0.2 audit-share L3; counterexample defense: " ++
          "fail-closed strict);\n                    if the caller only needs tamper-proof hash " ++
          "chain verification, pass an input event without the signature field (=null)"))
      return event

/-- `ok: true` with the event or `ok: false` with an `AuditError`. -/
def verifyAuditEvent (store : InMemoryAuditEventStore) (opts : VerifyAuditEventOptions) :
    Except AuditFault AuditEvent :=
  (verifySteps P store opts).mapError
    (rethrowAs .reverseReplayFailed fun message =>
      "verifier internal error (non-AuditError): " ++ message)

end Coivitas.Policy
