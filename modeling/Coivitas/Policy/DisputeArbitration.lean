import Coivitas.Policy.SettlementRetry

/-! # Dispute arbitration

A filing is checked, arbitrators are selected, their signatures are gathered
and the decision is stored with the dispute in one transaction. The decision
comes back from the port that gathers the signatures.
-/

namespace Coivitas.Policy.Arbitration

open Foundation Crypto
open Settlement (WriteOutcome)

/-! ## Records -/

inductive DisputeState where
  | filed
  | resolved
  | expired
  deriving DecidableEq

def disputeStateTransitions : List (DisputeState × DisputeState) :=
  [(.filed, .resolved), (.filed, .expired)]

inductive DisputeType where
  | settlementFailed
  | scopeViolation
  | identityFraud
  | delegationRevocationAbuse
  | dataAccessBreach
  deriving DecidableEq

def DisputeType.text : DisputeType → String
  | .settlementFailed => "SETTLEMENT_FAILED"
  | .scopeViolation => "SCOPE_VIOLATION"
  | .identityFraud => "IDENTITY_FRAUD"
  | .delegationRevocationAbuse => "DELEGATION_REVOCATION_ABUSE"
  | .dataAccessBreach => "DATA_ACCESS_BREACH"

inductive DaVerdict where
  | claimantPrevails
  | respondentPrevails
  | noFault
  deriving DecidableEq

def minArbitratorCount : ℕ := 3

def maxArbitratorCount : ℕ := 5

def maxDisputeMs : Int := 14 * 24 * 3600 * 1000

def daSupportedVersions : List String := ["1.0.0"]

structure Arbitrator where
  did : String
  publicKey : String
  isActive : Bool

structure DisputeFiling where
  disputeId : String
  claimantDid : String
  respondentDid : String
  disputeType : DisputeType
  evidenceUris : List String
  settlementOperationRef : Option String
  cspVersion : String
  token : String
  disclosedClaims : List (String × Json)
  challenge : String
  audience : String
  notAfter : String
  filedAt : String
  daVersion : String

/-- The fields of a filing with its hash and the claimant's signature. -/
structure DisputeFilingSignedPayload extends DisputeFiling where
  canonicalHash : String
  claimantSignature : String

structure ArbitratorSignature where
  arbitratorDid : String
  signature : String
  deriving DecidableEq

structure ArbitrationDecision where
  decisionId : String
  disputeId : String
  verdict : DaVerdict
  multisigThreshold : JsNumber
  multisigPoolSize : JsNumber
  decisionCanonicalHash : String
  arbitratorSignatures : List ArbitratorSignature
  decidedAt : String
  deriving DecidableEq

structure Dispute where
  disputeId : String
  tenantId : String
  currentState : DisputeState
  disputeType : DisputeType
  claimantDid : String
  respondentDid : String
  disputeFilingCanonicalHash : String
  settlementOperationRef : Option String
  evidenceUris : List String
  cspVersion : String
  daVersion : String
  filedAt : String
  resolvedAt : Option String
  expiredAt : Option String
  attemptedAt : String
  createdAt : String

inductive TransitionTrigger where
  | arbitrationDecision
  | pc3TimeoutExpiry
  deriving DecidableEq

/-- Every event is of the audit class `L2`. -/
structure DisputeStateTransitionEvent where
  disputeId : String
  fromState : DisputeState
  toState : DisputeState
  transitionedAt : String
  triggeredBy : TransitionTrigger
  reviewQueue : Option Bool

inductive DaErrorCode where
  | filingInvalid
  | duplicateFiling
  | canonicalHashMismatch
  | signedPayloadInvalid
  | timeoutExceeded
  | stateTransitionInvalid
  | arbitratorInvalid
  | arbitratorInsufficient
  | insufficientSignatures
  | versionUnsupported
  | disputeRevoked
  | idempotencyViolation
  deriving DecidableEq

/-- An error with its reason, or what a port threw. -/
inductive ArbitrationError where
  | da (code : DaErrorCode) (reason : String)
  | port
  deriving DecidableEq

/-! ## Checks -/

structure DaPorts where
  numberFormat : NumberFormat
  sha256 : List UInt8 → List UInt8
  /-- `new Date(text).getTime()`; `none` is `NaN`. -/
  getTime : String → Option Int

def validateStateTransition (fromState toState : DisputeState) : Except ArbitrationError Unit :=
  require ((fromState, toState) ∈ disputeStateTransitions)
    (.da .stateTransitionInvalid "invalid_dispute_state_transition")

/-- `poolSize < bound`. -/
def isBelow : JsNumber → ℚ → Bool
  | .nan, _ => false
  | .negInf, _ => true
  | .finite value, bound => decide (value < bound)
  | .posInf, _ => false

/-- `Math.floor(poolSize / 2) + 1` within the bounds. -/
def computeThreshold (poolSize : JsNumber) : Except ArbitrationError JsNumber := do
  require (isBelow poolSize minArbitratorCount = false)
    (.da .arbitratorInsufficient "arbitrator_pool_size_below_minimum_constitution_p35")
  require (¬ poolSize.gt maxArbitratorCount)
    (.da .arbitratorInvalid "arbitrator_pool_size_out_of_bounds")
  match poolSize with
  | .finite value => return .finite ((value / 2).floor + 1)
  | _ => return .nan

section Steps

variable (P : DaPorts)

def checkAndExpireDispute (filedAt : String) (now : Int) : Except ArbitrationError Unit :=
  match P.getTime filedAt with
  | none => .error (.da .filingInvalid "filed_at_not_a_valid_iso8601_timestamp")
  | some filedMs =>
      require (now - filedMs < maxDisputeMs)
        (.da .timeoutExceeded "dispute_exceeded_max_dispute_days_pc3")

def validateDisputeFilingSchema (payload : DisputeFilingSignedPayload) : Bool :=
  isUuidV4 payload.disputeId && payload.claimantDid.startsWith "did:" &&
    payload.respondentDid.startsWith "did:" && payload.settlementOperationRef.all isUuidV4 &&
    isSha256Hex payload.canonicalHash

/-- Thirteen fields; the reference to a settlement only when there is one. -/
def canonicalFields (filing : DisputeFiling) : List (String × Json) :=
  ([("audience", .str filing.audience), ("challenge", .str filing.challenge),
    ("claimantDid", .str filing.claimantDid), ("cspVersion", .str filing.cspVersion),
    ("disclosedClaims", .obj filing.disclosedClaims), ("disputeId", .str filing.disputeId),
    ("disputeType", .str filing.disputeType.text),
    ("evidenceUris", .arr (filing.evidenceUris.map .str)), ("filedAt", .str filing.filedAt),
    ("notAfter", .str filing.notAfter), ("respondentDid", .str filing.respondentDid),
    ("token", .str filing.token)] : List (String × Json)) ++
  filing.settlementOperationRef.toList.map fun reference =>
    ("settlementOperationRef", .str reference)

/-- A hex digit of either case. -/
def isHexDigit (c : Char) : Bool := isLowerHex c || ('A' ≤ c && c ≤ 'F')

def toCanonicalHashHex (value : String) : Except ArbitrationError String := do
  require (value.toList.length = 64 ∧ value.toList.all isHexDigit = true)
    (.da .canonicalHashMismatch "canonical_hash_must_be_sha256_hex_64")
  return value

def computeDisputeFilingCanonicalHash (filing : DisputeFiling) : Except ArbitrationError String :=
  toCanonicalHashHex (toHex (P.sha256 (utf8 (Json.canonicalize P.numberFormat
    (.obj (canonicalFields filing))))))

/-! ## The ledger -/

/-- A stored change of a dispute's state, with its instant. -/
structure StateWrite where
  disputeId : String
  filedAt : String
  toState : DisputeState
  storedAt : Int

structure DisputeLedger where
  disputes : Table Dispute.disputeId
  filings : List (String × String)
  evidence : List (String × List String)
  decisions : List ArbitrationDecision
  transitions : List DisputeStateTransitionEvent
  decisionEvents : List (String × String)
  writes : List StateWrite

namespace DisputeLedger

def empty : DisputeLedger := ⟨Table.empty, [], [], [], [], [], []⟩

def findByCanonicalHash (canonicalHash : String) (s : DisputeLedger) : Option String :=
  (s.disputes.rows.find? fun dispute => dispute.disputeFilingCanonicalHash = canonicalHash).map
    Dispute.disputeId

/-- The identifier and the canonical hash are unique. -/
def saveDispute (dispute : Dispute) (s : DisputeLedger) : Option DisputeLedger :=
  if (s.findByCanonicalHash dispute.disputeFilingCanonicalHash).isSome then none
  else (s.disputes.insert? dispute).map fun disputes => { s with disputes }

end DisputeLedger

def Dispute.moveTo (toState : DisputeState) (transitionedAt : String) (dispute : Dispute) :
    Dispute :=
  match toState with
  | .filed => { dispute with currentState := .filed }
  | .resolved => { dispute with currentState := .resolved, resolvedAt := some transitionedAt }
  | .expired => { dispute with currentState := .expired, expiredAt := some transitionedAt }

theorem Dispute.moveTo_disputeId (toState : DisputeState) (transitionedAt : String)
    (dispute : Dispute) : (dispute.moveTo toState transitionedAt).disputeId = dispute.disputeId := by
  cases toState <;> rfl

/-- The store applies allowed transitions only. -/
def DisputeLedger.updateDisputeState (disputeId : String) (toState : DisputeState)
    (transitionedAt : String) (now : Int) (s : DisputeLedger) : Option DisputeLedger :=
  match s.disputes.find? disputeId with
  | none => none
  | some dispute =>
      if (dispute.currentState, toState) ∈ disputeStateTransitions then
        some { s with
          disputes := s.disputes.update disputeId (Dispute.moveTo toState transitionedAt)
            (Dispute.moveTo_disputeId toState transitionedAt)
          writes := s.writes ++ [⟨disputeId, dispute.filedAt, toState, now⟩] }
      else none

/-! ## One arbitration -/

structure DisputeArbitrationInput where
  filing : DisputeFiling
  signedPayload : DisputeFilingSignedPayload
  poolSizeTarget : JsNumber
  verdict : DaVerdict
  tenantId : String

/-- What the ports and the clock give to one arbitration. A port that throws answers
`false` or `none`. -/
structure ArbitrationOutcomes where
  checkedAt : Int
  findByCanonicalHash : Bool
  findByDisputeId : Bool
  validateEvidenceUris : Option (List String)
  checkFreshness : Bool
  isTokenRevoked : Option Bool
  checkDidRevocationStatus : String → Bool
  verifyDisputeFilingSignature : Option Bool
  selectArbitrators : Option (List Arbitrator)
  nowIso : String
  aggregateSignatures : Option ArbitrationDecision
  verifyArbitratorSignature : (arbitratorDid signature payload : String) → Option Bool
  resolvedAt : String
  saveDispute : Bool
  recordDisputeFiled : Bool
  storeEvidenceRef : Bool
  updateDisputeState : Bool
  saveArbitrationDecision : Bool
  recordDisputeTransition : Bool
  recordArbitrationDecision : Bool
  commit : WriteOutcome
  storedAt : Int

/-- The answer of a port that may throw. -/
def answered {α : Type} (answer : Option α) : Except ArbitrationError α :=
  match answer with
  | none => .error .port
  | some value => .ok value

@[simp] theorem answered_eq_ok {α : Type} {answer : Option α} {value : α} :
    answered answer = .ok value ↔ answer = some value := by
  cases answer <;> simp [answered]

variable (input : DisputeArbitrationInput) (env : ArbitrationOutcomes)

/-- Steps 1 and 2: the hash of the filing and its evidence. -/
def checkFiling (s : DisputeLedger) : Except ArbitrationError (String × List String) := do
  require (validateDisputeFilingSchema input.signedPayload = true)
    (.da .filingInvalid "dispute_filing_signed_payload_schema_validation_failed")
  require (input.filing.daVersion ∈ daSupportedVersions)
    (.da .versionUnsupported "unsupported_da_version_in_filing")
  checkAndExpireDispute P input.filing.filedAt env.checkedAt
  let hash ← computeDisputeFilingCanonicalHash P input.filing
  require (env.findByCanonicalHash = true) .port
  require (s.findByCanonicalHash hash = none)
    (.da .duplicateFiling "duplicate_dispute_filing_canonical_hash_exists")
  require (env.findByDisputeId = true) .port
  require (∀ existing ∈ s.disputes.find? input.filing.disputeId,
      existing.disputeFilingCanonicalHash = hash)
    (.da .idempotencyViolation "same_dispute_id_different_canonical_hash_double_filing_detected")
  require (input.signedPayload.canonicalHash = hash)
    (.da .canonicalHashMismatch "signed_payload_canonical_hash_mismatch")
  let validatedUris ← answered env.validateEvidenceUris
  return (hash, validatedUris)

/-- Step 3. -/
def verifyFiling : Except ArbitrationError Unit := do
  require (env.checkFreshness = true) .port
  let isRevoked ← answered env.isTokenRevoked
  require (isRevoked = false) (.da .disputeRevoked "csp_token_has_been_revoked")
  require (env.checkDidRevocationStatus input.filing.claimantDid = true) .port
  require (env.checkDidRevocationStatus input.filing.respondentDid = true) .port
  let sigValid ← answered env.verifyDisputeFilingSignature
  require (sigValid = true)
    (.da .signedPayloadInvalid "dispute_filing_csp_signature_verification_failed")

/-- Step 4: the threshold of the target size, and the list that the selector returns. -/
def selectPanel : Except ArbitrationError (JsNumber × List Arbitrator) := do
  let threshold ← computeThreshold input.poolSizeTarget
  let arbitrators ← answered env.selectArbitrators
  require (minArbitratorCount ≤ arbitrators.length)
    (.da .arbitratorInsufficient "selected_arbitrator_count_below_minimum")
  forEach arbitrators fun arbitrator =>
    require (env.checkDidRevocationStatus arbitrator.did = true) .port
  return (threshold, arbitrators)

/-- `threshold > poolSize`. -/
def exceedsPool : JsNumber → JsNumber → Bool
  | .finite threshold, .finite poolSize => decide (poolSize < threshold)
  | _, _ => false

/-- Signers are distinct, selected, and their signatures verify over the hash that the
decision carries. -/
def verifySignatures (arbitrators : List Arbitrator) (decision : ArbitrationDecision) :
    Except ArbitrationError Unit := do
  require ((decision.arbitratorSignatures.map ArbitratorSignature.arbitratorDid).Nodup)
    (.da .insufficientSignatures "duplicate_arbitrator_signature_in_aggregation")
  forEach decision.arbitratorSignatures fun sig =>
    require (sig.arbitratorDid ∈ arbitrators.map Arbitrator.did)
      (.da .arbitratorInvalid "signer_not_in_selected_arbitrator_pool")
  forEach decision.arbitratorSignatures fun sig => do
    let verified ← answered (env.verifyArbitratorSignature sig.arbitratorDid sig.signature
      decision.decisionCanonicalHash)
    require (verified = true)
      (.da .insufficientSignatures "arbitrator_signature_crypto_verification_failed")

/-- Step 5: the decision as the aggregation returns it. -/
def signDecision (threshold : JsNumber) (arbitrators : List Arbitrator) :
    Except ArbitrationError ArbitrationDecision := do
  require (exceedsPool threshold input.poolSizeTarget = false)
    (.da .arbitratorInvalid "multisig_threshold_exceeds_pool_size")
  let signedDecision ← answered env.aggregateSignatures
  require (¬ threshold.gt signedDecision.arbitratorSignatures.length)
    (.da .insufficientSignatures "insufficient_arbitrator_signatures_after_aggregation")
  verifySignatures env arbitrators signedDecision
  return signedDecision

def filedDispute (hash : String) (validatedUris : List String) : Dispute where
  disputeId := input.filing.disputeId
  tenantId := input.tenantId
  currentState := .filed
  disputeType := input.filing.disputeType
  claimantDid := input.filing.claimantDid
  respondentDid := input.filing.respondentDid
  disputeFilingCanonicalHash := hash
  settlementOperationRef := input.filing.settlementOperationRef
  evidenceUris := validatedUris
  cspVersion := input.filing.cspVersion
  daVersion := "1.0.0"
  filedAt := input.filing.filedAt
  resolvedAt := none
  expiredAt := none
  attemptedAt := env.nowIso
  createdAt := env.nowIso

def resolvedEvent : DisputeStateTransitionEvent :=
  ⟨input.filing.disputeId, .filed, .resolved, env.resolvedAt, .arbitrationDecision, none⟩

/-- One write of the transaction; a port that throws rolls all of them back. -/
def writeInTransaction (succeeds : Bool) (write : DisputeLedger → Option DisputeLedger)
    (s : DisputeLedger) : Option DisputeLedger :=
  if succeeds then write s else none

/-- Steps 6 and 7: the seven writes. -/
def transaction (hash : String) (validatedUris : List String) (decision : ArbitrationDecision)
    (s : DisputeLedger) : Option DisputeLedger := do
  let s ← writeInTransaction env.saveDispute
    (DisputeLedger.saveDispute (filedDispute input env hash validatedUris)) s
  let s ← writeInTransaction env.recordDisputeFiled
    (fun s => some { s with filings := s.filings ++ [(input.filing.disputeId, hash)] }) s
  let s ← writeInTransaction env.storeEvidenceRef
    (fun s => some { s with evidence := s.evidence ++ [(input.filing.disputeId, validatedUris)] }) s
  let s ← writeInTransaction env.updateDisputeState
    (DisputeLedger.updateDisputeState input.filing.disputeId .resolved env.resolvedAt
      env.storedAt) s
  let s ← writeInTransaction env.saveArbitrationDecision
    (fun s => some { s with decisions := s.decisions ++ [decision] }) s
  let s ← writeInTransaction env.recordDisputeTransition
    (fun s => some { s with transitions := s.transitions ++ [resolvedEvent input env] }) s
  writeInTransaction env.recordArbitrationDecision
    (fun s => some { s with
      decisionEvents := s.decisionEvents ++
        [(input.filing.disputeId, decision.decisionCanonicalHash)] }) s

structure DisputeArbitrationResult where
  dispute : Dispute
  decision : ArbitrationDecision
  transitionEvent : DisputeStateTransitionEvent

/-- Steps 1 to 5, which only read. -/
def prepare (s : DisputeLedger) :
    Except ArbitrationError (String × List String × ArbitrationDecision) := do
  let (hash, validatedUris) ← checkFiling P input env s
  verifyFiling input env
  let (threshold, arbitrators) ← selectPanel input env
  let signedDecision ← signDecision input env threshold arbitrators
  validateStateTransition .filed .resolved
  return (hash, validatedUris, signedDecision)

/-- The transaction commits all of its writes or none. -/
def runDisputeArbitration7Steps (s : DisputeLedger) :
    Except ArbitrationError DisputeArbitrationResult × DisputeLedger :=
  match prepare P input env s with
  | .error error => (.error error, s)
  | .ok (hash, validatedUris, decision) =>
      match env.commit, transaction input env hash validatedUris decision s with
      | .failed, _ => (.error .port, s)
      | _, none => (.error .port, s)
      | .lost, some s' => (.error .port, s')
      | .done, some s' =>
          (.ok ⟨(filedDispute input env hash validatedUris).moveTo .resolved env.resolvedAt,
            decision, resolvedEvent input env⟩, s')

/-! ## What is persisted -/

section Persisted

variable {P} {input} {env} {s s' : DisputeLedger} {hash : String} {validatedUris : List String}
  {decision : ArbitrationDecision}

@[simp] theorem writeInTransaction_eq_some {succeeds : Bool}
    {write : DisputeLedger → Option DisputeLedger} :
    writeInTransaction succeeds write s = some s' ↔ succeeds = true ∧ write s = some s' := by
  cases succeeds <;> simp [writeInTransaction]

theorem saveDispute_eq_some {dispute : Dispute} (hsave : s.saveDispute dispute = some s') :
    ∃ disputes, s.disputes.insert? dispute = some disputes ∧ s' = { s with disputes } := by
  unfold DisputeLedger.saveDispute at hsave
  split at hsave
  next => cases hsave
  next =>
    obtain ⟨disputes, hinsert, rfl⟩ := Option.map_eq_some_iff.mp hsave
    exact ⟨disputes, hinsert, rfl⟩

/-- An update finds the dispute in a state that it may leave. -/
theorem updateDisputeState_eq_some {disputeId transitionedAt : String} {toState : DisputeState}
    {now : Int} (hupdate : s.updateDisputeState disputeId toState transitionedAt now = some s') :
    ∃ dispute, s.disputes.find? disputeId = some dispute ∧
      (dispute.currentState, toState) ∈ disputeStateTransitions ∧
      s' = { s with
        disputes := s.disputes.update disputeId (Dispute.moveTo toState transitionedAt)
          (Dispute.moveTo_disputeId toState transitionedAt)
        writes := s.writes ++ [⟨disputeId, dispute.filedAt, toState, now⟩] } := by
  unfold DisputeLedger.updateDisputeState at hupdate
  split at hupdate
  next => cases hupdate
  next dispute hfind =>
    split at hupdate
    next hallowed =>
      cases hupdate
      exact ⟨dispute, hfind, hallowed, rfl⟩
    next => cases hupdate

/-- A transaction inserts the dispute, resolves it and records the decision and both
events. -/
theorem transaction_eq_some
    (htransaction : transaction input env hash validatedUris decision s = some s') :
    ∃ disputes,
      s.disputes.insert? (filedDispute input env hash validatedUris) = some disputes ∧
      s'.disputes = disputes.update input.filing.disputeId
        (Dispute.moveTo .resolved env.resolvedAt)
        (Dispute.moveTo_disputeId .resolved env.resolvedAt) ∧
      s'.decisions = s.decisions ++ [decision] ∧
      s'.transitions = s.transitions ++ [resolvedEvent input env] ∧
      s'.writes = s.writes ++
        [⟨input.filing.disputeId, input.filing.filedAt, .resolved, env.storedAt⟩] := by
  simp only [transaction, Option.bind_eq_bind, Option.bind_eq_some_iff,
    writeInTransaction_eq_some, Option.some.injEq] at htransaction
  obtain ⟨s₁, ⟨-, hsave⟩, s₂, ⟨-, rfl⟩, s₃, ⟨-, rfl⟩, s₄, ⟨-, hupdate⟩, s₅, ⟨-, rfl⟩, s₆,
    ⟨-, rfl⟩, -, rfl⟩ := htransaction
  obtain ⟨disputes, hinsert, rfl⟩ := saveDispute_eq_some hsave
  obtain ⟨dispute, hfind, -, rfl⟩ := updateDisputeState_eq_some hupdate
  have hdispute : dispute = filedDispute input env hash validatedUris := by
    have hfiled := Table.find?_insert? hinsert input.filing.disputeId
    rw [if_pos (by rfl)] at hfiled
    exact Option.some.inj (hfind.symm.trans hfiled)
  exact ⟨disputes, hinsert, rfl, rfl, rfl, by rw [hdispute]; rfl⟩

/-- What the steps before the transaction establish about the decision. -/
theorem prepare_eq_ok (hprepare : prepare P input env s = .ok (hash, validatedUris, decision)) :
    env.aggregateSignatures = some decision ∧
      ∃ arbitrators, env.selectArbitrators = some arbitrators ∧
        (decision.arbitratorSignatures.map ArbitratorSignature.arbitratorDid).Nodup ∧
        ∀ sig ∈ decision.arbitratorSignatures,
          sig.arbitratorDid ∈ arbitrators.map Arbitrator.did ∧
            env.verifyArbitratorSignature sig.arbitratorDid sig.signature
              decision.decisionCanonicalHash = some true := by
  simp only [prepare, bind_eq_ok, exists_unit, Prod.exists, pure_eq_ok, Prod.mk.injEq] at hprepare
  obtain ⟨_, _, -, -, threshold, arbitrators, hpanel, decision', hdecision, -, -, -, rfl⟩ :=
    hprepare
  simp only [selectPanel, bind_eq_ok, exists_unit, answered_eq_ok, require_eq_ok, forEach_eq_ok,
    pure_eq_ok, Prod.mk.injEq] at hpanel
  obtain ⟨_, -, _, hselect, -, -, -, rfl⟩ := hpanel
  simp only [signDecision, verifySignatures, bind_eq_ok, exists_unit, answered_eq_ok,
    require_eq_ok, forEach_eq_ok, pure_eq_ok] at hdecision
  obtain ⟨-, _, haggregate, -, ⟨hnodup, hmember, hverified⟩, rfl⟩ := hdecision
  refine ⟨haggregate, _, hselect, hnodup, fun sig hsig => ⟨hmember sig hsig, ?_⟩⟩
  obtain ⟨verified, hverify, rfl⟩ := hverified sig hsig
  exact hverify

/-- The threshold is a majority of the size that it is computed for. -/
theorem computeThreshold_majority {size : ℚ} {threshold : JsNumber}
    (hthreshold : computeThreshold (.finite size) = .ok threshold) :
    ∃ count, threshold = .finite count ∧ size < 2 * count := by
  simp only [computeThreshold, bind_eq_ok, exists_unit, require_eq_ok, pure_eq_ok] at hthreshold
  obtain ⟨-, -, rfl⟩ := hthreshold
  have hfloor : size / 2 < (size / 2).floor + 1 := by exact_mod_cast Rat.lt_floor_add_one _
  exact ⟨_, rfl, by linarith⟩

/-- A decision that is gone on with has the signatures of a majority of the target size,
and so of every list that is no longer. -/
theorem prepare_majority {size : ℚ} (htarget : input.poolSizeTarget = .finite size)
    (hprepare : prepare P input env s = .ok (hash, validatedUris, decision)) :
    size < 2 * decision.arbitratorSignatures.length := by
  simp only [prepare, bind_eq_ok, exists_unit, Prod.exists, pure_eq_ok, Prod.mk.injEq] at hprepare
  obtain ⟨_, _, -, -, threshold, arbitrators, hpanel, _, hdecision, -, -, -, rfl⟩ := hprepare
  simp only [selectPanel, bind_eq_ok, pure_eq_ok, Prod.mk.injEq] at hpanel
  obtain ⟨_, hthreshold, _, -, _, -, _, -, rfl, -⟩ := hpanel
  rw [htarget] at hthreshold
  obtain ⟨count, rfl, hmajority⟩ := computeThreshold_majority hthreshold
  simp only [signDecision, bind_eq_ok, exists_unit, answered_eq_ok, require_eq_ok,
    pure_eq_ok] at hdecision
  obtain ⟨-, signedDecision, -, henough, -, rfl⟩ := hdecision
  have hcount : count ≤ signedDecision.arbitratorSignatures.length := not_lt.mp henough
  linarith

/-- A ledger with a decision more was left by the transaction. -/
theorem persisted_eq (hpersisted : (runDisputeArbitration7Steps P input env s).2.decisions =
      s.decisions ++ [decision]) :
    ∃ hash validatedUris, prepare P input env s = .ok (hash, validatedUris, decision) := by
  unfold runDisputeArbitration7Steps at hpersisted
  split at hpersisted
  next => simp at hpersisted
  next hash validatedUris decision' hprepare =>
    refine ⟨hash, validatedUris, ?_⟩
    suffices hdecision : decision' = decision by rw [hprepare, hdecision]
    split at hpersisted
    next => simp at hpersisted
    next => simp at hpersisted
    next htransaction =>
      obtain ⟨_, -, -, hdecisions, -⟩ := transaction_eq_some htransaction
      simpa [hdecisions] using hpersisted
    next htransaction =>
      obtain ⟨_, -, -, hdecisions, -⟩ := transaction_eq_some htransaction
      simpa [hdecisions] using hpersisted

end Persisted

section Majority

variable (Valid : (arbitratorDid signature payload : String) → Prop)
  (canonicalHash : ArbitrationDecision → String)

/-- The answer about a signature is true to it. -/
def Truthful : Prop :=
  ∀ arbitratorDid signature payload verified,
    env.verifyArbitratorSignature arbitratorDid signature payload = some verified →
      (verified = true ↔ Valid arbitratorDid signature payload)

/-- The decision is the one that was asked for, and more than half of the selected list
have signed the canonical hash that it carries. -/
structure MajoritySigned (decision : ArbitrationDecision) : Prop where
  disputeId : decision.disputeId = input.filing.disputeId
  verdict : decision.verdict = input.verdict
  hash : decision.decisionCanonicalHash = canonicalHash decision
  signed : ∃ arbitrators, env.selectArbitrators = some arbitrators ∧
    (decision.arbitratorSignatures.map ArbitratorSignature.arbitratorDid).Nodup ∧
    (∀ sig ∈ decision.arbitratorSignatures, sig.arbitratorDid ∈ arbitrators.map Arbitrator.did ∧
      Valid sig.arbitratorDid sig.signature (canonicalHash decision)) ∧
    arbitrators.length < 2 * decision.arbitratorSignatures.length

/-- The aggregation returns the dispute and the verdict that it was given with the
decision's own hash, and signatures enough for the list that the selector returned. -/
structure HonestPorts : Prop where
  disputeId : ∀ decision ∈ env.aggregateSignatures, decision.disputeId = input.filing.disputeId
  verdict : ∀ decision ∈ env.aggregateSignatures, decision.verdict = input.verdict
  hash : ∀ decision ∈ env.aggregateSignatures,
    decision.decisionCanonicalHash = canonicalHash decision
  panel : ∀ decision ∈ env.aggregateSignatures, ∀ arbitrators ∈ env.selectArbitrators,
    arbitrators.length < 2 * decision.arbitratorSignatures.length

/-- A persisted decision is what a majority signed exactly when the ports are honest in
what the steps do not check. -/
theorem persisted_majority_iff {s : DisputeLedger} {decision : ArbitrationDecision}
    (htruthful : Truthful env Valid)
    (hpersisted : (runDisputeArbitration7Steps P input env s).2.decisions =
      s.decisions ++ [decision]) :
    MajoritySigned input env Valid canonicalHash decision ↔
      HonestPorts input env canonicalHash := by
  obtain ⟨hash, validatedUris, hprepare⟩ := persisted_eq hpersisted
  obtain ⟨haggregate, arbitrators, hselect, hnodup, hsigs⟩ := prepare_eq_ok hprepare
  constructor
  · rintro ⟨hdispute, hverdict, hhash, arbitrators', hselect', -, -, hpanel⟩
    cases hselect.symm.trans hselect'
    refine ⟨?_, ?_, ?_, ?_⟩ <;> rw [haggregate] <;> rintro _ ⟨⟩
    · exact hdispute
    · exact hverdict
    · exact hhash
    · rw [hselect]
      rintro _ ⟨⟩
      exact hpanel
  · rintro ⟨hdispute, hverdict, hhash, hpanel⟩
    have hhash := hhash decision haggregate
    refine ⟨hdispute decision haggregate, hverdict decision haggregate, hhash, arbitrators,
      hselect, hnodup, fun sig hsig => ⟨(hsigs sig hsig).1, ?_⟩,
      hpanel decision haggregate arbitrators hselect⟩
    rw [← hhash]
    exact (htruthful _ _ _ _ (hsigs sig hsig).2).mp rfl

end Majority

end Steps

/-! ## A panel of three -/

namespace Panel

/-- The hash of the filing below is the only one that is asked for. -/
def ports : DaPorts where
  numberFormat := NumberFormat.decimal
  sha256 := fun _ => [
    0x69, 0x17, 0xcf, 0xe1, 0x26, 0x77, 0xea, 0x80, 0x07, 0x70, 0x37, 0x81, 0xa1, 0x66, 0xc2, 0x9e,
    0x84, 0x93, 0x85, 0x8a, 0x6f, 0x50, 0xae, 0x86, 0x35, 0xb3, 0x72, 0x71, 0x2e, 0x23, 0xfd, 0x0a]
  getTime := Calendar.getTime

def filing : DisputeFiling where
  disputeId := "6d1f0c52-8b7e-4a39-9c41-2e5d7f803b16"
  claimantDid := "did:agent:4f0c2b7d9e1a63580c7d2e9f1b4a6c8d0e2f4a61"
  respondentDid := "did:agent:9a8b7c6d5e4f30211203f4e5d6c7b8a99a8b7c6d"
  disputeType := .settlementFailed
  evidenceUris := ["https://evidence.example/1"]
  settlementOperationRef := none
  cspVersion := "1.0.0"
  token := "urn:cap:7c9e6679-7425-40de-944b-e07fc1f90ae7"
  disclosedClaims := []
  challenge := "f3a9c6d2"
  audience := "did:agent:bcb87e6537efe28620ec0d8ef6e8e7e50e39bfad"
  notAfter := "2026-07-20T12:00:00.000Z"
  filedAt := "2026-06-20T12:00:00.000Z"
  daVersion := "1.0.0"

def input : DisputeArbitrationInput where
  filing := filing
  signedPayload := { filing with
    canonicalHash := "6917cfe12677ea8007703781a166c29e8493858a6f50ae8635b372712e23fd0a"
    claimantSignature := "c2lnbmVkIGJ5IHRoZSBjbGFpbWFudA" }
  poolSizeTarget := .finite 3
  verdict := .claimantPrevails
  tenantId := "5e0c6f3a-1b7d-4c29-9a84-0f2e6d8b7c51"

def first : Arbitrator where
  did := "did:agent:c33268f3f1257d8f38b64b340cbe9127643d53a9"
  publicKey := "67bd8bfc3aba12ded163ef5628ead974a8e7585a1ea15e3d5cc77e311c359e3a"
  isActive := true

def second : Arbitrator where
  did := "did:agent:9ca54ae521e3381097882d42c64122172d5ef9c1"
  publicKey := "bcec712d7201a8640e6df061f8451125930602780cfb0684004731cc3f558850"
  isActive := true

def third : Arbitrator where
  did := "did:agent:bd0ba3478e80b8a5c0f75f13c1f8eb18c53fd7b5"
  publicKey := "32b8125cec760e8985d7dfc6f3f5b085fcb9aadef58ede169cbb56a1e0429379"
  isActive := true

/-- The hashes of the decisions below, by their verdict. -/
def decisionHash (decision : ArbitrationDecision) : String :=
  match decision.verdict with
  | .claimantPrevails => "e0de4049ace7536e07a673ee669f740db148c11645598899afd757d3aff35022"
  | .respondentPrevails => "c552e169d074ab3c39be356d61b863375e6fe774723668f3b508f81a0a13612e"
  | .noFault => ""

def decision (verdict : DaVerdict) (hash : String) (signatures : List ArbitratorSignature) :
    ArbitrationDecision where
  decisionId := filing.disputeId
  disputeId := filing.disputeId
  verdict := verdict
  multisigThreshold := .finite 2
  multisigPoolSize := .finite 3
  decisionCanonicalHash := hash
  arbitratorSignatures := signatures
  decidedAt := "2026-06-21T09:00:00.000Z"

def claimantPrevails : ArbitrationDecision :=
  decision .claimantPrevails "e0de4049ace7536e07a673ee669f740db148c11645598899afd757d3aff35022" [
    ⟨first.did,
      "ClOTg2NmO68Jgg-0wnC9XRjh8pyzXyNYKncG3wNySRpb3_h3Ih_TErl3L9vwYAT7ofzNTs9gq00-VnKKNi_FCA"⟩,
    ⟨second.did,
      "nAfxsox-Q5BZLrp77Bvb-gSo3jFC7Melqak6XWM22wqX7ViOiIY1qqmqoRZ5yzXA8c6iRKgP-CQ3Jt-D8mggDw"⟩]

def respondentPrevails : ArbitrationDecision :=
  decision .respondentPrevails "c552e169d074ab3c39be356d61b863375e6fe774723668f3b508f81a0a13612e" [
    ⟨first.did,
      "U-bVa2iBUgAOR1E1a_hwIWl1Mfe8XtefWlMiZ7iDno6RRQUdzoQpBTHFQUblqjb3csdGolEZWEtu7hG-u-WMBA"⟩,
    ⟨second.did,
      "BAmxqdmByH3l_KAGU7dXyeIe8WPV5CvyrzKJmsKhRtYaBgTp1ozKNsPvKDzrtqi1217IS3E92uqYAyT1cHc4AA"⟩]

/-- The signatures that the arbitrators have made. -/
def Signed (arbitratorDid signature payload : String) : Prop :=
  ∃ decision ∈ [claimantPrevails, respondentPrevails],
    payload = decision.decisionCanonicalHash ∧
      ⟨arbitratorDid, signature⟩ ∈ decision.arbitratorSignatures

instance (arbitratorDid signature payload : String) :
    Decidable (Signed arbitratorDid signature payload) := by
  unfold Signed
  infer_instance

/-- Every port works, and the aggregation returns the given decision. -/
def outcomes (aggregated : ArbitrationDecision) : ArbitrationOutcomes where
  checkedAt := 1782032390000
  findByCanonicalHash := true
  findByDisputeId := true
  validateEvidenceUris := some filing.evidenceUris
  checkFreshness := true
  isTokenRevoked := some false
  checkDidRevocationStatus := fun _ => true
  verifyDisputeFilingSignature := some true
  selectArbitrators := some [first, second, third]
  nowIso := "2026-06-21T09:00:00.000Z"
  aggregateSignatures := some aggregated
  verifyArbitratorSignature := fun arbitratorDid signature payload =>
    some (decide (Signed arbitratorDid signature payload))
  resolvedAt := "2026-06-21T09:00:01.000Z"
  saveDispute := true
  recordDisputeFiled := true
  storeEvidenceRef := true
  updateDisputeState := true
  saveArbitrationDecision := true
  recordDisputeTransition := true
  recordArbitrationDecision := true
  commit := .done
  storedAt := 1782032401000

theorem truthful_outcomes (aggregated : ArbitrationDecision) :
    Truthful (outcomes aggregated) Signed := by
  rintro arbitratorDid signature payload verified ⟨⟩
  exact decide_eq_true_iff

/-- The law fails: the claimant was to prevail, and the decision for the respondent is
stored. -/
theorem other_verdict_persisted :
    (runDisputeArbitration7Steps ports input (outcomes respondentPrevails)
        DisputeLedger.empty).2.decisions = DisputeLedger.empty.decisions ++ [respondentPrevails] ∧
      Truthful (outcomes respondentPrevails) Signed ∧
      ¬ MajoritySigned input (outcomes respondentPrevails) Signed decisionHash
        respondentPrevails :=
  ⟨by decide +kernel, truthful_outcomes _, fun hsigned => by cases hsigned.verdict⟩

theorem asked_verdict_persisted :
    (runDisputeArbitration7Steps ports input (outcomes claimantPrevails)
        DisputeLedger.empty).2.decisions = DisputeLedger.empty.decisions ++ [claimantPrevails] ∧
      MajoritySigned input (outcomes claimantPrevails) Signed decisionHash claimantPrevails := by
  have hpersisted : (runDisputeArbitration7Steps ports input (outcomes claimantPrevails)
      DisputeLedger.empty).2.decisions = DisputeLedger.empty.decisions ++ [claimantPrevails] := by
    decide +kernel
  refine ⟨hpersisted, (persisted_majority_iff ports input (outcomes claimantPrevails) Signed decisionHash
    (truthful_outcomes _) hpersisted).mpr ⟨?_, ?_, ?_, ?_⟩⟩
  · rintro _ ⟨⟩
    rfl
  · rintro _ ⟨⟩
    rfl
  · rintro _ ⟨⟩
    rfl
  · rintro _ ⟨⟩ _ ⟨⟩
    obtain ⟨hash, validatedUris, hprepare⟩ := persisted_eq hpersisted
    exact_mod_cast prepare_majority rfl hprepare

end Panel

end Coivitas.Policy.Arbitration
