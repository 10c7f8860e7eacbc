import Coivitas.Identity.DelegationValidator
import Coivitas.Policy.ScopeEvaluator

/-! # The runtime guard

The guard goes through the agent's tokens and answers with the first one that
verifies, matches the action, passes its scopes and is not revoked.
-/

namespace Coivitas.Policy

open Foundation Coivitas.Types Identity

/-- A reading of a clock: a timestamp and the instant it denotes. -/
structure ClockReading where
  text : String
  time : Int
  getTime_text : Calendar.getTime text = some time

/-- What the guard is built with. The clock and the generator of identifiers may
answer differently at every use: for the token at index `k` the clock is read at
`3 * k` and the following two. -/
structure RuntimeGuardDependencies (σ : Type) where
  signatures : SignaturePorts
  getTokensForAgent : String → List CapabilityToken
  getToken : Option (String → Option CapabilityToken)
  revocationChecker : String → Bool
  scopeEvaluator : ScopeEvaluator σ
  now : Nat → ClockReading
  delegationChainValidator : Option (ChainPorts → CapabilityToken → String → Except ChainStop Nat)
  resolvePublicKeys : Option (String → Option ResolvedPublicKeys)
  randomUUID : Nat → String

inductive GuardReason where
  | requestedTokenNotFound
  | noTokensFound
  | parentTokenRevoked
  | noMatchingCapability
  | capabilityRevoked
  | scopeCheckFailed (denial : Option ScopeDenial)

/-- The text of a reason, given the texts of the scope evaluator. -/
def GuardReason.text (scopeText : ScopeDenial → String) : GuardReason → String
  | .requestedTokenNotFound => "requested token not found for agent"
  | .noTokensFound => "no tokens found"
  | .parentTokenRevoked => "parent token revoked"
  | .noMatchingCapability => "no matching capability"
  | .capabilityRevoked => "capability revoked"
  | .scopeCheckFailed denial =>
      "scope check failed: " ++ (denial.map scopeText).getD "unknown reason"

structure RuntimeGuardResult where
  allowed : Bool
  reason : Option GuardReason
  code : Option String
  tokenId : Option String
  delegationDepth : Option Nat

def denied (reason : GuardReason) : RuntimeGuardResult := ⟨false, some reason, none, none, none⟩

/-- The evaluation threw instead of denying. -/
def ScopeDenial.Threw : ScopeDenial → Prop
  | .unexpectedWeekday _ => True
  | .trackerError => True
  | _ => False

instance : DecidablePred ScopeDenial.Threw := fun denial => by
  cases denial <;> unfold ScopeDenial.Threw <;> infer_instance

/-- How the turn of one token ends. -/
inductive TokenOutcome where
  | skipped
  | scopeFailed (denial : ScopeDenial)
  | revoked
  | answered (result : RuntimeGuardResult)
  | threw

variable {σ : Type} (D : RuntimeGuardDependencies σ)

/-! ## One token -/

/-- The token verified directly, or through its delegation chain; the depth of the
chain on success. -/
def verifyToken (k : Nat) (token : CapabilityToken) : Except TokenOutcome Nat :=
  if ¬ isDelegated token then
    match verifyCapabilityToken D.signatures token (D.now (3 * k)).text none with
    | .ok () => .ok 0
    | .error (.invalid _) => .error .skipped
    | .error .threw => .error .threw
  else
    match D.delegationChainValidator, D.resolvePublicKeys, D.getToken with
    | some delegationChainValidator, some resolvePublicKeys, some getToken =>
        let nowMs := (D.now (3 * k)).time
        if (∃ issuedAt ∈ Calendar.getTime token.issuedAt, nowMs < issuedAt) ∨
            (∃ expiresAt ∈ Calendar.getTime token.expiresAt, expiresAt ≤ nowMs) then
          .error .skipped
        else
          match delegationChainValidator ⟨D.signatures, resolvePublicKeys,
              some fun _ => D.revocationChecker, some fun _ => getToken⟩ token
              (D.now (3 * k + 1)).text with
          | .ok depth => .ok depth
          | .error (.invalid failure) =>
              if failure.reason = .parentTokenRevoked then
                .error (.answered ⟨false, some .parentTokenRevoked, some "TOKEN_REVOKED",
                  some token.id, none⟩)
              else .error .skipped
          | .error .threw => .error .threw
    | _, _, _ => .error .skipped

def matchingScopes (action : String) (token : CapabilityToken) : List Scope :=
  (token.capabilities.filter fun capability => capability.action = action).map Capability.scope

/-- The id that quota is reserved under: the caller's, if it passed a text. -/
def guardRecordId (k : Nat) (params : Params) : String :=
  textOr (D.randomUUID k) (params "__recordId")

def paramsWithAgent (agentDid recordId : String) (params : Params) : Params :=
  Function.update (Function.update params "__agentDid" (.string agentDid)) "__recordId"
    (.string recordId)

def checkToken (action : String) (params : Params) (agentDid : String) (k : Nat)
    (token : CapabilityToken) (store : σ) : TokenOutcome × σ :=
  match verifyToken D k token with
  | .error outcome => (outcome, store)
  | .ok chainDepth =>
      if matchingScopes action token = [] then (.skipped, store)
      else
        match evaluateAll D.scopeEvaluator (matchingScopes action token)
            (paramsWithAgent agentDid (guardRecordId D k params) params) (D.now (3 * k + 2)).time
            store with
        | (.error denial, store') =>
            if denial.Threw then (.threw, store') else (.scopeFailed denial, store')
        | (.ok (), store') =>
            if D.revocationChecker token.id then (.revoked, store')
            else (.answered ⟨true, none, none, some token.id, some chainDepth⟩, store')

/-! ## All tokens -/

/-- What the loop remembers of the tokens before. -/
structure Progress where
  sawMatchingCapability : Bool
  lastScopeFailure : Option ScopeDenial
  sawRevoked : Bool

def Progress.result (progress : Progress) : RuntimeGuardResult :=
  if ¬ progress.sawMatchingCapability then denied .noMatchingCapability
  else if progress.sawRevoked then denied .capabilityRevoked
  else denied (.scopeCheckFailed progress.lastScopeFailure)

/-- The loop over the tokens from index `k` on; no result when it throws. -/
def checkTokens (action : String) (params : Params) (agentDid : String) :
    Nat → Progress → List CapabilityToken → σ → Option RuntimeGuardResult × σ
  | _, progress, [], store => (some progress.result, store)
  | k, progress, token :: tokens, store =>
      match checkToken D action params agentDid k token store with
      | (.threw, store') => (none, store')
      | (.answered result, store') => (some result, store')
      | (.skipped, store') => checkTokens action params agentDid (k + 1) progress tokens store'
      | (.scopeFailed denial, store') =>
          checkTokens action params agentDid (k + 1)
            { progress with sawMatchingCapability := true, lastScopeFailure := some denial }
            tokens store'
      | (.revoked, store') =>
          checkTokens action params agentDid (k + 1)
            { progress with sawMatchingCapability := true, sawRevoked := true } tokens store'

def candidates (agentDid : String) (requestedTokenId : Option String) : List CapabilityToken :=
  match requestedTokenId with
  | none => D.getTokensForAgent agentDid
  | some id => (D.getTokensForAgent agentDid).filter fun token => token.id = id

def check (action : String) (params : Params) (agentDid : String)
    (requestedTokenId : Option String) (store : σ) : Option RuntimeGuardResult × σ :=
  match candidates D agentDid requestedTokenId with
  | [] => (some (denied (if requestedTokenId.isSome then .requestedTokenNotFound
      else .noTokensFound)), store)
  | tokens => checkTokens D action params agentDid 0 ⟨false, none, false⟩ tokens store

/-! ## The accepting turn -/

/-- The turn of a token: its index, and the store its scopes are evaluated on. -/
structure Turn (σ : Type) where
  index : Nat
  token : CapabilityToken
  store : σ

/-- The turn at which the loop allows the request. -/
def acceptingTurn (action : String) (params : Params) (agentDid : String) :
    Nat → List CapabilityToken → σ → Option (Turn σ)
  | _, [], _ => none
  | k, token :: tokens, store =>
      match checkToken D action params agentDid k token store with
      | (.threw, _) => none
      | (.answered result, _) => if result.allowed then some ⟨k, token, store⟩ else none
      | (_, store') => acceptingTurn action params agentDid (k + 1) tokens store'

def acceptedTurn (action : String) (params : Params) (agentDid : String)
    (requestedTokenId : Option String) (store : σ) : Option (Turn σ) :=
  acceptingTurn D action params agentDid 0 (candidates D agentDid requestedTokenId) store

variable {D} {action : String} {params : Params} {agentDid : String}

/-- What an accepted token has passed. -/
structure Allowed (D : RuntimeGuardDependencies σ) (action : String) (params : Params)
    (agentDid : String) (turn : Turn σ) (store' : σ) : Prop where
  verified : ∃ depth, verifyToken D turn.index turn.token = .ok depth
  matched : matchingScopes action turn.token ≠ []
  evaluated : evaluateAll D.scopeEvaluator (matchingScopes action turn.token)
    (paramsWithAgent agentDid (guardRecordId D turn.index params) params)
    (D.now (3 * turn.index + 2)).time turn.store = (.ok (), store')
  unrevoked : D.revocationChecker turn.token.id = false

theorem checkToken_allowed {k : Nat} {token : CapabilityToken} {store store' : σ}
    {result : RuntimeGuardResult}
    (hcheck : checkToken D action params agentDid k token store = (.answered result, store'))
    (hallowed : result.allowed = true) : Allowed D action params agentDid ⟨k, token, store⟩ store' := by
  unfold checkToken at hcheck
  split at hcheck
  next outcome hverify =>
    obtain ⟨rfl, rfl⟩ := Prod.mk.inj hcheck
    -- The only answer of a failed verification is a denial.
    unfold verifyToken at hverify
    split at hverify
    next => split at hverify <;> cases hverify
    next =>
      split at hverify
      next =>
        dsimp only at hverify
        split at hverify
        next => cases hverify
        next =>
          split at hverify
          next => cases hverify
          next =>
            split at hverify
            next =>
              cases hverify
              cases hallowed
            next => cases hverify
          next => cases hverify
      next => cases hverify
  next depth hverify =>
    split at hcheck
    next => cases hcheck
    next hmatched =>
      split at hcheck
      next => split at hcheck <;> cases hcheck
      next store'' heval =>
        split at hcheck
        next => cases hcheck
        next hrevoked =>
          cases hcheck
          exact ⟨⟨depth, hverify⟩, hmatched, heval, by simpa using hrevoked⟩

/-- A token that passes all of it is answered with. -/
theorem Allowed.checkToken {k : Nat} {token : CapabilityToken} {store store' : σ}
    (h : Allowed D action params agentDid ⟨k, token, store⟩ store') :
    ∃ depth, checkToken D action params agentDid k token store =
      (.answered ⟨true, none, none, some token.id, some depth⟩, store') := by
  obtain ⟨⟨depth, hverified⟩, hmatched, hevaluated, hunrevoked⟩ := h
  refine ⟨depth, ?_⟩
  simp only at hverified hmatched hevaluated hunrevoked
  simp [Policy.checkToken, hverified, hmatched, hevaluated, hunrevoked]

theorem Progress.result_allowed (progress : Progress) : progress.result.allowed = false := by
  unfold Progress.result
  split
  next => rfl
  next => split <;> rfl

/-- The loop allows a request exactly at its accepting turn. -/
theorem checkTokens_allowed_iff {tokens : List CapabilityToken} {k : Nat} {progress : Progress}
    {store : σ} :
    (∃ result store', checkTokens D action params agentDid k progress tokens store =
      (some result, store') ∧ result.allowed = true) ↔
      ∃ turn, acceptingTurn D action params agentDid k tokens store = some turn := by
  induction tokens generalizing k progress store with
  | nil =>
      simp only [checkTokens, acceptingTurn, reduceCtorEq, exists_false, iff_false, not_exists]
      rintro result store' ⟨hresult, hallowed⟩
      obtain ⟨hresult, -⟩ := Prod.mk.inj hresult
      rw [← Option.some.inj hresult, Progress.result_allowed] at hallowed
      cases hallowed
  | cons token tokens ih =>
      simp only [checkTokens, acceptingTurn]
      rcases checkToken D action params agentDid k token store with ⟨outcome, store'⟩
      cases outcome with
      | skipped => exact ih
      | scopeFailed denial => exact ih
      | revoked => exact ih
      | answered result =>
          by_cases hallowed : result.allowed = true
          · simp [hallowed]
          · simp [hallowed]
      | threw => simp

theorem check_allowed_iff {requestedTokenId : Option String} {store : σ} :
    (∃ result store', check D action params agentDid requestedTokenId store =
      (some result, store') ∧ result.allowed = true) ↔
      ∃ turn, acceptedTurn D action params agentDid requestedTokenId store = some turn := by
  unfold check acceptedTurn
  split
  next hnone => simp [hnone, acceptingTurn, denied]
  next => exact checkTokens_allowed_iff

theorem acceptingTurn_allowed {tokens : List CapabilityToken} {k : Nat} {store : σ} {turn : Turn σ}
    (hturn : acceptingTurn D action params agentDid k tokens store = some turn) :
    ∃ store', Allowed D action params agentDid turn store' := by
  induction tokens generalizing k store with
  | nil => cases hturn
  | cons token tokens ih =>
      simp only [acceptingTurn] at hturn
      rcases hcheck : checkToken D action params agentDid k token store with ⟨outcome, store'⟩
      rw [hcheck] at hturn
      cases outcome with
      | skipped => exact ih hturn
      | scopeFailed denial => exact ih hturn
      | revoked => exact ih hturn
      | answered result =>
          simp only at hturn
          split at hturn
          next hallowed =>
            obtain rfl := Option.some.inj hturn
            exact ⟨store', checkToken_allowed hcheck hallowed⟩
          next => cases hturn
      | threw => cases hturn

/-- A single candidate that passes is the accepted one. -/
theorem acceptedTurn_of_allowed (requestedTokenId : Option String) {token : CapabilityToken}
    {store store' : σ} (hcandidates : candidates D agentDid requestedTokenId = [token])
    (hallowed : Allowed D action params agentDid ⟨0, token, store⟩ store') :
    acceptedTurn D action params agentDid requestedTokenId store = some ⟨0, token, store⟩ := by
  obtain ⟨depth, hcheck⟩ := hallowed.checkToken
  simp [acceptedTurn, hcandidates, acceptingTurn, hcheck]

end Coivitas.Policy
