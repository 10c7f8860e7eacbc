import Coivitas.Identity.DelegationProvenance
import Coivitas.Policy.CumulativeScopes

/-! # The order of an agent's tokens

Without cumulative scopes and under fixed ports, the turn of a token does not depend on the turns
before it. Still the loop is cut short by a token with a revoked parent, and by one whose check
throws, so a token behind such a one is not reached.
-/

namespace Coivitas.Policy

open Foundation Coivitas.Types Identity

section Order

variable {σ : Type} (D : RuntimeGuardDependencies σ) (action : String) (params : Params)
  (agentDid : String) (store : σ)

/-- The clock and the generator of identifiers answer the same at every use. -/
structure FixedPorts : Prop where
  now : ∀ k, D.now k = D.now 0
  randomUUID : ∀ k, D.randomUUID k = D.randomUUID 0

/-- The check allows the request. -/
def Allows (requestedTokenId : Option String) : Prop :=
  ∃ result store', check D action params agentDid requestedTokenId store = (some result, store') ∧
    result.allowed = true

/-- The check of one token throws, or it answers that a parent token is revoked. -/
def Stops (id : String) : Prop :=
  match (check D action params agentDid (some id) store).1 with
  | none => True
  | some result => result.code = some "TOKEN_REVOKED"

/-- The same guard over another list of tokens. -/
def RuntimeGuardDependencies.withTokens (tokens : List CapabilityToken) :
    RuntimeGuardDependencies σ :=
  { D with getTokensForAgent := fun _ => tokens }

/-- The tokens have ids of their own and no cumulative scopes. -/
structure PlainTokens (tokens : List CapabilityToken) : Prop where
  ids : (tokens.map CapabilityToken.id).Nodup
  scopes : ∀ token ∈ tokens, ∀ capability ∈ token.capabilities, ¬ isCumulative capability.scope

variable {D action params agentDid store}

theorem PlainTokens.perm {tokens tokens' : List CapabilityToken} (hplain : PlainTokens tokens)
    (hperm : tokens'.Perm tokens) : PlainTokens tokens' where
  ids := (hperm.map CapabilityToken.id).nodup_iff.mpr hplain.ids
  scopes token htoken := hplain.scopes token (hperm.mem_iff.mp htoken)

/-! ## The turn of one token -/

/-- Only a cumulative scope changes the tracker's store. -/
theorem evaluate_store_eq {evaluator : ScopeEvaluator σ} {store' : σ} {scope : Scope} {now : Int}
    {result : Except ScopeDenial Unit} (hscope : ¬ isCumulative scope)
    (heval : evaluate evaluator scope params now store = (result, store')) : store' = store := by
  cases scope with
  | cumulativeLimit => exact absurd trivial hscope
  | _ => exact (Prod.mk.inj heval).2.symm

theorem evaluateAll_store_eq {evaluator : ScopeEvaluator σ} {scopes : List Scope} {now : Int}
    (hscopes : ∀ scope ∈ scopes, ¬ isCumulative scope) :
    (evaluateAll evaluator scopes params now store).2 = store := by
  induction scopes with
  | nil => rfl
  | cons scope scopes ih =>
      rw [List.forall_mem_cons] at hscopes
      rw [evaluateAll]
      rcases heval : evaluate evaluator scope params now store with ⟨result, store'⟩
      obtain rfl := evaluate_store_eq hscopes.1 heval
      cases result with
      | error denial => rfl
      | ok u => exact ih hscopes.2

theorem verifyToken_fixed (hfixed : FixedPorts D) (k : Nat) (token : CapabilityToken) :
    verifyToken D k token = verifyToken D 0 token := by
  unfold verifyToken
  rw [hfixed.now (3 * k), hfixed.now (3 * k + 1), hfixed.now (3 * 0), hfixed.now (3 * 0 + 1)]

/-- How the turn of a token ends, whenever it comes. -/
def turnOf (D : RuntimeGuardDependencies σ) (action : String) (params : Params) (agentDid : String)
    (store : σ) (token : CapabilityToken) : TokenOutcome :=
  (checkToken D action params agentDid 0 token store).1

theorem checkToken_fixed (hfixed : FixedPorts D) {token : CapabilityToken}
    (hscopes : ∀ capability ∈ token.capabilities, ¬ isCumulative capability.scope) (k : Nat) :
    checkToken D action params agentDid k token store =
      (turnOf D action params agentDid store token, store) := by
  have hmatching : ∀ scope ∈ matchingScopes action token, ¬ isCumulative scope := by
    intro scope hscope
    rw [matchingScopes, List.mem_map] at hscope
    obtain ⟨capability, hcapability, rfl⟩ := hscope
    exact hscopes capability (List.mem_filter.mp hcapability).1
  have hsame : checkToken D action params agentDid k token store =
      checkToken D action params agentDid 0 token store := by
    unfold checkToken guardRecordId
    rw [verifyToken_fixed hfixed, hfixed.now (3 * k + 2), hfixed.now (3 * 0 + 2),
      hfixed.randomUUID k]
  rw [hsame]
  refine Prod.ext rfl ?_
  unfold checkToken
  split
  next => rfl
  next =>
    split
    next => rfl
    next =>
      have hkept := @evaluateAll_store_eq _
        (paramsWithAgent agentDid (guardRecordId D 0 params) params) store D.scopeEvaluator _
        (D.now (3 * 0 + 2)).time hmatching
      split
      next denial store' heval =>
        rw [heval] at hkept
        split <;> exact hkept
      next store' heval =>
        rw [heval] at hkept
        split <;> exact hkept

/-! ## The loop -/

def TokenOutcome.Accepts : TokenOutcome → Prop
  | .answered result => result.allowed = true
  | _ => False

/-- The loop goes no further, and the request is not allowed. -/
def TokenOutcome.Ends : TokenOutcome → Prop
  | .answered result => ¬ result.allowed = true
  | .threw => True
  | _ => False

/-- The loop accepts a token exactly when no token before one that it would accept ends it. -/
theorem acceptingTurn_fixed (hfixed : FixedPorts D) {tokens : List CapabilityToken}
    (hscopes : ∀ token ∈ tokens, ∀ capability ∈ token.capabilities,
      ¬ isCumulative capability.scope) (k : Nat) :
    (∃ turn, acceptingTurn D action params agentDid k tokens store = some turn) ↔
      ∃ before token after, tokens = before ++ token :: after ∧
        (turnOf D action params agentDid store token).Accepts ∧
        ∀ earlier ∈ before, ¬ (turnOf D action params agentDid store earlier).Ends := by
  induction tokens generalizing k with
  | nil => simp [acceptingTurn]
  | cons token tokens ih =>
      rw [List.forall_mem_cons] at hscopes
      simp only [acceptingTurn, checkToken_fixed hfixed hscopes.1 k]
      have hnext : ¬ (turnOf D action params agentDid store token).Accepts →
          ¬ (turnOf D action params agentDid store token).Ends →
          ((∃ turn, acceptingTurn D action params agentDid (k + 1) tokens store = some turn) ↔
            ∃ before later after, token :: tokens = before ++ later :: after ∧
              (turnOf D action params agentDid store later).Accepts ∧
              ∀ earlier ∈ before, ¬ (turnOf D action params agentDid store earlier).Ends) := by
        intro hrefused hgoes
        rw [ih hscopes.2]
        constructor
        · rintro ⟨before, later, after, rfl, haccepts, hbefore⟩
          exact ⟨token :: before, later, after, rfl, haccepts,
            List.forall_mem_cons.mpr ⟨hgoes, hbefore⟩⟩
        · rintro ⟨before, later, after, hsplit, haccepts, hbefore⟩
          cases before with
          | nil =>
              obtain ⟨rfl, -⟩ := List.cons.inj hsplit
              exact absurd haccepts hrefused
          | cons first before =>
              obtain ⟨-, hrest⟩ := List.cons.inj hsplit
              exact ⟨before, later, after, hrest, haccepts, (List.forall_mem_cons.mp hbefore).2⟩
      have hended : (turnOf D action params agentDid store token).Ends →
          ¬ (turnOf D action params agentDid store token).Accepts →
          ¬ ∃ before later after, token :: tokens = before ++ later :: after ∧
            (turnOf D action params agentDid store later).Accepts ∧
            ∀ earlier ∈ before, ¬ (turnOf D action params agentDid store earlier).Ends := by
        rintro hends hrefused ⟨before, later, after, hsplit, haccepts, hbefore⟩
        cases before with
        | nil =>
            obtain ⟨rfl, -⟩ := List.cons.inj hsplit
            exact hrefused haccepts
        | cons first before =>
            obtain ⟨rfl, -⟩ := List.cons.inj hsplit
            exact hbefore token List.mem_cons_self hends
      cases houtcome : turnOf D action params agentDid store token with
      | skipped =>
          exact hnext (by simp [houtcome, TokenOutcome.Accepts])
            (by simp [houtcome, TokenOutcome.Ends])
      | scopeFailed denial =>
          exact hnext (by simp [houtcome, TokenOutcome.Accepts])
            (by simp [houtcome, TokenOutcome.Ends])
      | revoked =>
          exact hnext (by simp [houtcome, TokenOutcome.Accepts])
            (by simp [houtcome, TokenOutcome.Ends])
      | threw =>
          refine iff_of_false (by simp) (hended ?_ ?_)
          · rw [houtcome]
            trivial
          · rw [houtcome]
            exact id
      | answered result =>
          by_cases hallowed : result.allowed = true
          · refine iff_of_true ⟨_, if_pos hallowed⟩ ⟨[], token, tokens, rfl, ?_, by simp⟩
            rw [houtcome]
            exact hallowed
          · refine iff_of_false (by simp [hallowed]) (hended ?_ ?_)
            · rw [houtcome]
              exact hallowed
            · rw [houtcome]
              exact hallowed

/-! ## The check of one token, and of all -/

theorem Progress.result_code (progress : Progress) : progress.result.code = none := by
  unfold Progress.result
  split
  next => rfl
  next => split <;> rfl

/-- A token that is answered with is allowed, or the code says that it is revoked. -/
theorem code_of_answered {k : Nat} {token : CapabilityToken} {store' : σ}
    {result : RuntimeGuardResult}
    (hcheck : checkToken D action params agentDid k token store = (.answered result, store')) :
    result.code = some "TOKEN_REVOKED" ↔ ¬ result.allowed = true := by
  unfold checkToken at hcheck
  split at hcheck
  next outcome hverify =>
    obtain ⟨rfl, -⟩ := Prod.mk.inj hcheck
    unfold verifyToken at hverify
    split at hverify
    next => split at hverify <;> cases hverify
    next =>
      split at hverify
      next =>
        dsimp only at hverify
        split at hverify
        next => cases hverify
        next =>
          split at hverify
          next => cases hverify
          next =>
            split at hverify
            next =>
              cases hverify
              simp
            next => cases hverify
          next => cases hverify
      next => cases hverify
  next =>
    split at hcheck
    next => cases hcheck
    next =>
      split at hcheck
      next => split at hcheck <;> cases hcheck
      next =>
        split at hcheck
        next => cases hcheck
        next =>
          cases hcheck
          simp

theorem filter_id_eq {tokens : List CapabilityToken}
    (hids : (tokens.map CapabilityToken.id).Nodup) {token : CapabilityToken}
    (htoken : token ∈ tokens) : tokens.filter (fun other => other.id = token.id) = [token] := by
  induction tokens with
  | nil => cases htoken
  | cons first tokens ih =>
      rw [List.map_cons, List.nodup_cons] at hids
      rcases List.mem_cons.mp htoken with rfl | hrest
      · have hnone : tokens.filter (fun other => other.id = token.id) = [] :=
          List.filter_eq_nil_iff.mpr fun other hother hsame =>
            hids.1 (of_decide_eq_true hsame ▸ List.mem_map_of_mem hother)
        rw [List.filter_cons_of_pos (by simp), hnone]
      · have hne : ¬ first.id = token.id := fun hsame =>
          hids.1 (hsame ▸ List.mem_map_of_mem hrest)
        rw [List.filter_cons_of_neg (by simpa using hne), ih hids.2 hrest]

section Checks

variable (hfixed : FixedPorts D) (hplain : PlainTokens (D.getTokensForAgent agentDid))

include hplain in
theorem check_single {token : CapabilityToken} (htoken : token ∈ D.getTokensForAgent agentDid) :
    check D action params agentDid (some token.id) store =
      checkTokens D action params agentDid 0 ⟨false, none, false⟩ [token] store := by
  have hcandidates : candidates D agentDid (some token.id) = [token] :=
    filter_id_eq hplain.ids htoken
  rw [check, hcandidates]

include hfixed hplain

theorem allows_none_iff : Allows D action params agentDid store none ↔
    ∃ before token after, D.getTokensForAgent agentDid = before ++ token :: after ∧
      (turnOf D action params agentDid store token).Accepts ∧
      ∀ earlier ∈ before, ¬ (turnOf D action params agentDid store earlier).Ends :=
  check_allowed_iff.trans (acceptingTurn_fixed hfixed hplain.scopes 0)

variable {token : CapabilityToken} (htoken : token ∈ D.getTokensForAgent agentDid)

include htoken

theorem allows_single_iff : Allows D action params agentDid store (some token.id) ↔
    (turnOf D action params agentDid store token).Accepts := by
  have hcandidates : candidates D agentDid (some token.id) = [token] :=
    filter_id_eq hplain.ids htoken
  refine check_allowed_iff.trans ?_
  rw [acceptedTurn, hcandidates,
    acceptingTurn_fixed hfixed (by simpa using hplain.scopes token htoken)]
  constructor
  · rintro ⟨before, token', after, hsplit, haccepts, -⟩
    have hmem : token' ∈ [token] := hsplit ▸ List.mem_append_right before List.mem_cons_self
    rwa [← List.mem_singleton.mp hmem]
  · exact fun haccepts => ⟨[], token, [], rfl, haccepts, by simp⟩

theorem stops_iff : Stops D action params agentDid store token.id ↔
    (turnOf D action params agentDid store token).Ends := by
  have hturn := @checkToken_fixed _ _ action params agentDid store hfixed token
    (hplain.scopes token htoken) 0
  rw [Stops, check_single hplain htoken, checkTokens, hturn]
  cases houtcome : turnOf D action params agentDid store token with
  | skipped => simp [checkTokens, Progress.result_code, TokenOutcome.Ends]
  | scopeFailed denial => simp [checkTokens, Progress.result_code, TokenOutcome.Ends]
  | revoked => simp [checkTokens, Progress.result_code, TokenOutcome.Ends]
  | threw => simp [TokenOutcome.Ends]
  | answered result =>
      rw [houtcome] at hturn
      exact code_of_answered hturn

end Checks

theorem allows_none_of_unstopped (hfixed : FixedPorts D)
    (hplain : PlainTokens (D.getTokensForAgent agentDid))
    (hunstopped : ∀ token ∈ D.getTokensForAgent agentDid,
      ¬ (turnOf D action params agentDid store token).Ends) :
    Allows D action params agentDid store none ↔ ∃ token ∈ D.getTokensForAgent agentDid,
      (turnOf D action params agentDid store token).Accepts := by
  rw [allows_none_iff hfixed hplain]
  constructor
  · rintro ⟨before, token, after, hsplit, haccepts, -⟩
    exact ⟨token, hsplit ▸ List.mem_append_right before List.mem_cons_self, haccepts⟩
  · rintro ⟨token, htoken, haccepts⟩
    obtain ⟨before, after, hsplit⟩ := List.append_of_mem htoken
    refine ⟨before, token, after, hsplit, haccepts, fun earlier hearlier => ?_⟩
    exact hunstopped earlier (hsplit ▸ List.mem_append_left _ hearlier)

/-- All the tokens allow a request when one of them does and no token before it stops the loop.
Where no token stops it, their order does not matter. -/
theorem check_token_order (hfixed : FixedPorts D)
    (hplain : PlainTokens (D.getTokensForAgent agentDid)) :
    (Allows D action params agentDid store none ↔
      ∃ before token after, D.getTokensForAgent agentDid = before ++ token :: after ∧
        Allows D action params agentDid store (some token.id) ∧
        ∀ earlier ∈ before, ¬ Stops D action params agentDid store earlier.id) ∧
    ((∀ token ∈ D.getTokensForAgent agentDid, ¬ Stops D action params agentDid store token.id) →
      (Allows D action params agentDid store none ↔ ∃ token ∈ D.getTokensForAgent agentDid,
        Allows D action params agentDid store (some token.id)) ∧
      ∀ tokens, tokens.Perm (D.getTokensForAgent agentDid) →
        (Allows (D.withTokens tokens) action params agentDid store none ↔
          Allows D action params agentDid store none)) := by
  have hstops : ∀ token ∈ D.getTokensForAgent agentDid,
      (Stops D action params agentDid store token.id ↔
        (turnOf D action params agentDid store token).Ends) :=
    fun token htoken => stops_iff hfixed hplain htoken
  have hallows : ∀ token ∈ D.getTokensForAgent agentDid,
      (Allows D action params agentDid store (some token.id) ↔
        (turnOf D action params agentDid store token).Accepts) :=
    fun token htoken => allows_single_iff hfixed hplain htoken
  refine ⟨?_, fun hunstopped => ⟨?_, fun tokens hperm => ?_⟩⟩
  · rw [allows_none_iff hfixed hplain]
    refine exists_congr fun before => exists_congr fun token => exists_congr fun after =>
      and_congr_right fun hsplit => and_congr (hallows token ?_).symm ?_
    · exact hsplit ▸ List.mem_append_right before List.mem_cons_self
    · refine forall₂_congr fun earlier hearlier => not_congr (hstops earlier ?_).symm
      exact hsplit ▸ List.mem_append_left _ hearlier
  · rw [allows_none_of_unstopped hfixed hplain fun token htoken =>
      (hstops token htoken).not.mp (hunstopped token htoken)]
    exact exists_congr fun token => and_congr_right fun htoken => (hallows token htoken).symm
  · have hends : ∀ token ∈ D.getTokensForAgent agentDid,
        ¬ (turnOf D action params agentDid store token).Ends := fun token htoken =>
      (hstops token htoken).not.mp (hunstopped token htoken)
    have hfixed' : FixedPorts (D.withTokens tokens) := ⟨hfixed.now, hfixed.randomUUID⟩
    rw [allows_none_of_unstopped hfixed hplain hends,
      allows_none_of_unstopped hfixed' (hplain.perm hperm) fun token htoken =>
        hends token (hperm.mem_iff.mp htoken)]
    exact exists_congr fun token => and_congr_left fun _ => hperm.mem_iff

end Order

/-! ## A token with a revoked parent in front -/

section Revoked

variable {P : ChainPorts} {token : CapabilityToken} {now : String}
  {resolveToken : Nat → String → Option CapabilityToken} {isRevoked : Nat → String → Bool}

theorem require_of {condition : Prop} [Decidable condition] (error : ChainStop)
    (hcondition : condition) : require condition error = .ok () :=
  require_eq_ok.mpr hcondition

/-- The refusal of a chain with a revoked parent. -/
def parentRevoked (i : Nat) (id : String) : ChainStop :=
  .invalid ⟨.parentTokenRevoked, some i, some id, none⟩

theorem validateHop_revoked {i : Nat} {previous next : Option DelegationProof}
    {proof : DelegationProof}
    (hok : validateHop P token resolveToken (fun _ _ => false) now i previous proof next = .ok ()) :
    validateHop P token resolveToken isRevoked now i previous proof next =
      if isRevoked i proof.parentTokenId then .error (parentRevoked i proof.parentTokenId)
      else .ok () := by
  have hbind : ∀ {α : Type} (a : α) (f : α → Except ChainStop Unit),
      ((.ok a : Except ChainStop α) >>= f) = f a := fun _ _ => rfl
  simp only [validateHop, bind_eq_ok, exists_unit, require_eq_ok] at hok
  obtain ⟨keys, hkeys, valid, hverified, hvalid, parentToken, hparent, hchecked, hsigned,
    hattenuated, hcontinues, -, hexpiry, hlive, hlinked⟩ := hok
  simp only [validateHop, hkeys, hverified, hparent, hchecked, hsigned, hattenuated, hbind,
    require_of _ hvalid, require_of _ hcontinues, require_of _ hexpiry,
    require_of _ hlive, require_of _ hlinked]
  cases hrevoked : isRevoked i proof.parentTokenId with
  | true => rfl
  | false => rfl

theorem validateHops_revoked {resolve : String → Option CapabilityToken}
    {chain : List DelegationProof} {isRevoked : String → Bool} {i : Nat}
    {previous : Option DelegationProof}
    (hok : validateHops (P.over resolve fun _ => false) token (fun _ => resolve)
      (fun _ _ => false) now i previous chain = .ok ())
    {proof : DelegationProof} (hproof : proof ∈ chain)
    (hrevoked : isRevoked proof.parentTokenId = true) :
    ∃ k id, validateHops (P.over resolve isRevoked) token (fun _ => resolve) (fun _ => isRevoked)
      now i previous chain = .error (parentRevoked k id) := by
  induction chain generalizing i previous with
  | nil => cases hproof
  | cons first rest ih =>
      simp only [validateHops, bind_eq_ok, exists_unit] at hok
      have hhop : validateHop (P.over resolve isRevoked) token (fun _ => resolve)
          (fun _ => isRevoked) now i previous first rest.head? =
            if isRevoked first.parentTokenId then .error (parentRevoked i first.parentTokenId)
            else .ok () :=
        validateHop_revoked hok.1
      rw [validateHops, hhop]
      by_cases hfirst : isRevoked first.parentTokenId = true
      · rw [if_pos hfirst]
        exact ⟨i, first.parentTokenId, rfl⟩
      · rw [if_neg hfirst]
        refine ih hok.2 ((List.mem_cons.mp hproof).resolve_left ?_)
        rintro rfl
        exact hfirst hrevoked

/-- Revoking a parent of an accepted token has it refused for that reason. -/
theorem validateDelegationChain_revoked {resolve : String → Option CapabilityToken}
    {isRevoked : String → Bool} {depth : Nat} {proof : DelegationProof}
    (haccepted : validateDelegationChain (P.over resolve fun _ => false) token now = .ok depth)
    (hproof : proof ∈ token.delegationChain.getD [])
    (hrevoked : isRevoked proof.parentTokenId = true) :
    ∃ k id, validateDelegationChain (P.over resolve isRevoked) token now =
      .error (parentRevoked k id) := by
  rcases hchain : token.delegationChain with - | _ | ⟨first, rest⟩
  · rw [hchain] at hproof
    cases hproof
  · rw [hchain] at hproof
    cases hproof
  · rw [hchain] at hproof
    simp only [validateDelegationChain, hchain, ChainPorts.over, bind_eq_ok, exists_unit,
      require_eq_ok] at haccepted
    obtain ⟨hvalid, hversion, hdepth, hacyclic, hhops, -⟩ := haccepted
    obtain ⟨k, id, herror⟩ := validateHops_revoked (P := P) hhops hproof hrevoked
    refine ⟨k, id, ?_⟩
    have hbind : ∀ {α : Type} (a : α) (f : α → Except ChainStop Nat),
        ((.ok a : Except ChainStop α) >>= f) = f a := fun _ _ => rfl
    simp only [validateDelegationChain, hchain, ChainPorts.over, hbind, require_of _ hvalid,
      require_of _ hversion, require_of _ hdepth, hacyclic]
    exact congrArg (· >>= _) herror

end Revoked

namespace TokenPool

open Relay

/-- The signatures behind the helper's two tokens. -/
def ledger : List SignedBytes :=
  signedProof writerProof :: signedToken writer helperToken :: splicedLedger

theorem helperToken_relayed : Relayed ledger store [] root writerToken helperToken editorProof
    writerProof where
  rootShape := ⟨_, _, rfl⟩
  firstShape := ⟨_, rfl⟩
  parentShape := ⟨root, _, _, _, rfl, rfl, rfl⟩
  secondShape := ⟨_, rfl⟩
  leafShape := ⟨_, _, rfl⟩
  rootSigned := by simp [ledger, splicedLedger]
  firstSigned := by simp [ledger, splicedLedger]
  parentSigned := by simp [ledger, splicedLedger]
  secondSigned := by simp [ledger]
  leafSigned := by simp [ledger]
  rootResolved := by decide +kernel
  parentResolved := by decide +kernel
  rootUnrevoked := rfl
  parentUnrevoked := rfl
  rootSchema := root_isValid
  leafSchema := helperToken_isValid

theorem splicedToken_relayed : Relayed ledger store [writerToken.id] root secondWriterToken
    splicedToken editorProof secondWriterProof where
  rootShape := ⟨_, _, rfl⟩
  firstShape := ⟨_, rfl⟩
  parentShape := ⟨secondRoot, _, _, _, rfl, rfl, rfl⟩
  secondShape := ⟨_, rfl⟩
  leafShape := ⟨_, _, rfl⟩
  rootSigned := by simp [ledger, splicedLedger]
  firstSigned := by simp [ledger, splicedLedger]
  parentSigned := by simp [ledger, splicedLedger]
  secondSigned := by simp [ledger, splicedLedger]
  leafSigned := by simp [ledger, splicedLedger]
  rootResolved := by decide +kernel
  parentResolved := by decide +kernel
  rootUnrevoked := by decide +kernel
  parentUnrevoked := by decide +kernel
  rootSchema := root_isValid
  leafSchema := splicedToken_isValid

def clock : ClockReading := ⟨today, 1780272000000, by decide +kernel⟩

/-- A guard over two tokens of the helper; the parent of the first one is revoked. -/
def guard (tokens : List CapabilityToken) : RuntimeGuardDependencies Unit where
  signatures := (ports ledger [] []).toSignaturePorts
  getTokensForAgent _ := tokens
  getToken := some fun id => store.find? (·.id == id)
  revocationChecker id := [writerToken.id].contains id
  scopeEvaluator := ⟨fun _ => none, none⟩
  now _ := clock
  delegationChainValidator := some validateDelegationChain
  resolvePublicKeys := some fun did => some ⟨(keyPair did).2, none, none, .stable⟩
  randomUUID _ := "9f0c1b1e-33f4-4b1d-8a53-0d1f6e3f2c11"

variable {tokens : List CapabilityToken}

theorem guard_fixedPorts : FixedPorts (guard tokens) := ⟨fun _ => rfl, fun _ => rfl⟩

theorem writerProof_mem : writerProof ∈ helperToken.delegationChain.getD [] :=
  List.mem_cons_of_mem _ List.mem_cons_self

/-- The two tokens are within their own window, so their chains are what is checked. -/
theorem guard_verifyToken {token : CapabilityToken} (hdelegated : isDelegated token)
    (hissued : token.issuedAt = "2026-03-01T00:00:00.000Z")
    (hexpires : token.expiresAt = "2026-11-01T00:00:00.000Z") :
    verifyToken (guard tokens) 0 token =
      match validateDelegationChain (ports ledger store [writerToken.id]) token today with
      | .ok depth => .ok depth
      | .error (.invalid failure) =>
          if failure.reason = .parentTokenRevoked then
            .error (.answered ⟨false, some .parentTokenRevoked, some "TOKEN_REVOKED",
              some token.id, none⟩)
          else .error .skipped
      | .error .threw => .error .threw := by
  have hwindow : ¬ ((∃ issuedAt ∈ Calendar.getTime "2026-03-01T00:00:00.000Z",
        clock.time < issuedAt) ∨
      ∃ expiresAt ∈ Calendar.getTime "2026-11-01T00:00:00.000Z", expiresAt ≤ clock.time) := by
    decide +kernel
  unfold verifyToken
  rw [if_neg (not_not_intro hdelegated), hissued, hexpires]
  exact if_neg hwindow

theorem helperToken_verifyToken : ∃ result, result.allowed = false ∧
    verifyToken (guard tokens) 0 helperToken = .error (.answered result) := by
  obtain ⟨k, id, hrevoked⟩ : ∃ k id, validateDelegationChain
      (ports ledger store [writerToken.id]) helperToken today = .error (parentRevoked k id) :=
    @validateDelegationChain_revoked (ports ledger [] []) helperToken today
      (fun id => store.find? (·.id == id)) (fun id => [writerToken.id].contains id) _ _
      helperToken_relayed.accepted writerProof_mem (by decide +kernel)
  refine ⟨⟨false, some .parentTokenRevoked, some "TOKEN_REVOKED", some helperToken.id, none⟩,
    rfl, ?_⟩
  rw [guard_verifyToken (by simp [isDelegated, helperToken, lastTokenUnder, blogToken]) rfl rfl,
    hrevoked]
  rfl

theorem splicedToken_verifyToken : verifyToken (guard tokens) 0 splicedToken = .ok 2 := by
  rw [guard_verifyToken (by simp [isDelegated, splicedToken, lastTokenUnder, blogToken]) rfl rfl,
    splicedToken_relayed.accepted]

def publication : Params := fun name =>
  if name = "channel" then .string "blog" else .undefined

theorem splicedToken_allowed : Allowed (guard tokens) "PUBLISH" publication helper
    ⟨0, splicedToken, ()⟩ () where
  verified := ⟨2, splicedToken_verifyToken⟩
  matched := by decide +kernel
  evaluated := by
    show evaluateAll (⟨fun _ => none, none⟩ : ScopeEvaluator Unit) [.allowlist "channel" ["blog"]]
      (paramsWithAgent helper "9f0c1b1e-33f4-4b1d-8a53-0d1f6e3f2c11" publication) clock.time () =
        (.ok (), ())
    decide +kernel
  unrevoked := by
    show [writerToken.id].contains splicedToken.id = false
    decide +kernel

theorem plainTokens {tokens : List CapabilityToken}
    (hperm : tokens.Perm [helperToken, splicedToken]) : PlainTokens tokens := by
  refine PlainTokens.perm ⟨by decide +kernel, ?_⟩ hperm
  simp [helperToken, splicedToken, lastTokenUnder, blogToken, channels, isCumulative]

theorem splicedToken_allows
    (hperm : tokens.Perm [helperToken, splicedToken]) :
    Allows (guard tokens) "PUBLISH" publication helper () (some splicedToken.id) :=
  check_allowed_iff.mpr ⟨_, acceptedTurn_of_allowed _
    (filter_id_eq (plainTokens hperm).ids (hperm.mem_iff.mpr (by simp))) splicedToken_allowed⟩

/-- In front of the token with the revoked parent, the other one is reached. -/
theorem splicedToken_first :
    Allows (guard [splicedToken, helperToken]) "PUBLISH" publication helper () none :=
  (check_token_order guard_fixedPorts (plainTokens (List.Perm.swap ..))).1.mpr
    ⟨[], splicedToken, [helperToken], rfl, splicedToken_allows (List.Perm.swap ..), by simp⟩

/-- Behind it, the token that would be allowed by itself is not reached. -/
theorem splicedToken_unreached :
    ¬ ∀ (D : RuntimeGuardDependencies Unit) (action : String) (params : Params) (agentDid : String),
      FixedPorts D → PlainTokens (D.getTokensForAgent agentDid) →
        (Allows D action params agentDid () none ↔ ∃ token ∈ D.getTokensForAgent agentDid,
          Allows D action params agentDid () (some token.id)) := by
  intro h
  have hallows := (h (guard [helperToken, splicedToken]) "PUBLISH" publication helper
    guard_fixedPorts (plainTokens (List.Perm.refl _))).mpr
      ⟨splicedToken, by simp [guard], splicedToken_allows (List.Perm.refl _)⟩
  obtain ⟨turn, hturn⟩ := check_allowed_iff.mp hallows
  obtain ⟨result, hdenied, hverified⟩ := @helperToken_verifyToken [helperToken, splicedToken]
  have hfirst : checkToken (guard [helperToken, splicedToken]) "PUBLISH" publication helper 0
      helperToken () = (.answered result, ()) := by
    rw [checkToken, hverified]
  have hnone : acceptedTurn (guard [helperToken, splicedToken]) "PUBLISH" publication helper none
      () = none := by
    show acceptingTurn (guard [helperToken, splicedToken]) "PUBLISH" publication helper 0
      [helperToken, splicedToken] () = none
    rw [acceptingTurn, hfirst]
    exact if_neg (by simp [hdenied])
  rw [hnone] at hturn
  cases hturn

end TokenPool

end Coivitas.Policy
