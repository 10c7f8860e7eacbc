import Coivitas.Identity.DelegationAttenuation

/-! # Cascade revocation and the provenance of a token

The provenance of a delegated token are the tokens its own chain names and, for
every parent the resolver returns, the provenance of that parent. The validator
asks for the revocation of the named tokens only.
-/

namespace Coivitas.Identity

open Foundation Coivitas.Types

/-- The ids reachable through the chain and through the chains of its parents. -/
inductive Provenance (resolve : String → Option CapabilityToken) :
    List DelegationProof → String → Prop
  | named {chain : List DelegationProof} {proof : DelegationProof} (hproof : proof ∈ chain) :
      Provenance resolve chain proof.parentTokenId
  | inherited {chain : List DelegationProof} {proof : DelegationProof} {parent : CapabilityToken}
      {id : String} (hproof : proof ∈ chain) (hparent : resolve proof.parentTokenId = some parent)
      (hid : Provenance resolve (parent.delegationChain.getD []) id) : Provenance resolve chain id

/-- The chain itself names every token of its provenance. -/
def NamesProvenance (resolve : String → Option CapabilityToken) (chain : List DelegationProof) :
    Prop :=
  ∀ id, Provenance resolve chain id → ∃ proof ∈ chain, proof.parentTokenId = id

/-- A chain that holds the chains of its parents names its provenance. -/
theorem namesProvenance_of_subset {resolve : String → Option CapabilityToken}
    {chain : List DelegationProof} (hsubset : ∀ proof ∈ chain, ∀ parent ∈ resolve proof.parentTokenId,
      parent.delegationChain.getD [] ⊆ chain) : NamesProvenance resolve chain := by
  -- The induction carries the inclusion of each chain it passes through.
  have hnamed : ∀ {inner : List DelegationProof} {id : String}, Provenance resolve inner id →
      inner ⊆ chain → ∃ proof ∈ chain, proof.parentTokenId = id := by
    intro inner id hid
    induction hid with
    | named hproof =>
        intro hinner
        exact ⟨_, hinner hproof, rfl⟩
    | inherited hproof hparent hid ih =>
        intro hinner
        exact ih (hsubset _ (hinner hproof) _ hparent)
  intro id hid
  exact hnamed hid (List.Subset.refl _)

/-- The validator over one store of tokens and one list of revocations. -/
def ChainPorts.over (P : ChainPorts) (resolve : String → Option CapabilityToken)
    (isRevoked : String → Bool) : ChainPorts :=
  { P with
    resolveToken := some fun _ => resolve
    isRevoked := some fun _ => isRevoked }

section Revocations

variable {P : ChainPorts} {token : CapabilityToken} {now : String} {chain : List DelegationProof}
  {resolve : String → Option CapabilityToken} {resolveToken : Nat → String → Option CapabilityToken}
  {isRevoked isRevoked' : String → Bool}

/-- A hop reads the revocation of its parent token only. -/
theorem HopChecked.withRevocations {k : Nat} {previous next : Option DelegationProof}
    {proof : DelegationProof} {parentToken : CapabilityToken}
    (h : HopChecked (P.over resolve isRevoked) token resolveToken (fun _ => isRevoked) now k
      previous proof next parentToken) (hproof : isRevoked' proof.parentTokenId = false) :
    HopChecked (P.over resolve isRevoked') token resolveToken (fun _ => isRevoked') now k
      previous proof next parentToken :=
  { h with unrevoked := hproof }

theorem ChainAccepted.withRevocations
    (h : ChainAccepted (P.over resolve isRevoked) token now chain resolveToken
      fun _ => isRevoked)
    (hchain : ∀ proof ∈ chain, isRevoked' proof.parentTokenId = false) :
    ChainAccepted (P.over resolve isRevoked') token now chain resolveToken
      fun _ => isRevoked' :=
  { h with
    revocations := rfl
    hops := by
      intro k proof hk
      obtain ⟨parentToken, hhop⟩ := h.hops k proof hk
      exact ⟨parentToken, hhop.withRevocations (hchain proof (List.mem_iff_getElem?.mpr ⟨k, hk⟩))⟩ }

/-- With a chain to check, acceptance is what holds when nothing is revoked
together with the revocation of no named token. -/
theorem accepted_over_iff (isRevoked : String → Bool) {depth : Nat}
    (haccepted : validateDelegationChain (P.over resolve fun _ => false) token now = .ok depth) :
    (∃ depth', validateDelegationChain (P.over resolve isRevoked) token now = .ok depth') ↔
      ∀ proof ∈ token.delegationChain.getD [], isRevoked proof.parentTokenId = false := by
  rcases hchain : token.delegationChain with - | chain
  · simp [validateDelegationChain, hchain]
  · rcases eq_or_ne chain [] with rfl | hne
    · simp [validateDelegationChain, hchain]
    · simp only [validateDelegationChain_eq_ok _ hchain hne] at haccepted ⊢
      obtain ⟨-, resolveToken, noneRevoked, hnone⟩ := haccepted
      obtain rfl : (fun _ _ => false) = noneRevoked := Option.some.inj hnone.revocations
      constructor
      · rintro ⟨-, -, resolveToken', isRevoked', hchecked⟩ proof hproof
        obtain rfl : (fun _ => isRevoked) = isRevoked' := Option.some.inj hchecked.revocations
        obtain ⟨k, hk⟩ := List.mem_iff_getElem?.mp hproof
        obtain ⟨parentToken, hhop⟩ := hchecked.hops k proof hk
        exact hhop.unrevoked
      · intro hunrevoked
        exact ⟨_, rfl, resolveToken, _, hnone.withRevocations hunrevoked⟩

end Revocations

/-- Cascade revocation is complete for a token, whatever is revoked, exactly when
its own chain names its whole provenance. -/
theorem cascade_revocation_complete_iff {P : ChainPorts}
    {resolve : String → Option CapabilityToken} {token : CapabilityToken} {now : String} {depth : Nat}
    (haccepted : validateDelegationChain (P.over resolve fun _ => false) token now = .ok depth) :
    (∀ isRevoked depth', validateDelegationChain (P.over resolve isRevoked) token now = .ok depth' →
      ∀ id, Provenance resolve (token.delegationChain.getD []) id → isRevoked id = false) ↔
    NamesProvenance resolve (token.delegationChain.getD []) := by
  constructor
  · intro hcomplete id hid
    by_contra hnot
    -- Revoke the one id that the chain does not name.
    have hunnamed : ∀ proof ∈ token.delegationChain.getD [],
        (proof.parentTokenId == id) = false := by
      intro proof hproof
      apply beq_false_of_ne
      intro heq
      exact hnot ⟨proof, hproof, heq⟩
    obtain ⟨depth', haccepted'⟩ :=
      (accepted_over_iff (· == id) haccepted).mpr hunnamed
    have hrevoked := hcomplete (· == id) depth' haccepted' id hid
    simp at hrevoked
  · intro hnames isRevoked depth' haccepted' id hid
    obtain ⟨proof, hproof, rfl⟩ := hnames id hid
    exact (accepted_over_iff isRevoked haccepted).mp ⟨depth', haccepted'⟩ proof hproof

/-! The editor made the same delegation to the writer under a second root token.
The writer's proof on that delegation, put behind the editor's first proof, is
accepted although the second root token is revoked. -/

namespace Relay

def secondRoot : CapabilityToken :=
  rootToken "urn:cap:6ecd8c99-4036-403d-bf84-cf8400f67836"
    "Zt9P8rbsIEsX8dpAVQ7_9uK4qPEh2jXS-Gqwmivp4xTo8vu2S45ivk9bgUf5KBL1bbQSRlzR875uEqIVbA6bDw"

def secondEditorProof : DelegationProof :=
  editorProofOn secondRoot
    "--4Zf4HY_rXlu3V9LAyhPxG7j1HxvhvHEDLTzURgf6127smnR6tdtR_E02q3y5da9cVT98vY7zSXBYBslhjjCQ"

def secondWriterToken : CapabilityToken :=
  writerTokenUnder secondRoot [secondEditorProof] "urn:cap:e4eaaaf2-d142-41b3-b41d-80e4620e5347"
    "GymqziPqblqiTN5QfzBk9wxgxn-rHs9Q6TY7oKSieXKMuFx03sH0micakguN-EzHn8qIR5CNhLpBCjhWrufLBw"

def secondWriterProof : DelegationProof :=
  writerProofOn secondWriterToken helper
    "nk_nOXQZXhBJR2tPya-Ua8KcT4uV3BYZRqkRbUyxnhHZ2OKo7yCbkx77kI0eD8OYubCQ9sUVazYR1hHXWkGgCw"

/-- The chain names the first root token and the second token of the writer. -/
def splicedToken : CapabilityToken :=
  lastTokenUnder secondWriterToken [editorProof, secondWriterProof]
    "urn:cap:2c5ea4c0-4067-41e9-8bad-9b1deb4d3b7d" helper
    "0NWYsHzTW7wLaZwlXGoiNOEj0zpo4z_jXVpJ5TF26c_ZMr_JVL5J3wFHbL5sUWw2rqUIniiNhclQXXJ54aO1Dw"

def splicedLedger : List SignedBytes :=
  [signedToken owner root, signedToken owner secondRoot, signedProof editorProof,
    signedProof secondEditorProof, signedToken editor writerToken,
    signedToken editor secondWriterToken, signedProof secondWriterProof,
    signedToken writer splicedToken]

def store : List CapabilityToken := [root, secondRoot, writerToken, secondWriterToken]

theorem splicedToken_isValid : splicedToken.isValid = true :=
  lastToken_isValid owner_isDidKey owner_isDidKey writer_isDidAgent
    ((isCapabilityTokenId_ofList _).trans (by decide)) ((isSignature_ofList _).trans (by decide))
    (by decide)
    (proofs_isValid ⟨_, _, rfl, by decide⟩ ⟨_, _, _, _, rfl, by decide⟩ helper_isDidAgent
      ((isSignature_ofList _).trans (by decide)) ((isSignature_ofList _).trans (by decide)))

theorem splicedToken_relayed : Relayed splicedLedger store [secondRoot.id] root secondWriterToken
    splicedToken editorProof secondWriterProof where
  rootShape := ⟨_, _, rfl⟩
  firstShape := ⟨_, rfl⟩
  parentShape := ⟨secondRoot, _, _, _, rfl, rfl, rfl⟩
  secondShape := ⟨_, rfl⟩
  leafShape := ⟨_, _, rfl⟩
  rootSigned := by simp [splicedLedger]
  firstSigned := by simp [splicedLedger]
  parentSigned := by simp [splicedLedger]
  secondSigned := by simp [splicedLedger]
  leafSigned := by simp [splicedLedger]
  rootResolved := by decide
  parentResolved := by decide
  rootUnrevoked := by decide
  parentUnrevoked := by decide
  rootSchema := root_isValid
  leafSchema := splicedToken_isValid

/-- An accepted token with a revoked token in its provenance. -/
theorem splicedToken_escapes_revocation :
    validateDelegationChain (ports splicedLedger store [secondRoot.id]) splicedToken today = .ok 2 ∧
      Provenance (fun id => store.find? (·.id == id)) (splicedToken.delegationChain.getD [])
        secondRoot.id ∧
      [secondRoot.id].contains secondRoot.id = true := by
  refine ⟨splicedToken_relayed.accepted, ?_, by decide⟩
  have hproof : secondWriterProof ∈ splicedToken.delegationChain.getD [] :=
    List.mem_cons_of_mem _ List.mem_cons_self
  have hinherited : secondEditorProof ∈ secondWriterToken.delegationChain.getD [] :=
    List.mem_cons_self
  exact .inherited hproof splicedToken_relayed.parentResolved (.named hinherited)

/-- Revoking any token behind the helper's token is noticed. -/
theorem helperToken_revocation_complete :
    validateDelegationChain ((ports ledger [] []).over
        (fun id => [root, writerToken].find? (·.id == id)) fun _ => false) helperToken today = .ok 2 ∧
      ∀ isRevoked depth, validateDelegationChain ((ports ledger [] []).over
          (fun id => [root, writerToken].find? (·.id == id)) isRevoked) helperToken today = .ok depth →
        ∀ id, Provenance (fun id => [root, writerToken].find? (·.id == id))
          (helperToken.delegationChain.getD []) id → isRevoked id = false := by
  have haccepted : validateDelegationChain ((ports ledger [] []).over
      (fun id => [root, writerToken].find? (·.id == id)) fun _ => false) helperToken today = .ok 2 :=
    helperToken_accepted
  refine ⟨haccepted, (cascade_revocation_complete_iff haccepted).mpr ?_⟩
  apply namesProvenance_of_subset
  have hrootFound : [root, writerToken].find? (·.id == root.id) = some root := by decide
  have hwriterFound : [root, writerToken].find? (·.id == writerToken.id) = some writerToken := by
    decide
  have heditor : ∀ parent ∈ [root, writerToken].find? (·.id == editorProof.parentTokenId),
      parent.delegationChain.getD [] ⊆ [editorProof, writerProof] := by
    intro parent hparent
    obtain rfl := Option.some.inj (hrootFound.symm.trans hparent)
    exact List.nil_subset _
  have hwriter : ∀ parent ∈ [root, writerToken].find? (·.id == writerProof.parentTokenId),
      parent.delegationChain.getD [] ⊆ [editorProof, writerProof] := by
    intro parent hparent
    obtain rfl := Option.some.inj (hwriterFound.symm.trans hparent)
    exact List.cons_subset_cons _ (List.nil_subset _)
  exact List.forall_mem_cons.mpr ⟨heditor, List.forall_mem_singleton.mpr hwriter⟩

end Relay

end Coivitas.Identity
