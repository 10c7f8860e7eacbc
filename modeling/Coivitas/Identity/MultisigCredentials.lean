import Coivitas.Crypto.MultisigCompleteness
import Coivitas.Foundation.CalendarText

/-! # Issuing and verifying multisig tokens

The model of `packages/identity/src/credentials/multisig`. The issuer counts the signatures that
verify and goes on with a quorum of them; the verifier stops at the first that does not.
-/

namespace Coivitas.Identity.MultisigCredentials

open Foundation Crypto Crypto.Multisig

/-- What issuer and verifier use from outside. -/
structure CredentialPorts extends MultisigPorts where
  ed25519Sign : List UInt8 → List UInt8 → Option (List UInt8)
  /-- The public key of a seed. -/
  getPublicKey : List UInt8 → List UInt8
  /-- `new Date(text).getTime()`; `none` is NaN. -/
  getTime : String → Option Int

variable (P : CredentialPorts)

def CredentialPorts.curve : Ed25519Ports := ⟨P.ed25519Sign, P.ed25519Verify⟩

/-! ## The issuer -/

structure SignerKeyMaterial where
  id : String
  role : Role
  publicKey : String
  privateKey : String
  deriving DecidableEq

/-- A JavaScript array has fewer than `2 ^ 32` entries. -/
structure IssueMultisigTokenInput where
  signers : List SignerKeyMaterial
  threshold : ℚ
  csp : Json
  merkleRootEncoding : Option Encoding
  length_signers : signers.length < 2 ^ 32

/-- A coded error, or the plain one of the token factory. -/
inductive IssueError where
  | coded (error : MultisigError)
  | plain (message : String)

def signSignerEd25519 (message : List UInt8) (privateKey : String) (signerIdx : Nat) :
    Except MultisigError String :=
  (sign P.curve message privateKey .hex).mapError fun _ => ⟨.signatureInvalid,
    "issueMultisigToken: signers[" ++ toString signerIdx ++
      "] Ed25519 sign FAIL (privateKey decode or sign threw)"⟩

/-- The signers as they are passed in, with no id twice. -/
def checkSigners : List (SignerKeyMaterial × Nat) → List String → Except MultisigError Unit
  | [], _ => .ok ()
  | (signer, i) :: rest, signerIdSet => do
      let entry := "issueMultisigToken: signers[" ++ toString i ++ "]"
      require (signer.id ≠ "") ⟨.signerIdInvalid, entry ++ ".id must be non-empty string"⟩
      require (signer.id ∉ signerIdSet) ⟨.signerDuplicate, entry ++ ".id \"" ++ signer.id ++
        "\" duplicates earlier signer (by-field uniqueness)"⟩
      require (signer.publicKey ≠ "")
        ⟨.signatureInvalid, entry ++ ".publicKey must be non-empty string"⟩
      require (signer.privateKey ≠ "") ⟨.signatureInvalid,
        entry ++ ".privateKey must be non-empty string (off-band signing channel)"⟩
      checkSigners rest (signer.id :: signerIdSet)

/-- The entry of a signer in the token, with its signature. -/
def cosign (message : List UInt8) (entry : SignerKeyMaterial × Nat) :
    Except MultisigError SignerInfo := do
  let signature ← signSignerEd25519 P message entry.1.privateKey entry.2
  return ⟨entry.1.id, entry.1.role, entry.1.publicKey, signature⟩

/-- Whether a signature verifies, before the token is built. -/
def preVerify (message : List UInt8) (entry : SignerInfo × Nat) : Except MultisigError Bool :=
  (verify P.curve message entry.1.signature entry.1.publicKey).mapError fun _ =>
    ⟨.signatureInvalid, "issueMultisigToken: signers[" ++ toString entry.2 ++
      "] Ed25519 verify FAIL (signature/publicKey format invalid)"⟩

def inclusionProof (tree : MerkleTree) (entry : SignerInfo × Nat) :
    Except MultisigError InclusionProof :=
  match tree.paths[entry.2]? with
  | none => .error ⟨.inclusionProofMissing,
      "issueMultisigToken: paths[" ++ toString entry.2 ++ "] undefined (unreachable)"⟩
  | some pathBytes => .ok ⟨entry.1.id, encodeMerklePath pathBytes⟩

def checkThreshold (input : IssueMultisigTokenInput) : Except MultisigError Unit := do
  let threshold := String.ofList (P.numberFormat.format input.threshold)
  require (input.signers.length ≠ 0)
    ⟨.signersInsufficient, "issueMultisigToken: signers must be non-empty array"⟩
  require (isInteger input.threshold = true ∧ ¬ input.threshold < 1) ⟨.thresholdInvalid,
    "issueMultisigToken: threshold must be positive integer (got " ++ threshold ++ ")"⟩
  require (¬ (input.signers.length : ℚ) < input.threshold) ⟨.signersInsufficient,
    "issueMultisigToken: signers.length " ++ toString input.signers.length ++ " < threshold " ++
      threshold⟩

/-- Steps one to six: everything but the factory. -/
def buildToken (input : IssueMultisigTokenInput) : Except MultisigError MultisigToken := do
  checkThreshold P input
  checkSigners input.signers.zipIdx []
  let signedBytes := canonicalSerialize P.numberFormat input.csp
  let signers ← collect (cosign P signedBytes) input.signers.zipIdx
  let verdicts ← collect (preVerify P signedBytes) signers.zipIdx
  let validCount := verdicts.count true
  require (¬ (validCount : ℚ) < input.threshold) ⟨.quorumInsufficient,
    "issueMultisigToken: issuer-side pre-verify quorum FAIL (validCount " ++
      toString validCount ++ " < threshold " ++
      String.ofList (P.numberFormat.format input.threshold) ++ "; off-band signing channel error?)"⟩
  let leaves ← collect (fun signer => generateMerkleLeaf P.numberFormat signer.leafInput) signers
  let tree ← buildMerkleTree leaves
  let inclusionProofs ← collect (inclusionProof tree) signers.zipIdx
  return {
    multisigVersion := "1.0.0"
    threshold := input.threshold
    signers := signers
    merkleRoot := encode (input.merkleRootEncoding.getD .hex) tree.root
    inclusionProofs := inclusionProofs
    csp := input.csp }

def issueMultisigToken (input : IssueMultisigTokenInput) : Except IssueError MultisigToken := do
  let token ← (buildToken P input).mapError .coded
  (createMultisigToken P.numberFormat token).mapError .plain

/-! ## The verifier -/

structure VerifyMultisigTokenOptions where
  expectedAudience : String
  expectedChallenge : String
  now : Int
  minValidityWindowMs : ℚ := 1000
  enforceFullSchema : Bool := true

structure VerifyMultisigTokenResult where
  validCount : Nat
  threshold : ℚ
  deriving DecidableEq

/-- `typeof value` -/
def typeofMember : Option Json → String
  | none => "undefined"
  | some (.bool _) => "boolean"
  | some (.num _) => "number"
  | some (.str _) => "string"
  | some _ => "object"

/-- A member of the signed payload that has to be a text. -/
def textMember (name : String) (code : MultisigErrorCode) (csp : Json) :
    Except MultisigError String :=
  match member? name csp with
  | some (.str text) => .ok text
  | other => .error ⟨code, "verifyMultisigToken: csp." ++ name ++ " must be string (got " ++
      typeofMember other ++ ")"⟩

def checkNotAfter (cspNotAfter : String) (options : VerifyMultisigTokenOptions) :
    Except MultisigError Unit :=
  match P.getTime cspNotAfter with
  | none => .error ⟨.schemaViolation,
      "verifyMultisigToken: csp.notAfter is not parseable Date (got \"" ++ cspNotAfter ++ "\")"⟩
  | some notAfter =>
      require (¬ (notAfter : ℚ) ≤ options.now + options.minValidityWindowMs) ⟨.schemaViolation,
        "verifyMultisigToken: csp.notAfter expired (notAfter=" ++ cspNotAfter ++ ", now=" ++
          (Calendar.toISOString options.now).getD "" ++ ", minWindow=" ++
          String.ofList (P.numberFormat.format options.minValidityWindowMs) ++
          "ms; stale-replay defense)"⟩

def verifyMultisigToken (token : MultisigToken) (options : VerifyMultisigTokenOptions) :
    Except MultisigError VerifyMultisigTokenResult := do
  require (options.expectedAudience ≠ "") ⟨.schemaViolation,
    "verifyMultisigToken: opts.expectedAudience must be non-empty string"⟩
  require (options.expectedChallenge ≠ "") ⟨.challengeInvalid,
    "verifyMultisigToken: opts.expectedChallenge must be non-empty string (C1 first-contact " ++
      "replay defense; verifier must issue a challenge)"⟩
  require (isRecord token.csp = true)
    ⟨.tokenIncomplete, "verifyMultisigToken: token.csp is null or not object"⟩
  let cspChallenge ← textMember "challenge" .challengeInvalid token.csp
  require (cspChallenge = options.expectedChallenge) ⟨.challengeInvalid,
    "verifyMultisigToken: csp.challenge !== verifier-issued challenge (got \"" ++ cspChallenge ++
      "\", expected \"" ++ options.expectedChallenge ++ "\"; first-contact replay defense)"⟩
  let cspAudience ← textMember "audience" .schemaViolation token.csp
  require (cspAudience = options.expectedAudience) ⟨.schemaViolation,
    "verifyMultisigToken: csp.audience !== verifier expected audience (got \"" ++ cspAudience ++
      "\", expected \"" ++ options.expectedAudience ++ "\"; must match exactly)"⟩
  let cspNotAfter ← textMember "notAfter" .schemaViolation token.csp
  checkNotAfter P cspNotAfter options
  let l1Result ← verifyMultisigProof P.toMultisigPorts token
    ⟨options.enforceFullSchema, some (canonicalSerialize P.numberFormat token.csp)⟩
  return ⟨l1Result.validCount, l1Result.threshold⟩

/-! ## Keys and signatures -/

/-- The bytes that every signer signs. -/
def IssueMultisigTokenInput.message (input : IssueMultisigTokenInput) : List UInt8 :=
  canonicalSerialize P.numberFormat input.csp

/-- The seed in the text of the private key. -/
def SignerKeyMaterial.HasSeed (signer : SignerKeyMaterial) (seed : List UInt8) : Prop :=
  ∃ keyBytes, normalizeKey signer.privateKey = some keyBytes ∧
    (keyBytes.length = 32 ∨ keyBytes.length = 64) ∧ keyBytes.take 32 = seed

/-- The public key is that of the private key. -/
def SignerKeyMaterial.KeysMatch (signer : SignerKeyMaterial) : Prop :=
  ∃ seed, signer.HasSeed seed ∧ normalizeKey signer.publicKey = some (P.getPublicKey seed)

/-- The texts of both keys are read. -/
def SignerKeyMaterial.KeysRead (signer : SignerKeyMaterial) : Prop :=
  (∃ seed, signer.HasSeed seed) ∧ ∃ key, normalizeKey signer.publicKey = some key ∧ key.length = 32

def signatureVerifies (message : List UInt8) (signer : SignerInfo) : Bool :=
  (verify P.curve message signer.signature signer.publicKey).toOption.getD false

/-- What is signed with the private key verifies under the public key. -/
def keyVerifies (message : List UInt8) (signer : SignerKeyMaterial) : Bool :=
  ((cosign P message (signer, 0)).toOption.map (signatureVerifies P message)).getD false

/-- Ed25519: a signature that is made with a seed verifies under the public key of the seed. -/
structure CurveLaw : Prop where
  length_getPublicKey : ∀ seed, seed.length = 32 → (P.getPublicKey seed).length = 32
  sign_verifies : ∀ message seed, seed.length = 32 → ∃ signature,
    P.ed25519Sign message seed = some signature ∧ signature.length = 64 ∧
      P.ed25519Verify signature message (P.getPublicKey seed) = some true

section Signing

variable {P} {message : List UInt8} {signer : SignerKeyMaterial} {seed : List UInt8} {i : Nat}

theorem SignerKeyMaterial.HasSeed.length (h : signer.HasSeed seed) : seed.length = 32 := by
  obtain ⟨keyBytes, -, hlength, rfl⟩ := h
  rw [List.length_take]
  omega

theorem cosign_eq_ok {info : SignerInfo} : cosign P message (signer, i) = .ok info ↔
    ∃ seed signature, signer.HasSeed seed ∧ P.ed25519Sign message seed = some signature ∧
      info = ⟨signer.id, signer.role, signer.publicKey, toHex signature⟩ := by
  simp only [cosign, signSignerEd25519, bind_eq_ok, mapError_eq_ok, pure_eq_ok, sign_eq_ok_iff]
  constructor
  · rintro ⟨text, ⟨keyBytes, signature, hkey, hlength, hsign, rfl⟩, rfl⟩
    exact ⟨_, signature, ⟨keyBytes, hkey, hlength, rfl⟩, hsign, rfl⟩
  · rintro ⟨seed, signature, ⟨keyBytes, hkey, hlength, rfl⟩, hsign, rfl⟩
    exact ⟨_, ⟨keyBytes, signature, hkey, hlength, hsign, rfl⟩, rfl⟩

/-- The index of a signer only enters the texts of errors. -/
theorem signatureVerifies_of_cosign {info : SignerInfo}
    (h : cosign P message (signer, i) = .ok info) :
    signatureVerifies P message info = keyVerifies P message signer := by
  have hzero : cosign P message (signer, 0) = .ok info := cosign_eq_ok.mpr (cosign_eq_ok.mp h)
  rw [keyVerifies, hzero]
  rfl

theorem keysRead_of_keysMatch (hlaw : CurveLaw P) (h : signer.KeysMatch P) : signer.KeysRead := by
  obtain ⟨seed, hseed, hpublic⟩ := h
  exact ⟨⟨seed, hseed⟩, _, hpublic, hlaw.length_getPublicKey seed hseed.length⟩

theorem keyVerifies_of_keysMatch (hlaw : CurveLaw P) (h : signer.KeysMatch P) :
    keyVerifies P message signer = true := by
  obtain ⟨seed, hseed, hpublic⟩ := h
  obtain ⟨signature, hsign, hlength, hverify⟩ := hlaw.sign_verifies message seed hseed.length
  have hcosign : cosign P message (signer, 0) = .ok _ :=
    cosign_eq_ok.mpr ⟨seed, signature, hseed, hsign, rfl⟩
  have hvalid : verify P.curve message (toHex signature) signer.publicKey = .ok true :=
    verify_eq_ok (normalizeKey_toHex signature) hlength hpublic
      (hlaw.length_getPublicKey seed hseed.length) hverify
  rw [keyVerifies, hcosign]
  show (verify P.curve message (toHex signature) signer.publicKey).toOption.getD false = true
  rw [hvalid]
  rfl

/-- A verified signature, in the terms of the verifier. -/
theorem signed_iff {info : SignerInfo} :
    signatureVerifies P message info = true ↔ Signed P.toMultisigPorts message info := by
  have hvalid : signatureVerifies P message info = true ↔
      verify P.curve message info.signature info.publicKey = .ok true := by
    rw [signatureVerifies]
    cases verify P.curve message info.signature info.publicKey with
    | error e => simp [Except.toOption]
    | ok valid => simp [Except.toOption]
  have hread : ∀ signature key, (P.curve.verify signature message key).getD false = true ↔
      P.ed25519Verify signature message key = some true := by
    intro signature key
    show (P.ed25519Verify signature message key).getD false = true ↔ _
    cases P.ed25519Verify signature message key <;> simp
  rw [hvalid, verify_eq_ok_iff]
  simp only [hread, Signed]

end Signing

end Coivitas.Identity.MultisigCredentials
