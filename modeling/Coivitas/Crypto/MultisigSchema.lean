import Coivitas.Crypto.HashChainBuilder
import Coivitas.Crypto.Multisig
import Coivitas.Types.Schema

/-! # The schema of multisig tokens and their factory

The JSON schemas of multisig tokens and of the signed payload, and the factory that builds a
token. The schema and the factory bound the same fields by different means: the factory wants
more behind `did:` than the prefix, and has an upper bound on the threshold.
-/

namespace Coivitas.Crypto.Multisig

open Foundation

/-! ## Parts of a schema -/

/-- `ajv-formats`. -/
structure FormatPorts where
  uuidFormat : String → Bool
  dateTimeFormat : String → Bool
  uriFormat : String → Bool

def member? (name : String) : Json → Option Json
  | .obj members => (members.find? fun member => member.1 = name).map Prod.snd
  | _ => none

def isText (test : String → Bool) : Json → Bool
  | .str text => test text
  | _ => false

def isObject : Json → Bool
  | .obj _ => true
  | _ => false

/-- `typeof value === 'object'` and not `null`. -/
def isRecord : Json → Bool
  | .obj _ | .arr _ => true
  | _ => false

def isArray (test : Json → Bool) : Json → Bool
  | .arr items => items.all test
  | _ => false

/-- `additionalProperties: false`. -/
def hasOnly (names : List String) : Json → Bool
  | .obj members => members.all fun member => names.contains member.1
  | _ => false

/-- A required property. -/
def hasMember (name : String) (test : Json → Bool) (value : Json) : Bool :=
  (member? name value).any test

def mayHaveMember (name : String) (test : Json → Bool) (value : Json) : Bool :=
  (member? name value).all test

def isNonEmpty (text : String) : Bool := text != ""

/-- `^did:` -/
def isDidText (text : String) : Bool := ['d', 'i', 'd', ':'].isPrefixOf text.toList

/-- `^https://` -/
def isHttpsText (text : String) : Bool :=
  ['h', 't', 't', 'p', 's', ':', '/', '/'].isPrefixOf text.toList

/-- `^did:.*#` -/
def isDidReference (text : String) : Bool :=
  isDidText text &&
    ((text.toList.drop 4).takeWhile fun c => !Types.isLineTerminator c).contains '#'

/-- `^[A-Za-z0-9_-]+=*$` -/
def isBase64UrlText (text : String) : Bool :=
  let stripped := text.toList.rdropWhile (· == '=')
  !stripped.isEmpty && stripped.all isBase64UrlChar

theorem member_of_hasMember {name : String} {test : String → Bool} {value : Json}
    (h : hasMember name (isText test) value = true) :
    ∃ text, member? name value = some (.str text) ∧ test text = true := by
  unfold hasMember at h
  cases hmember : member? name value with
  | none => simp [hmember] at h
  | some other =>
      rw [hmember, Option.any_some] at h
      cases other with
      | str text => exact ⟨text, rfl, h⟩
      | _ => cases h

/-! ## The signed payload -/

variable (F : FormatPorts)

def isScope : Json → Bool :=
  hasMember "type" (isText fun type =>
    ["allowlist", "numeric_limit", "temporal_scope", "cumulative_limit"].contains type)

def isCapability (capability : Json) : Bool :=
  hasMember "action" (isText isNonEmpty) capability && hasMember "scope" isScope capability

def isTokenProof (proof : Json) : Bool :=
  hasOnly ["type", "created", "verificationMethod", "value"] proof &&
    hasMember "type" (isText (· == "Ed25519Signature2026")) proof &&
    hasMember "created" (isText F.dateTimeFormat) proof &&
    hasMember "verificationMethod" (isText isDidReference) proof &&
    hasMember "value" (isText isNonEmpty) proof

def isPayloadToken (token : Json) : Bool :=
  hasOnly ["id", "issuerDid", "principalDid", "issuedTo", "specVersion", "issuedAt", "expiresAt",
    "capabilities", "delegationChain", "revocationUrl", "proof"] token &&
    hasMember "id" (isText isNonEmpty) token &&
    hasMember "issuerDid" (isText isDidText) token &&
    hasMember "principalDid" (isText isDidText) token &&
    hasMember "issuedTo" (isText isDidText) token &&
    hasMember "specVersion" (isText (["0.1.0", "0.2.0", "0.3.0"].contains ·)) token &&
    hasMember "issuedAt" (isText F.dateTimeFormat) token &&
    hasMember "expiresAt" (isText F.dateTimeFormat) token &&
    hasMember "capabilities" (fun capabilities =>
      capabilities != .arr [] && isArray isCapability capabilities) token &&
    mayHaveMember "delegationChain" (isArray isObject) token &&
    hasMember "revocationUrl" (isText fun url => F.uriFormat url && isHttpsText url) token &&
    hasMember "proof" (isTokenProof F) token

def isChallenge (challenge : String) : Bool := F.uuidFormat challenge && isUuidV4 challenge

/-- Exactly one of the two kinds. -/
def isAudience (audience : String) : Bool :=
  (F.uriFormat audience && isDidText audience) != (F.uriFormat audience && isHttpsText audience)

def isSignedPayload (csp : Json) : Bool :=
  hasOnly ["cspVersion", "token", "disclosedClaims", "challenge", "audience", "notAfter"] csp &&
    hasMember "cspVersion" (isText (· == "1.0.0")) csp &&
    hasMember "token" (isPayloadToken F) csp &&
    hasMember "disclosedClaims" (isArray isObject) csp &&
    hasMember "challenge" (isText (isChallenge F)) csp &&
    hasMember "audience" (isText (isAudience F)) csp &&
    hasMember "notAfter" (isText F.dateTimeFormat) csp

/-! ## The token -/

def merklePathMaxLength : Nat := 8192

/-- A DID or a UUID. -/
def isSignerId (id : String) : Bool := isDidText id != (F.uuidFormat id && isUuidV4 id)

def SignerInfo.fitsSchema (signer : SignerInfo) : Bool :=
  isNonEmpty signer.id && isSignerId F signer.id && isNonEmpty signer.publicKey &&
    isNonEmpty signer.signature

def InclusionProof.fitsSchema (proof : InclusionProof) : Bool :=
  isNonEmpty proof.signerId && isNonEmpty proof.path &&
    decide (proof.path.toList.length ≤ merklePathMaxLength) && isBase64UrlText proof.path

def MultisigToken.fitsSchema (token : MultisigToken) : Bool :=
  token.multisigVersion == "1.0.0" && isInteger token.threshold && decide (1 ≤ token.threshold) &&
    !token.signers.isEmpty && decide token.signers.Nodup &&
    token.signers.all (SignerInfo.fitsSchema F) && isNonEmpty token.merkleRoot &&
    (isBase64UrlText token.merkleRoot || isSha256Hex token.merkleRoot) &&
    !token.inclusionProofs.isEmpty && decide token.inclusionProofs.Nodup &&
    token.inclusionProofs.all InclusionProof.fitsSchema && isSignedPayload F token.csp

/-! ## The factory -/

def multisigThresholdMaxSanity : ℚ := 1000

def toMultisigVersion (s : String) : Except String String := do
  require (isSemver s = true)
    ("MULTISIG_VERSION_UNSUPPORTED: not valid semver (X.Y.Z): \"" ++ s ++ "\"")
  require (s ∈ ["1.0.0"]) ("MULTISIG_VERSION_UNSUPPORTED: unsupported multisigVersion \"" ++ s ++
    "\"; supported: 1.0.0")
  return s

/-- A DID with more than its prefix, or a UUID in either case. -/
def toSignerId (s : String) : Except String String := do
  require ((isDidText s = true ∧ s ≠ "did:") ∨ isUuidV4 (toLowerCase s) = true)
    ("MULTISIG_SIGNER_ID_INVALID: signer ID must be did:* DID or UUID v4, got \"" ++ s ++ "\"")
  return s

def toMerklePath (s : String) : Except String String := do
  require (s ≠ "") "MULTISIG_MERKLE_PATH_INVALID: path is empty (must be 1 ≤ length ≤ 8192)"
  require ((codeUnits s).length ≤ merklePathMaxLength)
    ("MULTISIG_MERKLE_PATH_INVALID: path length " ++ toString (codeUnits s).length ++
      " exceeds max 8192")
  require (isBase64UrlText s = true)
    ("MULTISIG_MERKLE_PATH_INVALID: not valid base64url format: \"" ++
      String.ofList (s.toList.take 32) ++ "...\"")
  return s

/-- The signers, with no id twice. -/
def createSigners : List (SignerInfo × Nat) → List String → Except String (List String)
  | [], signerIdSet => .ok signerIdSet
  | (rawSigner, idx) :: rest, signerIdSet => do
      let entry := "signers[" ++ toString idx ++ "]"
      require (rawSigner.publicKey ≠ "")
        ("MULTISIG_SCHEMA_VIOLATION: " ++ entry ++ ".publicKey must be non-empty string")
      require (rawSigner.signature ≠ "")
        ("MULTISIG_SCHEMA_VIOLATION: " ++ entry ++ ".signature must be non-empty string")
      let id ← toSignerId rawSigner.id
      require (id ∉ signerIdSet) ("MULTISIG_SIGNER_DUPLICATE: " ++ entry ++ ".id \"" ++ id ++
        "\" duplicates earlier signer (by-field uniqueness violated)")
      createSigners rest (id :: signerIdSet)

/-- The proofs, each of another signer. -/
def createProofs (signerIdSet : List String) :
    List (InclusionProof × Nat) → List String → Except String Unit
  | [], _ => .ok ()
  | (rawProof, idx) :: rest, proofSignerIdSet => do
      let entry := "MULTISIG_INCLUSION_PROOF_MISSING: inclusionProofs[" ++ toString idx ++ "]"
      let signerId ← toSignerId rawProof.signerId
      let _ ← toMerklePath rawProof.path
      require (signerId ∉ proofSignerIdSet) (entry ++ ".signerId \"" ++ signerId ++
        "\" duplicates earlier proof (by-field uniqueness violated)")
      require (signerId ∈ signerIdSet) (entry ++ ".signerId \"" ++ signerId ++
        "\" not in signers set (1:1 mapping violated)")
      createProofs signerIdSet rest (signerId :: proofSignerIdSet)

variable (N : NumberFormat)

def createMultisigToken (input : MultisigToken) : Except String MultisigToken := do
  let threshold := String.ofList (N.format input.threshold)
  let multisigVersion ← toMultisigVersion input.multisigVersion
  require (isInteger input.threshold = true)
    ("MULTISIG_THRESHOLD_INVALID: threshold must be integer, got " ++ threshold ++
      " (typeof number)")
  require (¬ input.threshold < 1)
    ("MULTISIG_THRESHOLD_INVALID: threshold must be >= 1, got " ++ threshold)
  require (¬ input.threshold > multisigThresholdMaxSanity)
    ("MULTISIG_THRESHOLD_INVALID: threshold " ++ threshold ++ " exceeds sanity max 1000")
  require (¬ (input.signers.length : ℚ) < input.threshold)
    ("MULTISIG_SIGNERS_INSUFFICIENT: signers.length " ++ toString input.signers.length ++
      " < threshold " ++ threshold)
  let signerIdSet ← createSigners input.signers.zipIdx []
  require (input.merkleRoot ≠ "")
    "MULTISIG_MERKLE_ROOT_INVALID: merkleRoot must be non-empty string"
  require (input.inclusionProofs.length = input.signers.length)
    ("MULTISIG_INCLUSION_PROOF_MISSING: inclusionProofs.length " ++
      toString input.inclusionProofs.length ++ " !== signers.length " ++
      toString input.signers.length)
  createProofs signerIdSet input.inclusionProofs.zipIdx []
  require (input.csp ≠ .null) "MULTISIG_TOKEN_INCOMPLETE: csp must not be null or undefined"
  require (isRecord input.csp = true) "MULTISIG_TOKEN_INCOMPLETE: csp must be an object"
  return { input with multisigVersion := multisigVersion }

/-! ## What the factory takes -/

section Factory

variable {F N}

theorem toSignerId_eq_ok {s id : String} :
    toSignerId s = .ok id ↔
      ((isDidText s = true ∧ s ≠ "did:") ∨ isUuidV4 (toLowerCase s) = true) ∧ s = id := by
  simp only [toSignerId, bind_eq_ok, exists_unit, require_eq_ok, pure_eq_ok]

/-- Of the ids that the schema allows, the factory refuses the bare prefix only. -/
theorem toSignerId_iff {id : String} (hid : isSignerId F id = true) :
    toSignerId id = .ok id ↔ id ≠ "did:" := by
  rw [toSignerId_eq_ok, and_iff_left rfl]
  constructor
  · rintro (⟨-, hne⟩ | huuid)
    · exact hne
    · rintro rfl
      exact absurd huuid (by decide +kernel)
  · intro hne
    by_cases hdid : isDidText id = true
    · exact Or.inl ⟨hdid, hne⟩
    · rw [Bool.not_eq_true] at hdid
      rw [isSignerId, hdid, Bool.false_bne, Bool.and_eq_true] at hid
      exact Or.inr (by rw [toLowerCase_uuid hid.2, hid.2])

theorem toMerklePath_empty : toMerklePath "" ≠ .ok "" := by
  simp [toMerklePath]

/-- Names that differ from those before and among themselves. -/
theorem forall_not_mem_cons {α : Type} {name : String} {names : List String} {items : List α}
    {f : α → String} (hother : name ∉ items.map f) (hfresh : ∀ item ∈ items, f item ∉ names) :
    ∀ item ∈ items, f item ∉ name :: names := by
  intro item hitem hmem
  rcases List.mem_cons.mp hmem with heq | hmem
  · exact hother (List.mem_map.mpr ⟨item, hitem, heq⟩)
  · exact hfresh item hitem hmem

theorem createSigners_of_nodup (signers : List (SignerInfo × Nat)) (ids : List String)
    (hread : ∀ entry ∈ signers, entry.1.publicKey ≠ "" ∧ entry.1.signature ≠ "" ∧
      toSignerId entry.1.id = .ok entry.1.id)
    (hfresh : ∀ entry ∈ signers, entry.1.id ∉ ids)
    (hnodup : (signers.map fun entry => entry.1.id).Nodup) :
    ∃ result, createSigners signers ids = .ok result ∧ ids ⊆ result ∧
      ∀ entry ∈ signers, entry.1.id ∈ result := by
  induction signers generalizing ids with
  | nil => exact ⟨ids, rfl, List.Subset.refl ids, by simp⟩
  | cons entry signers ih =>
      obtain ⟨signer, i⟩ := entry
      obtain ⟨⟨hkey, hsignature, hid⟩, hread⟩ := List.forall_mem_cons.mp hread
      obtain ⟨hnew, hfresh⟩ := List.forall_mem_cons.mp hfresh
      rw [List.map_cons, List.nodup_cons] at hnodup
      obtain ⟨hother, hnodup⟩ := hnodup
      obtain ⟨result, hresult, hsubset, hmem⟩ :=
        ih (signer.id :: ids) hread (forall_not_mem_cons hother hfresh) hnodup
      refine ⟨result, ?_, fun id hid => hsubset (List.mem_cons_of_mem _ hid),
        List.forall_mem_cons.mpr ⟨hsubset List.mem_cons_self, hmem⟩⟩
      simp only [createSigners, bind_eq_ok, exists_unit, require_eq_ok]
      exact ⟨hkey, hsignature, signer.id, hid, hnew, hresult⟩

theorem toSignerId_of_createSigners {signers : List (SignerInfo × Nat)} {ids result : List String}
    (h : createSigners signers ids = .ok result) :
    ∀ entry ∈ signers, toSignerId entry.1.id = .ok entry.1.id := by
  induction signers generalizing ids with
  | nil => simp
  | cons entry signers ih =>
      simp only [createSigners, bind_eq_ok, exists_unit, require_eq_ok] at h
      obtain ⟨-, -, id, hid, -, hrest⟩ := h
      obtain ⟨-, rfl⟩ := toSignerId_eq_ok.mp hid
      exact List.forall_mem_cons.mpr ⟨hid, ih hrest⟩

theorem createProofs_of_nodup {signerIdSet : List String} (proofs : List (InclusionProof × Nat))
    (ids : List String)
    (hread : ∀ entry ∈ proofs, toSignerId entry.1.signerId = .ok entry.1.signerId ∧
      toMerklePath entry.1.path = .ok entry.1.path ∧ entry.1.signerId ∈ signerIdSet)
    (hfresh : ∀ entry ∈ proofs, entry.1.signerId ∉ ids)
    (hnodup : (proofs.map fun entry => entry.1.signerId).Nodup) :
    createProofs signerIdSet proofs ids = .ok () := by
  induction proofs generalizing ids with
  | nil => rfl
  | cons entry proofs ih =>
      obtain ⟨proof, i⟩ := entry
      obtain ⟨⟨hid, hpath, hmem⟩, hread⟩ := List.forall_mem_cons.mp hread
      obtain ⟨hnew, hfresh⟩ := List.forall_mem_cons.mp hfresh
      rw [List.map_cons, List.nodup_cons] at hnodup
      obtain ⟨hother, hnodup⟩ := hnodup
      simp only [createProofs, bind_eq_ok, exists_unit, require_eq_ok]
      exact ⟨proof.signerId, hid, proof.path, hpath, hnew, hmem,
        ih (proof.signerId :: ids) hread (forall_not_mem_cons hother hfresh) hnodup⟩

theorem toMerklePath_of_createProofs {signerIdSet : List String}
    {proofs : List (InclusionProof × Nat)} {ids : List String}
    (h : createProofs signerIdSet proofs ids = .ok ()) :
    ∀ entry ∈ proofs, toMerklePath entry.1.path = .ok entry.1.path := by
  induction proofs generalizing ids with
  | nil => simp
  | cons entry proofs ih =>
      simp only [createProofs, bind_eq_ok, exists_unit, require_eq_ok] at h
      obtain ⟨signerId, -, path, hpath, -, -, hrest⟩ := h
      have hsame : entry.1.path = path := by
        simp only [toMerklePath, bind_eq_ok, exists_unit, require_eq_ok, pure_eq_ok] at hpath
        exact hpath.2.2.2
      subst hsame
      exact List.forall_mem_cons.mpr ⟨hpath, ih hrest⟩

end Factory

end Coivitas.Crypto.Multisig
