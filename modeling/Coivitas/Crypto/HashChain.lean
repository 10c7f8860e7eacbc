import Coivitas.Foundation.Json
import Coivitas.Foundation.Outcome

/-! # Hash-chain entries and their verification

The model of `packages/crypto/src/hash-chain-canonicalize`: the preimage of an
entry, the verifier with its chain identity guard and its checkpoint, and what
the verifier certifies. The hash function, the JSON reader and the two string
formats of the schema validator are parameters.
-/

namespace Coivitas.Crypto

open Foundation

/-- The error codes of the hash-chain namespace thrown by the verifier. -/
inductive HccErrorCode where
  | canonicalizeFailed
  | hashMismatch
  | previousHashBroken
  | chainPositionNonmonotonic
  | schemaViolation
  | chainIdentityPreimageFailed
  | chainIdentitySchemaBreaking
deriving DecidableEq, Repr

/-- A thrown error with the index of the entry its message names. -/
structure HashChainError where
  code : HccErrorCode
  entryIndex : Option Nat
deriving DecidableEq, Repr

structure ChainIdentity where
  chainNamespace : String
  tenantId : Option String
  auditClass : Option String
deriving DecidableEq, Repr

structure HashChainEntry where
  entryId : String
  canonicalPayload : String
  canonicalPayloadHash : String
  previousHash : String
  chainPosition : Int
  chainIdentity : ChainIdentity
  timestamp : String
  hccVersion : String
deriving DecidableEq, Repr

/-- What the verifier uses from outside: the number printer of the canonical
form, `JSON.parse`, SHA-256 and the `uuid` and `date-time` formats of the
schema validator. -/
structure HccPorts where
  numberFormat : NumberFormat
  parse : String → Option Json
  sha256 : List UInt8 → List UInt8
  uuidFormat : String → Bool
  dateTimeFormat : String → Bool

/-- The `previousHash` of the first entry: 64 zeros. -/
def genesisPreviousHash : String := String.ofList (List.replicate 64 '0')

def hccVersionCurrent : String := "2.0.0"

variable (P : HccPorts)

/-! ## Schema -/

def isUuidV4 (s : String) : Bool :=
  matchesEach (List.replicate 8 isLowerHex ++ [(· == '-')] ++ List.replicate 4 isLowerHex ++
    [(· == '-'), (· == '4')] ++ List.replicate 3 isLowerHex ++
    [(· == '-'), (['8', '9', 'a', 'b'].contains ·)] ++ List.replicate 3 isLowerHex ++
    [(· == '-')] ++ List.replicate 12 isLowerHex) s.toList

/-- Sixty-four lower-case hex digits. -/
def isSha256Hex (s : String) : Bool := s.toList.length == 64 && s.toList.all isLowerHex

def validateChainIdentitySchema (identity : ChainIdentity) : Bool :=
  !identity.chainNamespace.toList.isEmpty &&
    identity.tenantId.all P.uuidFormat &&
    identity.auditClass.all (["L1", "L2", "L3"].contains ·)

def validateHashChainEntrySchema (entry : HashChainEntry) : Bool :=
  P.uuidFormat entry.entryId && isUuidV4 entry.entryId &&
    decide (2 ≤ entry.canonicalPayload.toList.length) &&
    isSha256Hex entry.canonicalPayloadHash && isSha256Hex entry.previousHash &&
    decide (0 ≤ entry.chainPosition) && validateChainIdentitySchema P entry.chainIdentity &&
    P.dateTimeFormat entry.timestamp && entry.hccVersion == hccVersionCurrent

/-! ## The hashed preimage -/

/-- Only the fields that are present enter the canonical object. -/
def chainIdentityObject (identity : ChainIdentity) : Json :=
  .obj (([("chainNamespace", .str identity.chainNamespace)] : List (String × Json)) ++
    (identity.tenantId.toList.map fun tenantId => ("tenantId", Json.str tenantId)) ++
    (identity.auditClass.toList.map fun auditClass => ("auditClass", Json.str auditClass)))

def canonicalizeChainIdentity (identity : ChainIdentity) : Except HashChainError String := do
  require (identity.chainNamespace ≠ "") ⟨.schemaViolation, none⟩
  require (identity.chainNamespace ≠ "__NULL__") ⟨.schemaViolation, none⟩
  require (identity.tenantId ≠ some "") ⟨.schemaViolation, none⟩
  require (identity.auditClass ≠ some "") ⟨.schemaViolation, none⟩
  return Json.canonicalize P.numberFormat (chainIdentityObject identity)

/-- Payload first, identity second, no separator. -/
def concatPreimage (canonicalPayload chainIdentityJcs : String) : List UInt8 :=
  utf8 canonicalPayload ++ utf8 chainIdentityJcs

def computeCanonicalPayloadHashHex (preimage : List UInt8) : Except HashChainError String := do
  require ((P.sha256 preimage).length = 32) ⟨.hashMismatch, none⟩
  return toHex (P.sha256 preimage)

def recomputeCanonicalPayloadHash (entry : HashChainEntry) : Except HashChainError String := do
  let chainIdentityJcs ← canonicalizeChainIdentity P entry.chainIdentity
  computeCanonicalPayloadHashHex P (concatPreimage entry.canonicalPayload chainIdentityJcs)

def assertCanonicalPayloadIsCanonical (entry : HashChainEntry) (entryIndex : Nat) :
    Except HashChainError Unit :=
  match P.parse entry.canonicalPayload with
  | none => throw ⟨.canonicalizeFailed, entryIndex⟩
  | some parsed =>
      require (Json.canonicalize P.numberFormat parsed = entry.canonicalPayload)
        ⟨.chainIdentityPreimageFailed, entryIndex⟩

def assertCanonicalPayloadHashConsistent (entry : HashChainEntry) (entryIndex : Nat) :
    Except HashChainError Unit := do
  assertCanonicalPayloadIsCanonical P entry entryIndex
  let expectedHashHex ← recomputeCanonicalPayloadHash P entry
  require (entry.canonicalPayloadHash = expectedHashHex)
    ⟨.chainIdentityPreimageFailed, entryIndex⟩

/-! ## Verification -/

structure Checkpoint where
  requireNonEmpty : Option Bool
  expectedEntryCount : Option Nat
  expectedLastChainPosition : Option Int
  expectedLastCanonicalPayloadHash : Option String
deriving DecidableEq, Repr

structure VerifyHashChainOptions where
  expectedChainIdentity : Option ChainIdentity
  checkpoint : Option Checkpoint
deriving DecidableEq, Repr

/-- The checkpoint guards that run before the empty chain is let through. -/
def verifyCount (checkpoint : Option Checkpoint) (count : Nat) : Except HashChainError Unit :=
  match checkpoint with
  | none => pure ()
  | some checkpoint => do
      require (¬ (checkpoint.requireNonEmpty = some true ∧ count = 0)) ⟨.previousHashBroken, none⟩
      require (∀ expected ∈ checkpoint.expectedEntryCount, count = expected)
        ⟨.previousHashBroken, none⟩

def verifyGenesis (genesis : HashChainEntry) : Except HashChainError Unit := do
  require (validateHashChainEntrySchema P genesis = true) ⟨.schemaViolation, some 0⟩
  require (genesis.chainPosition = 0) ⟨.chainPositionNonmonotonic, some 0⟩
  require (genesis.previousHash = genesisPreviousHash) ⟨.previousHashBroken, some 0⟩
  require (genesis.hccVersion = hccVersionCurrent) ⟨.chainIdentitySchemaBreaking, some 0⟩

/-- The traversal from the second entry on: each entry against the one before it. -/
def verifyLinks (previous : HashChainEntry) (i : Nat) :
    List HashChainEntry → Except HashChainError Unit
  | [] => pure ()
  | current :: rest => do
      require (validateHashChainEntrySchema P current = true) ⟨.schemaViolation, some i⟩
      require (current.chainPosition = previous.chainPosition + 1)
        ⟨.chainPositionNonmonotonic, some i⟩
      require (current.previousHash = previous.canonicalPayloadHash)
        ⟨.previousHashBroken, some i⟩
      require (current.hccVersion = hccVersionCurrent) ⟨.chainIdentitySchemaBreaking, some i⟩
      verifyLinks current (i + 1) rest

/-- The traversal that recomputes every hash and compares every chain
identity with the first one and with the expected one. -/
def verifyPreimages (expectedJcs firstJcs : Option String) (i : Nat) :
    List HashChainEntry → Except HashChainError Unit
  | [] => pure ()
  | entry :: rest => do
      assertCanonicalPayloadHashConsistent P entry i
      let thisJcs ← canonicalizeChainIdentity P entry.chainIdentity
      require (∀ first ∈ firstJcs, thisJcs = first) ⟨.chainIdentityPreimageFailed, some i⟩
      require (∀ expected ∈ expectedJcs, thisJcs = expected) ⟨.chainIdentityPreimageFailed, some i⟩
      verifyPreimages expectedJcs (some (firstJcs.getD thisJcs)) (i + 1) rest

/-- The checkpoint guards on the last entry. -/
def verifyTail (checkpoint : Option Checkpoint) (last : HashChainEntry) :
    Except HashChainError Unit :=
  match checkpoint with
  | none => pure ()
  | some checkpoint => do
      require (∀ expected ∈ checkpoint.expectedLastChainPosition, last.chainPosition = expected)
        ⟨.previousHashBroken, none⟩
      require (∀ expected ∈ checkpoint.expectedLastCanonicalPayloadHash,
        last.canonicalPayloadHash = expected) ⟨.previousHashBroken, none⟩

def expectedChainIdentityJcs (options : VerifyHashChainOptions) :
    Except HashChainError (Option String) :=
  match options.expectedChainIdentity with
  | none => pure none
  | some identity => do
      let jcs ← canonicalizeChainIdentity P identity
      return some jcs

def verifyHashChain (entries : List HashChainEntry) (options : VerifyHashChainOptions) :
    Except HashChainError Unit := do
  verifyCount options.checkpoint entries.length
  match entries with
  | [] => pure ()
  | genesis :: rest => do
      verifyGenesis P genesis
      verifyLinks P genesis 1 rest
      let expectedJcs ← expectedChainIdentityJcs P options
      verifyPreimages P expectedJcs none 0 (genesis :: rest)
      verifyTail options.checkpoint ((genesis :: rest).getLast (List.cons_ne_nil genesis rest))

end Coivitas.Crypto
