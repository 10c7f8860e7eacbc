import Coivitas.Crypto.HashChainBuilder

/-! # The hash chain of the Python SDK

The model of `hash_chain_canonicalize` in `packages/sdk-python`: the values of
`json.loads`, the two canonicalizers, the pydantic model of an entry, and the functions
that append to a chain and verify one. What the runtime brings is a parameter: the JSON
reader, `repr` of a float, SHA-256 and the `jcs` package, where it is installed.
-/

namespace Coivitas.Crypto.Python

open Foundation

/-! ## Values -/

/-- A value of `json.loads`, in which integers and floats are told apart. -/
inductive PyValue where
  | none
  | bool (value : Bool)
  | int (value : Int)
  | float (value : ℚ)
  | str (value : String)
  | list (items : List PyValue)
  | dict (members : List (String × PyValue))

namespace PyValue

mutual

/-- The JSON value that a Python value stands for. -/
def toJson : PyValue → Json
  | .none => .null
  | .bool value => .bool value
  | .int value => .num value
  | .float value => .num value
  | .str value => .str value
  | .list items => .arr (toJsonItems items)
  | .dict members => .obj (toJsonMembers members)

def toJsonItems : List PyValue → List Json
  | [] => []
  | item :: items => toJson item :: toJsonItems items

def toJsonMembers : List (String × PyValue) → List (String × Json)
  | [] => []
  | (name, value) :: members => (name, toJson value) :: toJsonMembers members

end

/-- Strings are compared by code points. -/
def memberLe (a b : String × PyValue) : Prop := a.1 ≤ b.1

instance : DecidableRel memberLe := fun a b => inferInstanceAs (Decidable (a.1 ≤ b.1))

mutual

/-- The members of every dict in the order of `sort_keys=True`. -/
def sortKeys : PyValue → PyValue
  | .none => .none
  | .bool value => .bool value
  | .int value => .int value
  | .float value => .float value
  | .str value => .str value
  | .list items => .list (sortKeysItems items)
  | .dict members => .dict ((sortKeysMembers members).insertionSort memberLe)

def sortKeysItems : List PyValue → List PyValue
  | [] => []
  | item :: items => sortKeys item :: sortKeysItems items

def sortKeysMembers : List (String × PyValue) → List (String × PyValue)
  | [] => []
  | (name, value) :: members => (name, sortKeys value) :: sortKeysMembers members

end

variable (floatRepr : ℚ → List Char)

mutual

/-- `json.dumps` with `separators=(",", ":")` and `ensure_ascii=False`; the escapes of a
string are those of `JSON.stringify`. -/
def print : PyValue → List Char
  | .none => ['n', 'u', 'l', 'l']
  | .bool true => ['t', 'r', 'u', 'e']
  | .bool false => ['f', 'a', 'l', 's', 'e']
  | .int value => NumberFormat.integerText value
  | .float value => floatRepr value
  | .str value => Json.printString value
  | .list [] => ['[', ']']
  | .list (item :: items) => '[' :: (print item ++ printItems items)
  | .dict [] => ['{', '}']
  | .dict ((name, value) :: members) =>
      '{' :: (Json.printString name ++ ':' :: (print value ++ printMembers members))

def printItems : List PyValue → List Char
  | [] => [']']
  | item :: items => ',' :: (print item ++ printItems items)

def printMembers : List (String × PyValue) → List Char
  | [] => ['}']
  | (name, value) :: members =>
      ',' :: (Json.printString name ++ ':' :: (print value ++ printMembers members))

end

def dumps (value : PyValue) : String := String.ofList (print floatRepr (sortKeys value))

end PyValue

/-- What the module uses from outside. `jcs` is absent where its import fails. -/
structure PythonPorts where
  loads : String → Option PyValue
  floatRepr : ℚ → List Char
  jcs : Option (PyValue → String)
  sha256 : List UInt8 → List UInt8
  isDecimal : Char → Bool

/-! ## Types -/

inductive HccErrorCode where
  | schemaViolation
  | genesisInvariantViolation
  | continuationInvariantViolation
  | hashMismatch
  | chainPositionNotMonotonic
  | linkBroken
  | chainIdentityTampered
  | versionMismatch
deriving DecidableEq, Repr

/-- What is raised: an `HccError` with the index its message names, or pydantic's
`ValidationError` with the fields it lists. -/
inductive PythonError where
  | hcc (code : HccErrorCode) (entryIndex : Option Nat)
  | validation (fields : List String)
deriving DecidableEq, Repr

def hccSentinelHash : String := String.ofList (List.replicate 64 '0')

def hccVersion : String := "2.0.0"

variable (Q : PythonPorts)

/-- `re.match(r"^\d{4}-\d{2}-\d{2}T\d{2}:\d{2}:\d{2}", v)`. -/
def isTimestamp (v : String) : Bool :=
  let digits (n : Nat) := List.replicate n Q.isDecimal
  matchesEach (digits 4 ++ [(· == '-')] ++ digits 2 ++ [(· == '-')] ++ digits 2 ++ [(· == 'T')] ++
    digits 2 ++ [(· == ':')] ++ digits 2 ++ [(· == ':')] ++ digits 2) (v.toList.take 19)

/-- The fields that the validators of the pydantic model refuse. A chain identity has a
namespace, and no fields but the three, by its type. -/
def invalidFields (entry : HashChainEntry) : List String :=
  [("canonicalPayloadHash", isSha256Hex entry.canonicalPayloadHash),
    ("previousHash", isSha256Hex entry.previousHash),
    ("chainPosition", decide (0 ≤ entry.chainPosition)),
    ("timestamp", isTimestamp Q entry.timestamp),
    ("hccVersion", entry.hccVersion == hccVersion)].filterMap fun (field, valid) =>
      if valid then none else some field

def newHashChainEntry (entry : HashChainEntry) : Except PythonError HashChainEntry := do
  require (invalidFields Q entry = []) (.validation (invalidFields Q entry))
  return entry

/-! ## Canonical texts and hashes -/

/-- The `jcs` package, or the standard library where it is not installed. -/
def jcsCanonicalize (value : PyValue) : String :=
  match Q.jcs with
  | some canonicalize => canonicalize value
  | none => value.dumps Q.floatRepr

/-- The dict of an identity holds the fields that are present. -/
def identityDict (identity : ChainIdentity) : PyValue :=
  .dict (([("chainNamespace", .str identity.chainNamespace)] : List (String × PyValue)) ++
    (identity.tenantId.toList.map fun tenantId => ("tenantId", PyValue.str tenantId)) ++
    (identity.auditClass.toList.map fun auditClass => ("auditClass", PyValue.str auditClass)))

def canonicalizeChainIdentity (identity : ChainIdentity) : String :=
  jcsCanonicalize Q (identityDict identity)

def computeCanonicalPayloadHashHex (preimage : List UInt8) : String := toHex (Q.sha256 preimage)

def recomputeCanonicalPayloadHash (entry : HashChainEntry) : String :=
  computeCanonicalPayloadHashHex Q
    (concatPreimage entry.canonicalPayload (canonicalizeChainIdentity Q entry.chainIdentity))

def assertCanonicalPayloadIsCanonical (entry : HashChainEntry) (entryIndex : Nat) :
    Except PythonError Unit :=
  match Q.loads entry.canonicalPayload with
  | none => throw (.hcc .schemaViolation entryIndex)
  | some parsed =>
      require (jcsCanonicalize Q parsed = entry.canonicalPayload)
        (.hcc .chainIdentityTampered entryIndex)

def assertCanonicalPayloadHashConsistent (entry : HashChainEntry) (entryIndex : Nat) :
    Except PythonError Unit := do
  assertCanonicalPayloadIsCanonical Q entry entryIndex
  require (entry.canonicalPayloadHash = recomputeCanonicalPayloadHash Q entry)
    (.hcc .hashMismatch entryIndex)

/-! ## Verification -/

/-- An entry against the one before it. -/
def verifyLink (link : (HashChainEntry × HashChainEntry) × Nat) : Except PythonError Unit := do
  let ((prev, current), i) := link
  require (current.chainPosition = prev.chainPosition + 1)
    (.hcc .chainPositionNotMonotonic (some i))
  require (current.previousHash = prev.canonicalPayloadHash) (.hcc .linkBroken (some i))

def verifyEntry (item : HashChainEntry × Nat) : Except PythonError Unit := do
  let (entry, i) := item
  require (entry.hccVersion = hccVersion) (.hcc .versionMismatch (some i))
  assertCanonicalPayloadHashConsistent Q entry i

/-- The links are traversed from the last one to the first. -/
def verifyHashChain (entries : List HashChainEntry) (trustedCheckpoint : Option String)
    (expectedChainIdentity : Option ChainIdentity) : Except PythonError Unit :=
  match entries with
  | [] => throw (.hcc .schemaViolation none)
  | genesis :: rest => do
      let last := (genesis :: rest).getLast (List.cons_ne_nil genesis rest)
      require (∀ checkpoint ∈ trustedCheckpoint, last.canonicalPayloadHash = checkpoint)
        (.hcc .schemaViolation none)
      let firstIdentityJcs := canonicalizeChainIdentity Q genesis.chainIdentity
      require (∀ expected ∈ expectedChainIdentity,
        firstIdentityJcs = canonicalizeChainIdentity Q expected)
          (.hcc .chainIdentityTampered (some 0))
      forEach (rest.zipIdx 1) fun (entry, i) =>
        require (canonicalizeChainIdentity Q entry.chainIdentity = firstIdentityJcs)
          (.hcc .chainIdentityTampered (some i))
      require (genesis.chainPosition = 0) (.hcc .genesisInvariantViolation none)
      require (genesis.previousHash = hccSentinelHash) (.hcc .genesisInvariantViolation none)
      forEach (((genesis :: rest).zip rest).zipIdx 1).reverse verifyLink
      forEach (genesis :: rest).zipIdx (verifyEntry Q)

/-! ## Appending -/

/-- The identifier is drawn by `uuid.uuid4`, the timestamp is that of the call. -/
def appendHashChainEntry (payload : List (String × PyValue)) (chainIdentity : ChainIdentity)
    (prevEntry : Option HashChainEntry) (entryId timestamp : String) :
    Except PythonError HashChainEntry := do
  require (∀ prev ∈ prevEntry, chainIdentity = prev.chainIdentity)
    (.hcc .chainIdentityTampered none)
  let canonicalPayload := jcsCanonicalize Q (.dict payload)
  let chainIdentityJcs := canonicalizeChainIdentity Q chainIdentity
  newHashChainEntry Q
    { entryId, canonicalPayload
      canonicalPayloadHash :=
        computeCanonicalPayloadHashHex Q (concatPreimage canonicalPayload chainIdentityJcs)
      previousHash := (prevEntry.map HashChainEntry.canonicalPayloadHash).getD hccSentinelHash
      chainPosition := (prevEntry.map fun prev => prev.chainPosition + 1).getD 0
      chainIdentity, timestamp, hccVersion }

end Coivitas.Crypto.Python
