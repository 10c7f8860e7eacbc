import Coivitas.Crypto.Encoding
import Coivitas.Crypto.HashChainEvidence

/-! # Building hash chains

The model of `appendHashChainEntry` with the brand factories it passes its
values through. Entries appended one after the other are accepted by the
verifier under their own identity and checkpoint, and under no other.
-/

namespace Coivitas.Crypto

open Foundation

/-! ## Brand factories -/

/-- `Number.MAX_SAFE_INTEGER`. -/
def maxSafeInteger : Int := 2 ^ 53 - 1

def hccSupportedVersions : List String := ["2.0.0"]

/-- `toLowerCase`, on the letters that can pass a check of hex digits. -/
def toLowerCase (s : String) : String := String.ofList (s.toList.map Char.toLower)

/-- `X.Y.Z` in decimal digits. -/
def isSemver (s : String) : Bool :=
  let parts := s.toList.splitOn '.'
  parts.length == 3 && parts.all fun part => !part.isEmpty && part.all Char.isDigit

def toChainIdentityJcs (s : String) : Except HashChainError String := do
  require (2 ≤ (codeUnits s).length) ⟨.schemaViolation, none⟩
  require (s ≠ "__NULL__") ⟨.chainIdentityPreimageFailed, none⟩
  return s

def toHashChainEntryId (s : String) : Except HashChainError String := do
  require (isUuidV4 (toLowerCase s) = true) ⟨.schemaViolation, none⟩
  return toLowerCase s

def toCanonicalPayloadHash (s : String) : Except HashChainError String := do
  require (isSha256Hex s = true) ⟨.schemaViolation, none⟩
  return s

/-- Accepts either case and stores the lower one. -/
def toPreviousHash (s : String) : Except HashChainError String := do
  require (isSha256Hex (toLowerCase s) = true) ⟨.schemaViolation, none⟩
  return toLowerCase s

def toChainPosition (n : Int) : Except HashChainError Int := do
  require (0 ≤ n ∧ n ≤ maxSafeInteger) ⟨.schemaViolation, none⟩
  return n

def toHccVersionString (s : String) : Except HashChainError String := do
  require (isSemver s = true) ⟨.schemaViolation, none⟩
  require (s ∈ hccSupportedVersions) ⟨.schemaViolation, none⟩
  return s

/-! ## Appending -/

variable (P : HccPorts)

/-- A payload object, with the identifier and the timestamp drawn while it is appended. -/
structure AppendCall where
  payload : List (String × Json)
  randomUUID : String
  timestamp : String

/-- Every JSON value is serialisable, so the guard before the printer passes. -/
def canonicalizeHashChainEntryToString (payload : List (String × Json)) : String :=
  Json.canonicalize P.numberFormat (.obj payload)

/-- A new entry continues the chain of the last one. -/
def checkContinuity (chainIdentity : ChainIdentity) (lastEntry : Option HashChainEntry) :
    Except HashChainError Unit :=
  match lastEntry with
  | none => pure ()
  | some last => do
      let lastJcs ← canonicalizeChainIdentity P last.chainIdentity
      let newJcs ← canonicalizeChainIdentity P chainIdentity
      require (lastJcs = newJcs) ⟨.schemaViolation, none⟩

def linkPreviousHash (lastEntry : Option HashChainEntry) : Except HashChainError String :=
  match lastEntry with
  | none => toPreviousHash genesisPreviousHash
  | some last => do
      require (last.canonicalPayloadHash ≠ "") ⟨.schemaViolation, none⟩
      toPreviousHash last.canonicalPayloadHash

def nextPosition (lastEntry : Option HashChainEntry) : Except HashChainError Int :=
  match lastEntry with
  | none => pure 0
  | some last => do
      require (-maxSafeInteger ≤ last.chainPosition + 1 ∧ last.chainPosition + 1 ≤ maxSafeInteger)
        ⟨.schemaViolation, none⟩
      return last.chainPosition + 1

def appendHashChainEntry (call : AppendCall) (chainIdentity : ChainIdentity)
    (lastEntry : Option HashChainEntry) : Except HashChainError HashChainEntry := do
  checkContinuity P chainIdentity lastEntry
  let canonicalPayload := canonicalizeHashChainEntryToString P call.payload
  let chainIdentityJcsRaw ← canonicalizeChainIdentity P chainIdentity
  let chainIdentityJcs ← toChainIdentityJcs chainIdentityJcsRaw
  let canonicalPayloadHashHex ←
    computeCanonicalPayloadHashHex P (concatPreimage canonicalPayload chainIdentityJcs)
  let canonicalPayloadHash ← toCanonicalPayloadHash canonicalPayloadHashHex
  let previousHash ← linkPreviousHash lastEntry
  let next ← nextPosition lastEntry
  let chainPosition ← toChainPosition next
  let entryId ← toHashChainEntryId call.randomUUID
  let hccVersion ← toHccVersionString hccVersionCurrent
  let entry : HashChainEntry :=
    { entryId, canonicalPayload, canonicalPayloadHash, previousHash, chainPosition, chainIdentity,
      timestamp := call.timestamp, hccVersion }
  require (validateHashChainEntrySchema P entry = true) ⟨.schemaViolation, none⟩
  return entry

/-- The entries of successive calls, each appended to the one before it. -/
def appendAll (chainIdentity : ChainIdentity) :
    Option HashChainEntry → List AppendCall → Except HashChainError (List HashChainEntry)
  | _, [] => pure []
  | lastEntry, call :: calls => do
      let entry ← appendHashChainEntry P call chainIdentity lastEntry
      let entries ← appendAll chainIdentity (some entry) calls
      return entry :: entries

/-! ## Texts that pass the factories -/

theorem toLower_of_isLowerHex {c : Char} (hc : isLowerHex c = true) : c.toLower = c := by
  simp only [isLowerHex, Bool.or_eq_true, Bool.and_eq_true, decide_eq_true_eq, Char.isDigit] at hc
  have hupper : ¬ (65 ≤ c.toNat ∧ c.toNat ≤ 90) := by
    rcases hc with ⟨-, hhi⟩ | ⟨hlo, -⟩
    · have : c.toNat ≤ 57 := hhi
      omega
    · omega
  delta Char.toLower
  rw [dif_neg]
  intro h
  exact hupper ⟨h.1, h.2⟩

theorem map_toLower_of_matchesEach {tests : List (Char → Bool)} {text : List Char}
    (hmatches : matchesEach tests text = true)
    (htests : ∀ test ∈ tests, ∀ c, test c = true → c.toLower = c) :
    text.map Char.toLower = text := by
  induction tests generalizing text with
  | nil =>
      cases text with
      | nil => rfl
      | cons c text => simp [matchesEach] at hmatches
  | cons test tests ih =>
      cases text with
      | nil => simp [matchesEach] at hmatches
      | cons c text =>
          simp only [matchesEach, Bool.and_eq_true] at hmatches
          rw [List.map_cons, htests test (by simp) c hmatches.1,
            ih hmatches.2 fun test htest => htests test (by simp [htest])]

/-- An identifier in lower case is kept as it is. -/
theorem toLowerCase_uuid {s : String} (huuid : isUuidV4 s = true) : toLowerCase s = s := by
  have hhex : ∀ n, ∀ test, n ≠ 0 ∧ test = isLowerHex → ∀ c, test c = true → c.toLower = c := by
    rintro n test ⟨-, rfl⟩ c hc
    exact toLower_of_isLowerHex hc
  have hdash : ∀ c, c = '-' → c.toLower = c := by rintro c rfl; rfl
  have hfour : ∀ c, c = '4' → c.toLower = c := by rintro c rfl; rfl
  rw [toLowerCase, map_toLower_of_matchesEach huuid, String.ofList_toList]
  simp only [List.forall_mem_append, List.forall_mem_cons, List.mem_replicate, List.not_mem_nil,
    false_imp_iff, implies_true, and_true, beq_iff_eq, List.contains_iff_mem]
  exact ⟨⟨⟨⟨⟨⟨⟨⟨hhex 8, hdash⟩, hhex 4⟩, hdash, hfour⟩, hhex 3⟩, hdash, by decide⟩, hhex 3⟩, hdash⟩,
    hhex 12⟩

theorem hexByte_lowerHex (b : UInt8) : ∀ c ∈ hexByte b, isLowerHex c = true := by
  have hdigit : ∀ n < 16, isLowerHex (hexChar n) = true := by decide
  have hb := b.toNat_lt
  intro c hc
  simp only [hexByte, List.mem_cons, List.not_mem_nil, or_false] at hc
  rcases hc with rfl | rfl
  · exact hdigit _ (by omega)
  · exact hdigit _ (by omega)

theorem isLowerHex_of_mem_toHex {bytes : List UInt8} {c : Char} (hc : c ∈ (toHex bytes).toList) :
    isLowerHex c = true := by
  rw [toHex, String.toList_ofList] at hc
  obtain ⟨b, -, hb⟩ := List.mem_flatMap.mp hc
  exact hexByte_lowerHex b c hb

/-- A digest is written in lower case. -/
theorem toLowerCase_toHex (bytes : List UInt8) : toLowerCase (toHex bytes) = toHex bytes := by
  have hmap : (toHex bytes).toList.map Char.toLower = (toHex bytes).toList := by
    refine (List.map_congr_left fun c hc => ?_).trans (List.map_id _)
    exact toLower_of_isLowerHex (isLowerHex_of_mem_toHex hc)
  rw [toLowerCase, hmap, String.ofList_toList]

theorem isSha256Hex_toHex {bytes : List UInt8} (hlength : bytes.length = 32) :
    isSha256Hex (toHex bytes) = true := by
  have hcount : (toHex bytes).toList.length = 64 := by
    rw [toHex, String.toList_ofList, length_flatMap_hexByte, hlength]
  have hall : (toHex bytes).toList.all isLowerHex = true :=
    List.all_eq_true.mpr fun c hc => isLowerHex_of_mem_toHex hc
  rw [isSha256Hex, hcount, hall]
  rfl

theorem genesisPreviousHash_eq : genesisPreviousHash = toHex (List.replicate 32 0) :=
  congrArg String.ofList (by decide)

theorem linkPreviousHash_none : linkPreviousHash none = .ok genesisPreviousHash := by
  have hsha := isSha256Hex_toHex (List.length_replicate (n := 32) (a := (0 : UInt8)))
  rw [linkPreviousHash, genesisPreviousHash_eq]
  simp only [toPreviousHash, toLowerCase_toHex, bind_eq_ok, exists_unit, require_eq_ok,
    pure_eq_ok, and_true]
  exact hsha

/-- An object text has two braces at least, the first of them in front. -/
theorem canonicalize_obj (F : NumberFormat) (members : List (String × Json)) :
    ∃ rest, rest ≠ [] ∧ (Json.canonicalize F (.obj members)).toList = '{' :: rest := by
  rw [Json.canonicalize, Json.sortKeys, Json.stringify, String.toList_ofList]
  cases (Json.sortKeysMembers members).insertionSort Json.memberLe with
  | nil => exact ⟨_, List.cons_ne_nil _ _, rfl⟩
  | cons member rest => exact ⟨_, by simp [Json.printString], rfl⟩

/-! ## The entry that is appended -/

/-- An identity that passes the guards of the writer and the schema. -/
structure ChainIdentity.Valid (identity : ChainIdentity) : Prop where
  schema : validateChainIdentitySchema P identity = true
  notSentinel : identity.chainNamespace ≠ "__NULL__"
  tenant : identity.tenantId ≠ some ""

/-- What the runtime gives to a call: a random identifier and a timestamp that the schema
accepts, and a canonical text that reads back as a value of the same canonical text. -/
structure AppendCall.Served (call : AppendCall) : Prop where
  uuid : isUuidV4 call.randomUUID = true
  uuidFormat : P.uuidFormat call.randomUUID = true
  dateTime : P.dateTimeFormat call.timestamp = true
  reparsed : ∃ value, P.parse (canonicalizeHashChainEntryToString P call.payload) = some value ∧
    Json.canonicalize P.numberFormat value = canonicalizeHashChainEntryToString P call.payload

def ChainIdentity.jcs (identity : ChainIdentity) : String :=
  Json.canonicalize P.numberFormat (chainIdentityObject identity)

def builtEntry (identity : ChainIdentity) (lastEntry : Option HashChainEntry)
    (call : AppendCall) : HashChainEntry where
  entryId := call.randomUUID
  canonicalPayload := canonicalizeHashChainEntryToString P call.payload
  canonicalPayloadHash := toHex (P.sha256
    (concatPreimage (canonicalizeHashChainEntryToString P call.payload) (identity.jcs P)))
  previousHash := (lastEntry.map HashChainEntry.canonicalPayloadHash).getD genesisPreviousHash
  chainPosition := (lastEntry.map fun last => last.chainPosition + 1).getD 0
  chainIdentity := identity
  timestamp := call.timestamp
  hccVersion := hccVersionCurrent

def built (identity : ChainIdentity) :
    Option HashChainEntry → List AppendCall → List HashChainEntry
  | _, [] => []
  | lastEntry, call :: calls =>
      let entry := builtEntry P identity lastEntry call
      entry :: built identity (some entry) calls

/-- The last entry of a chain that has room for some more. -/
def Continues (identity : ChainIdentity) (room : Nat) (lastEntry : Option HashChainEntry) : Prop :=
  ∀ last ∈ lastEntry, last.chainIdentity = identity ∧
    (∃ bytes, bytes.length = 32 ∧ last.canonicalPayloadHash = toHex bytes) ∧
    0 ≤ last.chainPosition ∧ last.chainPosition + room ≤ maxSafeInteger

section Building

variable {P} {identity : ChainIdentity} {lastEntry : Option HashChainEntry} {call : AppendCall}

theorem canonicalizeChainIdentity_valid (hvalid : identity.Valid P) :
    canonicalizeChainIdentity P identity = .ok (identity.jcs P) := by
  have hschema := hvalid.schema
  simp only [validateChainIdentitySchema, Bool.and_eq_true, Bool.not_eq_true'] at hschema
  obtain ⟨⟨hnamespace, -⟩, hclass⟩ := hschema
  simp only [canonicalizeChainIdentity, bind_eq_ok, exists_unit, require_eq_ok, pure_eq_ok]
  refine ⟨?_, hvalid.notSentinel, hvalid.tenant, ?_, rfl⟩
  · rintro hempty
    simp [hempty] at hnamespace
  · rintro hempty
    rw [hempty] at hclass
    exact absurd hclass (by decide)

theorem two_le_length_of_toList {s : String} {c : Char} {rest : List Char} (hrest : rest ≠ [])
    (htext : s.toList = c :: rest) : 2 ≤ s.toList.length ∧ 2 ≤ (codeUnits s).length := by
  obtain ⟨d, tail, rfl⟩ := List.exists_cons_of_ne_nil hrest
  have hunits : ∀ c : Char, 1 ≤ (charUnits c).length := by
    intro c
    unfold charUnits
    split <;> simp
  have hc := hunits c
  have hd := hunits d
  refine ⟨by simp [htext], ?_⟩
  simp only [codeUnits, htext, List.flatMap_cons, List.length_append]
  omega

theorem toChainIdentityJcs_jcs : toChainIdentityJcs (identity.jcs P) = .ok (identity.jcs P) := by
  obtain ⟨rest, hrest, htext⟩ : ∃ rest, rest ≠ [] ∧ (identity.jcs P).toList = '{' :: rest :=
    canonicalize_obj P.numberFormat _
  simp only [toChainIdentityJcs, bind_eq_ok, exists_unit, require_eq_ok, pure_eq_ok, and_true]
  refine ⟨(two_le_length_of_toList hrest htext).2, fun hnull => ?_⟩
  rw [hnull] at htext
  simp at htext

theorem checkContinuity_eq_ok {room : Nat} (hvalid : identity.Valid P)
    (hlast : Continues identity room lastEntry) :
    checkContinuity P identity lastEntry = .ok () := by
  cases lastEntry with
  | none => rfl
  | some last =>
      obtain ⟨hidentity, -⟩ := hlast last rfl
      simp only [checkContinuity, hidentity, bind_eq_ok, canonicalizeChainIdentity_valid hvalid,
        require_eq_ok]
      exact ⟨_, rfl, _, rfl, rfl⟩

theorem linkPreviousHash_eq_ok {room : Nat} (hlast : Continues identity room lastEntry) :
    linkPreviousHash lastEntry = .ok (builtEntry P identity lastEntry call).previousHash := by
  cases lastEntry with
  | none => exact linkPreviousHash_none
  | some last =>
      obtain ⟨-, ⟨bytes, hlength, hhash⟩, -⟩ := hlast last rfl
      have hsha := isSha256Hex_toHex hlength
      simp only [linkPreviousHash, toPreviousHash, hhash, toLowerCase_toHex, bind_eq_ok,
        exists_unit, require_eq_ok, pure_eq_ok, builtEntry, Option.map_some, Option.getD_some]
      refine ⟨fun hempty => ?_, hsha, trivial⟩
      rw [hempty] at hsha
      exact absurd hsha (by decide)

theorem nextPosition_eq_ok {room : Nat} (hlast : Continues identity (room + 1) lastEntry) :
    nextPosition lastEntry = .ok (builtEntry P identity lastEntry call).chainPosition ∧
      0 ≤ (builtEntry P identity lastEntry call).chainPosition ∧
      (builtEntry P identity lastEntry call).chainPosition ≤ maxSafeInteger := by
  cases lastEntry with
  | none => exact ⟨rfl, le_refl _, (by decide : (0 : Int) ≤ maxSafeInteger)⟩
  | some last =>
      obtain ⟨-, -, hnonneg, hroom⟩ := hlast last rfl
      push_cast at hroom
      have hmax : (0 : Int) ≤ maxSafeInteger := by decide
      simp only [nextPosition, bind_eq_ok, exists_unit, require_eq_ok, pure_eq_ok, builtEntry,
        Option.map_some, Option.getD_some]
      exact ⟨⟨by omega, trivial⟩, by omega, by omega⟩

theorem schema_builtEntry {room : Nat} (hsha : ∀ bytes, (P.sha256 bytes).length = 32)
    (hvalid : identity.Valid P) (hserved : call.Served P)
    (hlast : Continues identity (room + 1) lastEntry) :
    validateHashChainEntrySchema P (builtEntry P identity lastEntry call) = true := by
  have hprevious : isSha256Hex (builtEntry P identity lastEntry call).previousHash = true := by
    cases lastEntry with
    | none =>
        show isSha256Hex genesisPreviousHash = true
        rw [genesisPreviousHash_eq]
        exact isSha256Hex_toHex List.length_replicate
    | some last =>
        obtain ⟨-, ⟨bytes, hlength, hhash⟩, -⟩ := hlast last rfl
        show isSha256Hex last.canonicalPayloadHash = true
        rw [hhash]
        exact isSha256Hex_toHex hlength
  have hpayload : 2 ≤ (builtEntry P identity lastEntry call).canonicalPayload.toList.length := by
    obtain ⟨rest, hrest, htext⟩ := canonicalize_obj P.numberFormat call.payload
    exact (two_le_length_of_toList hrest htext).1
  have hhash : isSha256Hex (builtEntry P identity lastEntry call).canonicalPayloadHash = true :=
    isSha256Hex_toHex (hsha _)
  have hposition := (@nextPosition_eq_ok P identity lastEntry call room hlast).2.1
  simp only [validateHashChainEntrySchema, Bool.and_eq_true, decide_eq_true_eq, beq_iff_eq]
  exact ⟨⟨⟨⟨⟨⟨⟨⟨hserved.uuidFormat, hserved.uuid⟩, hpayload⟩, hhash⟩, hprevious⟩, hposition⟩,
    hvalid.schema⟩, hserved.dateTime⟩, rfl⟩

/-- One call appends the entry above. -/
theorem appendHashChainEntry_eq_ok {room : Nat} (hsha : ∀ bytes, (P.sha256 bytes).length = 32)
    (hvalid : identity.Valid P) (hserved : call.Served P)
    (hlast : Continues identity (room + 1) lastEntry) :
    appendHashChainEntry P call identity lastEntry =
      .ok (builtEntry P identity lastEntry call) := by
  have hposition := @nextPosition_eq_ok P identity lastEntry call room hlast
  have hhex : computeCanonicalPayloadHashHex P (concatPreimage
      (canonicalizeHashChainEntryToString P call.payload) (identity.jcs P)) =
        .ok (builtEntry P identity lastEntry call).canonicalPayloadHash := by
    simp only [computeCanonicalPayloadHashHex, bind_eq_ok, exists_unit, require_eq_ok, pure_eq_ok]
    exact ⟨hsha _, rfl⟩
  have hhash : toCanonicalPayloadHash (builtEntry P identity lastEntry call).canonicalPayloadHash =
      .ok (builtEntry P identity lastEntry call).canonicalPayloadHash := by
    simp only [toCanonicalPayloadHash, bind_eq_ok, exists_unit, require_eq_ok, pure_eq_ok, and_true]
    exact isSha256Hex_toHex (hsha _)
  have hnext : toChainPosition (builtEntry P identity lastEntry call).chainPosition =
      .ok (builtEntry P identity lastEntry call).chainPosition := by
    simp only [toChainPosition, bind_eq_ok, exists_unit, require_eq_ok, pure_eq_ok, and_true]
    exact hposition.2
  have hid : toHashChainEntryId call.randomUUID = .ok call.randomUUID := by
    simp only [toHashChainEntryId, bind_eq_ok, exists_unit, require_eq_ok, pure_eq_ok,
      toLowerCase_uuid hserved.uuid, and_true]
    exact hserved.uuid
  have hversion : toHccVersionString hccVersionCurrent = .ok hccVersionCurrent := by decide
  have hprevious := @linkPreviousHash_eq_ok P identity lastEntry call (room + 1) hlast
  simp only [appendHashChainEntry, bind_eq_ok, exists_unit, require_eq_ok, pure_eq_ok]
  exact ⟨checkContinuity_eq_ok hvalid hlast, _, canonicalizeChainIdentity_valid hvalid, _,
    toChainIdentityJcs_jcs, _, hhex, _, hhash, _, hprevious, _, hposition.1, _, hnext,
    _, hid, _, hversion, schema_builtEntry hsha hvalid hserved hlast, rfl⟩

theorem continues_builtEntry {room : Nat} (hsha : ∀ bytes, (P.sha256 bytes).length = 32)
    (hlast : Continues identity (room + 1) lastEntry) (hroom : (room : Int) ≤ maxSafeInteger) :
    Continues identity room (some (builtEntry P identity lastEntry call)) := by
  rintro last hmem
  obtain rfl := Option.mem_some.mp hmem
  refine ⟨rfl, ⟨_, hsha _, rfl⟩, (nextPosition_eq_ok hlast).2.1, ?_⟩
  cases lastEntry with
  | none => simpa [builtEntry] using hroom
  | some last =>
      obtain ⟨-, -, -, hbound⟩ := hlast last rfl
      push_cast at hbound
      simp only [builtEntry, Option.map_some, Option.getD_some]
      omega

/-- Successive calls append the entries above. -/
theorem appendAll_eq_ok (hsha : ∀ bytes, (P.sha256 bytes).length = 32)
    (hvalid : identity.Valid P) (calls : List AppendCall)
    (hserved : ∀ call ∈ calls, call.Served P)
    (hroom : (calls.length : Int) ≤ maxSafeInteger)
    (hlast : Continues identity calls.length lastEntry) :
    appendAll P identity lastEntry calls = .ok (built P identity lastEntry calls) := by
  induction calls generalizing lastEntry with
  | nil => rfl
  | cons call calls ih =>
      have hstep := appendHashChainEntry_eq_ok hsha hvalid (hserved call (by simp)) hlast
      have hnext : (calls.length : Int) ≤ maxSafeInteger := by
        rw [List.length_cons] at hroom
        push_cast at hroom
        omega
      have hrest := ih (fun call hcall => hserved call (by simp [hcall])) hnext
        (@continues_builtEntry P identity lastEntry call calls.length hsha hlast hnext)
      simp only [appendAll, bind_eq_ok, pure_eq_ok]
      exact ⟨_, hstep, _, hrest, rfl⟩

theorem length_built (calls : List AppendCall) :
    (built P identity lastEntry calls).length = calls.length := by
  induction calls generalizing lastEntry with
  | nil => rfl
  | cons call calls ih => simp only [built, List.length_cons, ih]

theorem map_canonicalPayload_built (calls : List AppendCall) :
    (built P identity lastEntry calls).map HashChainEntry.canonicalPayload =
      calls.map fun call => canonicalizeHashChainEntryToString P call.payload := by
  induction calls generalizing lastEntry with
  | nil => rfl
  | cons call calls ih =>
      simp only [built, List.map_cons, ih]
      rfl

/-! ## The verifier on what was appended -/

theorem verifyLinks_built (hsha : ∀ bytes, (P.sha256 bytes).length = 32)
    (hvalid : identity.Valid P) {last : HashChainEntry} (i : Nat) (calls : List AppendCall)
    (hserved : ∀ call ∈ calls, call.Served P)
    (hroom : (calls.length : Int) ≤ maxSafeInteger)
    (hlast : Continues identity calls.length (some last)) :
    verifyLinks P last i (built P identity (some last) calls) = .ok () := by
  induction calls generalizing last i with
  | nil => rfl
  | cons call calls ih =>
      have hnext : (calls.length : Int) ≤ maxSafeInteger := by
        rw [List.length_cons] at hroom
        push_cast at hroom
        omega
      simp only [built, verifyLinks, bind_eq_ok, exists_unit, require_eq_ok]
      exact ⟨schema_builtEntry hsha hvalid (hserved call (by simp)) hlast, rfl, rfl, rfl,
        ih _ (fun call hcall => hserved call (by simp [hcall])) hnext
          (continues_builtEntry hsha hlast hnext)⟩

theorem assertCanonicalPayloadHashConsistent_built (hsha : ∀ bytes, (P.sha256 bytes).length = 32)
    (hvalid : identity.Valid P) (hserved : call.Served P) (i : Nat) :
    assertCanonicalPayloadHashConsistent P (builtEntry P identity lastEntry call) i = .ok () := by
  obtain ⟨value, hparse, hcanonical⟩ := hserved.reparsed
  simp only [assertCanonicalPayloadHashConsistent, assertCanonicalPayloadIsCanonical,
    recomputeCanonicalPayloadHash, computeCanonicalPayloadHashHex, builtEntry, hparse, bind_eq_ok,
    exists_unit, pure_eq_ok]
  exact ⟨require_eq_ok.mpr hcanonical, _, ⟨_, canonicalizeChainIdentity_valid hvalid,
    require_eq_ok.mpr (hsha _), rfl⟩, require_eq_ok.mpr rfl⟩

theorem verifyPreimages_built (hsha : ∀ bytes, (P.sha256 bytes).length = 32)
    (hvalid : identity.Valid P) {firstJcs : Option String}
    (hfirst : ∀ first ∈ firstJcs, identity.jcs P = first) (i : Nat) (calls : List AppendCall)
    (hserved : ∀ call ∈ calls, call.Served P) :
    verifyPreimages P (some (identity.jcs P)) firstJcs i (built P identity lastEntry calls) =
      .ok () := by
  induction calls generalizing lastEntry firstJcs i with
  | nil => rfl
  | cons call calls ih =>
      simp only [built, verifyPreimages, bind_eq_ok, exists_unit, require_eq_ok]
      refine ⟨assertCanonicalPayloadHashConsistent_built hsha hvalid (hserved call (by simp)) i, _,
        canonicalizeChainIdentity_valid hvalid, hfirst,
        fun expected hexpected => Option.mem_some.mp hexpected, ?_⟩
      refine ih ?_ _ fun call hcall => hserved call (by simp [hcall])
      cases firstJcs with
      | none => exact fun first hmem => Option.mem_some.mp hmem
      | some first => simpa using hfirst first rfl

end Building

/-- Every supplied field holds of the list; the two fields about the last entry ask for one. -/
structure Checkpoint.Enforced (checkpoint : Checkpoint) (entries : List HashChainEntry) : Prop where
  nonEmpty : checkpoint.requireNonEmpty = some true → entries ≠ []
  count : ∀ expected ∈ checkpoint.expectedEntryCount, entries.length = expected
  lastPosition : ∀ expected ∈ checkpoint.expectedLastChainPosition,
    ∃ last ∈ entries.getLast?, last.chainPosition = expected
  lastHash : ∀ expected ∈ checkpoint.expectedLastCanonicalPayloadHash,
    ∃ last ∈ entries.getLast?, last.canonicalPayloadHash = expected

/-- A count field refuses the empty list, or no field is about a last entry. -/
def Checkpoint.CoversEmpty (checkpoint : Checkpoint) : Prop :=
  checkpoint.requireNonEmpty = some true ∨
    (∃ expected ∈ checkpoint.expectedEntryCount, expected ≠ 0) ∨
    (checkpoint.expectedLastChainPosition = none ∧
      checkpoint.expectedLastCanonicalPayloadHash = none)

section Agreement

variable {P} {identity : ChainIdentity}

theorem verifyTail_eq_ok {checkpoint : Checkpoint} {last : HashChainEntry} :
    verifyTail (some checkpoint) last = .ok () ↔
      (∀ expected ∈ checkpoint.expectedLastChainPosition, last.chainPosition = expected) ∧
        ∀ expected ∈ checkpoint.expectedLastCanonicalPayloadHash,
          last.canonicalPayloadHash = expected := by
  simp only [verifyTail, bind_eq_ok, exists_unit, require_eq_ok]

theorem verifyCount_eq_ok {checkpoint : Checkpoint} {count : Nat} :
    verifyCount (some checkpoint) count = .ok () ↔
      ¬ (checkpoint.requireNonEmpty = some true ∧ count = 0) ∧
        ∀ expected ∈ checkpoint.expectedEntryCount, count = expected := by
  simp only [verifyCount, bind_eq_ok, exists_unit, require_eq_ok]

/-- The checkpoint of a chain with a last entry, as the two checkpoint guards see it. -/
theorem enforced_cons_iff {checkpoint : Checkpoint} {genesis : HashChainEntry}
    {rest : List HashChainEntry} :
    checkpoint.Enforced (genesis :: rest) ↔
      (¬ (checkpoint.requireNonEmpty = some true ∧ (genesis :: rest).length = 0) ∧
        ∀ expected ∈ checkpoint.expectedEntryCount, (genesis :: rest).length = expected) ∧
      verifyTail (some checkpoint) ((genesis :: rest).getLast (List.cons_ne_nil genesis rest)) =
        .ok () := by
  have hlast := List.getLast?_eq_some_getLast (List.cons_ne_nil genesis rest)
  rw [verifyTail_eq_ok]
  constructor
  · intro h
    refine ⟨⟨fun hrequired => by simp at hrequired, h.count⟩, ?_, ?_⟩
    · intro expected hexpected
      obtain ⟨last, hmem, hposition⟩ := h.lastPosition expected hexpected
      obtain rfl := Option.some.inj (hlast.symm.trans hmem)
      exact hposition
    · intro expected hexpected
      obtain ⟨last, hmem, hhash⟩ := h.lastHash expected hexpected
      obtain rfl := Option.some.inj (hlast.symm.trans hmem)
      exact hhash
  · rintro ⟨⟨-, hcount⟩, hposition, hhash⟩
    exact ⟨fun _ => List.cons_ne_nil genesis rest, hcount,
      fun expected hexpected => ⟨_, hlast, hposition expected hexpected⟩,
      fun expected hexpected => ⟨_, hlast, hhash expected hexpected⟩⟩

theorem verifyHashChain_nil {expected : Option ChainIdentity} {checkpoint : Checkpoint} :
    verifyHashChain P [] ⟨expected, some checkpoint⟩ = .ok () ↔
      checkpoint.requireNonEmpty ≠ some true ∧
        ∀ expected ∈ checkpoint.expectedEntryCount, expected = 0 := by
  simp only [verifyHashChain, bind_eq_ok, exists_unit, pure_eq_ok, verifyCount_eq_ok,
    List.length_nil, and_true, ne_eq]
  exact and_congr_right fun _ => forall₂_congr fun expected _ => eq_comm

/-- The empty list satisfies a checkpoint that says nothing about a last entry. -/
theorem Checkpoint.enforced_nil {checkpoint : Checkpoint} :
    checkpoint.Enforced [] ↔ checkpoint.requireNonEmpty ≠ some true ∧
      (∀ expected ∈ checkpoint.expectedEntryCount, expected = 0) ∧
      checkpoint.expectedLastChainPosition = none ∧
      checkpoint.expectedLastCanonicalPayloadHash = none := by
  constructor
  · intro h
    refine ⟨fun hrequired => h.nonEmpty hrequired rfl, fun expected hexpected =>
      (h.count expected hexpected).symm, ?_, ?_⟩
    · refine Option.eq_none_iff_forall_not_mem.mpr fun expected hexpected => ?_
      obtain ⟨last, hlast, -⟩ := h.lastPosition expected hexpected
      cases hlast
    · refine Option.eq_none_iff_forall_not_mem.mpr fun expected hexpected => ?_
      obtain ⟨last, hlast, -⟩ := h.lastHash expected hexpected
      cases hlast
  · rintro ⟨hrequired, hcount, hposition, hhash⟩
    refine ⟨fun h => absurd h hrequired, fun expected hexpected =>
      (hcount expected hexpected).symm, ?_, ?_⟩
    · simp [hposition]
    · simp [hhash]

/-- The members of the canonical object of an identity. -/
def identityMembers (identity : ChainIdentity) : List (String × Json) :=
  ([("chainNamespace", .str identity.chainNamespace)] : List (String × Json)) ++
    (identity.tenantId.toList.map fun tenantId => ("tenantId", Json.str tenantId)) ++
    (identity.auditClass.toList.map fun auditClass => ("auditClass", Json.str auditClass))

theorem identityMembers_names (identity : ChainIdentity) :
    ((identityMembers identity).map Prod.fst).Nodup := by
  unfold identityMembers
  cases identity.tenantId <;> cases identity.auditClass <;> simp

theorem lookup_identityMembers (identity : ChainIdentity) :
    OrderedMap.lookupList "chainNamespace" (identityMembers identity) =
        some (.str identity.chainNamespace) ∧
      OrderedMap.lookupList "tenantId" (identityMembers identity) =
        identity.tenantId.map Json.str ∧
      OrderedMap.lookupList "auditClass" (identityMembers identity) =
        identity.auditClass.map Json.str := by
  unfold identityMembers
  cases identity.tenantId <;> cases identity.auditClass <;> simp [OrderedMap.lookupList]

/-- An identity is read back from its canonical text. -/
theorem jcs_injective {other : ChainIdentity} (h : identity.jcs P = other.jcs P) :
    identity = other := by
  have hlookup := Json.lookup_of_sortKeys_eq (identityMembers_names identity)
    (identityMembers_names other) ((Json.canonicalize_eq_iff P.numberFormat).mp h)
  have hsorted : ∀ field : Option String,
      (field.map Json.str).map Json.sortKeys = field.map Json.str := by
    rintro (_ | value) <;> rfl
  have hfield : Function.Injective (Option.map Json.str) :=
    Option.map_injective fun _ _ heq => Json.str.inj heq
  obtain ⟨hnamespace, htenant, hclass⟩ := lookup_identityMembers identity
  obtain ⟨hnamespace', htenant', hclass'⟩ := lookup_identityMembers other
  have h₁ := hlookup "chainNamespace"
  have h₂ := hlookup "tenantId"
  have h₃ := hlookup "auditClass"
  rw [hnamespace, hnamespace'] at h₁
  rw [htenant, htenant', hsorted, hsorted] at h₂
  rw [hclass, hclass', hsorted, hsorted] at h₃
  cases identity
  cases other
  simp only [ChainIdentity.mk.injEq]
  exact ⟨Json.str.inj (Option.some.inj h₁), hfield h₂, hfield h₃⟩

end Agreement

namespace Relink

def appended (amount : String) : AppendCall :=
  ⟨[("amount", .str amount)], "00000000-0000-4000-8000-000000000000", "2026-01-01T00:00:00.000Z"⟩

theorem length_sha256 (bytes : List UInt8) : (ports.sha256 bytes).length = 32 := by
  simp only [ports]
  split_ifs <;> rfl

theorem policyIdentity_valid : policyIdentity.Valid ports := by
  constructor <;> decide

theorem appended_served :
    ∀ call ∈ [appended "10", appended "20"], call.Served ports := by
  have hserved : ∀ amount ∈ ["10", "20"], (appended amount).Served ports := by
    intro amount hamount
    refine ⟨by decide +kernel +revert, by decide +kernel +revert, by rfl,
      .obj [("amount", .str amount)], ?_⟩
    decide +kernel +revert
  rintro call hcall
  simp only [List.mem_cons, List.not_mem_nil, or_false] at hcall
  rcases hcall with rfl | rfl
  · exact hserved "10" (by simp)
  · exact hserved "20" (by simp)

end Relink

end Coivitas.Crypto
