import Coivitas.Foundation.Calendar
import Coivitas.Types.Authorization

/-! # The capability token schema

What JSON Schema validation of a capability token checks beyond the shape that
the types already fix: text patterns, lengths, numeric bounds and item counts.
-/

namespace Coivitas.Types

open Foundation

/-! ## Text patterns -/

/-- The character class `[a-zA-Z0-9._%-]`. -/
def isDidChar (c : Char) : Bool :=
  c.isAlphanum || c == '.' || c == '_' || c == '%' || c == '-'

/-- One or more segments separated by colons. -/
def isDidSegments (segments : List (List Char)) : Bool :=
  !segments.isEmpty && segments.all fun segment => !segment.isEmpty && segment.all isDidChar

/-- `^did:[a-z][a-z0-9-]*:segment(:segment)*$` -/
def isDid (text : String) : Bool :=
  match text.toList.splitOn ':' with
  | ['d', 'i', 'd'] :: (initial :: method) :: segments =>
      initial.isLower && method.all (fun c => c.isLower || c.isDigit || c == '-') &&
        isDidSegments segments
  | _ => false

/-- `^did:key:segment(:segment)*$` -/
def isDidKeyText (text : List Char) : Bool :=
  match text.splitOn ':' with
  | ['d', 'i', 'd'] :: ['k', 'e', 'y'] :: segments => isDidSegments segments
  | _ => false

/-- `^did:agent:[a-f0-9]{40}$` -/
def isDidAgentText (text : List Char) : Bool :=
  match text with
  | 'd' :: 'i' :: 'd' :: ':' :: 'a' :: 'g' :: 'e' :: 'n' :: 't' :: ':' :: digest =>
      digest.length == 40 && digest.all isLowerHex
  | _ => false

/-- A did:key or did:agent text followed by `#key-1`. -/
def isVerificationMethod (text : String) : Bool :=
  match text.toList.splitOn '#' with
  | [did, ['k', 'e', 'y', '-', '1']] => isDidKeyText did || isDidAgentText did
  | _ => false

def isBase64UrlChar (c : Char) : Bool := c.isAlphanum || c == '_' || c == '-'

/-- `^[0-9a-f]{128}$` or `^[A-Za-z0-9_-]{86}$` -/
def isSignature (text : String) : Bool :=
  text.toList.length == 128 && text.toList.all isLowerHex ||
    text.toList.length == 86 && text.toList.all isBase64UrlChar

/-- A UUID of version 1 to 5. -/
def isUuid (text : List Char) : Bool :=
  let hex := List.replicate
  let dash : List (Char → Bool) := [(· == '-')]
  matchesEach (hex 8 isLowerHex ++ dash ++ hex 4 isLowerHex ++ dash ++
    [fun c => 49 ≤ c.toNat && c.toNat ≤ 53] ++ hex 3 isLowerHex ++ dash ++
    [fun c => c == '8' || c == '9' || c == 'a' || c == 'b'] ++ hex 3 isLowerHex ++ dash ++
    hex 12 isLowerHex) text

/-- `^urn:cap:` followed by a UUID. -/
def isCapabilityTokenId (text : String) : Bool :=
  match text.toList with
  | 'u' :: 'r' :: 'n' :: ':' :: 'c' :: 'a' :: 'p' :: ':' :: uuid => isUuid uuid
  | _ => false

def isSpecVersion (text : String) : Bool := text == "0.1.0" || text == "0.2.0" || text == "0.3.0"

/-- `^[0-9]+\.[0-9]+\.[0-9]+$` -/
def isDcVersion (text : String) : Bool :=
  match text.toList.splitOn '.' with
  | [major, minor, patch] =>
      [major, minor, patch].all fun part => !part.isEmpty && part.all Char.isDigit
  | _ => false

/-- The characters that `.` does not match. -/
def isLineTerminator (c : Char) : Bool :=
  c.toNat == 10 || c.toNat == 13 || c.toNat == 0x2028 || c.toNat == 0x2029

def idPlaceholder : List Char := ['{', 'i', 'd', '}']

/-- The pattern of revocation URLs: `https://`, some text, the `id` placeholder
in braces, and more text, on one line. -/
def isRevocationUrl (text : String) : Bool :=
  match text.toList with
  | 'h' :: 't' :: 't' :: 'p' :: 's' :: ':' :: '/' :: '/' :: _ :: rest =>
      decide (idPlaceholder <:+: rest) && (text.toList.drop 8).all fun c => !isLineTerminator c
  | _ => false

/-! ## Records -/

def businessActionVocabulary : List String := ["INQUIRY", "QUOTE", "CONFIRM", "PUBLISH", "RECORD"]

def isCurrency (text : String) : Bool := text.toList.length == 3

/-- `^([01][0-9]|2[0-3]):[0-5][0-9]$` -/
def isHHMM (t : String) : Bool :=
  match t.toList with
  | [h, h', colon, m, m'] =>
      ((h == '0' || h == '1') && h'.isDigit || h == '2' && (h' == '0' || h' == '1' || h' == '2' ||
        h' == '3')) && colon == ':' && (m.isDigit && m.toNat ≤ 53) && m'.isDigit
  | _ => false

def isWeekdayNumber (day : ℚ) : Bool := ([1, 2, 3, 4, 5, 6, 7] : List ℚ).contains day

def RecurringWindow.isValid (w : RecurringWindow) : Bool :=
  isHHMM w.startTime && isHHMM w.endTime && w.timezone != "" &&
    w.daysOfWeek.all fun days =>
      !days.isEmpty && decide days.Nodup && days.all isWeekdayNumber

def MeterFieldRef.isValid (m : MeterFieldRef) : Bool :=
  m.metric != "" && m.precision.all fun precision => precision.den == 1 && decide (0 ≤ precision)

def Scope.isValid : Scope → Bool
  | .allowlist field values =>
      field != "" && !values.isEmpty && decide (values.length ≤ 100) && values.all (· != "")
  | .numericLimit field max currency =>
      field != "" && decide (0 ≤ max) && currency.all isCurrency
  | .temporalScope notBefore notAfter recurringWindow =>
      Calendar.isIsoText notBefore && Calendar.isIsoText notAfter &&
        recurringWindow.all RecurringWindow.isValid
  | .cumulativeLimit meterField max _ currency =>
      meterField.isValid && decide (0 ≤ max) && currency.all isCurrency

def Capability.isValid (c : Capability) : Bool :=
  businessActionVocabulary.contains c.action && c.scope.isValid

def capabilitiesValid (capabilities : List Capability) : Bool :=
  !capabilities.isEmpty && decide (capabilities.length ≤ 20) && capabilities.all Capability.isValid

def TokenProof.isValid (p : TokenProof) : Bool :=
  Calendar.isIsoText p.created && isVerificationMethod p.verificationMethod && isSignature p.value

def DelegationProof.isValid (p : DelegationProof) : Bool :=
  p.parentTokenId != "" && isDid p.delegatorDid && isDidAgentText p.delegateeDid.toList &&
    capabilitiesValid p.parentCapabilities && Calendar.isIsoText p.parentExpiresAt &&
    capabilitiesValid p.attenuatedCapabilities && p.proof.isValid && p.dcVersion.all isDcVersion

/-- Validation of a token against the `capabilityToken` schema. -/
def CapabilityToken.isValid (t : CapabilityToken) : Bool :=
  isCapabilityTokenId t.id && isSpecVersion t.specVersion && isDidKeyText t.issuerDid.toList &&
    isDidKeyText t.principalDid.toList && isDidAgentText t.issuedTo.toList &&
    Calendar.isIsoText t.issuedAt && Calendar.isIsoText t.expiresAt &&
    capabilitiesValid t.capabilities && isRevocationUrl t.revocationUrl && t.proof.isValid &&
    t.delegationChain.all fun chain =>
      decide (chain.length ≤ 5) && chain.all DelegationProof.isValid

end Coivitas.Types
