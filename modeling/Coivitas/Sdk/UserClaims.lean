import Coivitas.Foundation.JsText
import Coivitas.Foundation.Json
import Coivitas.Foundation.Outcome

/-! # The claims of a single sign-on

The model of the claims parsers in `packages/sdk/src/sso`. A verified SAML profile or id token is
brought into one shape, and a body that claims to have this shape already is checked. A profile
value that is no JSON counts as an object: the parsers only look whether it is a text. Optional
token fields and the time of verification are not modelled.
-/

namespace Coivitas.Sdk

open Foundation

namespace Sso

/-! ## Texts and fields -/

def trim (text : String) : String := String.ofList (trimJs text.toList)

/-- The characters that fit into `n` code units. -/
def takeUnits (n : Nat) : List Char → List Char
  | [] => []
  | c :: rest =>
      if (charUnits c).length ≤ n then c :: takeUnits (n - (charUnits c).length) rest else []

/-- `text.slice(0, n)`; of a pair of surrogates that is cut in two, no half is kept. -/
def slice (n : Nat) (text : String) : String := String.ofList (takeUnits n text.toList)

abbrev Members := List (String × Json)

/-- The members of what `typeof` calls an object; an array has none of the names asked for. -/
def membersOf : Json → Option Members
  | .obj members => some members
  | .arr _ => some []
  | _ => none

/-- `value?.[name]`, where `null` is the same as an absent value. -/
def field (members : Members) (name : String) : Option Json :=
  match OrderedMap.lookupList name members with
  | some .null => none
  | value => value

def text? : Option Json → Option String
  | some (.str text) => some text
  | _ => none

/-- `typeof value !== 'string' || value.trim() === ''` is refused. -/
def nonBlank? (value : Option Json) : Option String :=
  (text? value).filter fun text => trim text ≠ ""

theorem nonBlank?_eq_some {value : Option Json} {text : String} :
    nonBlank? value = some text ↔ value = some (.str text) ∧ trim text ≠ "" := by
  rw [nonBlank?, Option.filter_eq_some_iff, decide_eq_true_eq, and_congr_left_iff]
  intro _
  cases value with
  | none => simp [text?]
  | some value => cases value <;> simp [text?]

/-! ## Claims -/

inductive SamlErrorCode where
  | claimsInvalid
  | nameIdFormatUnsupported
  deriving DecidableEq, Repr

/-- What a parser throws. -/
inductive ClaimsError where
  | saml (message : String) (code : SamlErrorCode)
  | oidc (message : String)
  deriving DecidableEq, Repr

inductive SamlNameIdFormat where
  | emailAddress
  | persistent
  | transient
  deriving DecidableEq, Repr

def SamlNameIdFormat.ofText (text : String) : Option SamlNameIdFormat :=
  if text = "urn:oasis:names:tc:SAML:1.1:nameid-format:emailAddress" then some .emailAddress
  else if text = "urn:oasis:names:tc:SAML:2.0:nameid-format:persistent" then some .persistent
  else if text = "urn:oasis:names:tc:SAML:2.0:nameid-format:transient" then some .transient
  else none

/-- The attributes of an assertion, in the order they came. -/
abbrev Attributes := List (String × String)

structure SamlUserClaims where
  nameId : String
  nameIdFormat : SamlNameIdFormat
  sessionIndex : Option String
  idpEntityId : String
  attributes : Attributes
  deriving DecidableEq, Repr

structure OidcUserClaims where
  sub : String
  issuer : String
  audience : String
  idTokenExpiresAt : ℚ
  attributes : Attributes
  deriving DecidableEq

def FORBIDDEN_ATTRIBUTE_NAMES : List String := ["__proto__", "constructor", "prototype"]

def RESERVED_CLAIM_KEYS : List String :=
  ["sub", "iss", "aud", "exp", "iat", "auth_time", "nonce", "acr", "amr", "azp", "nbf", "jti",
    "at_hash", "c_hash", "s_hash"]

/-- The texts among the members. A forbidden name is refused: in a raw profile only where it
names a text, elsewhere always. -/
def collectAttributes (skips : String → Bool) (onlyTexts : Bool) (refuse : String → ClaimsError) :
    Members → Except ClaimsError Attributes
  | [] => .ok []
  | (key, value) :: rest => do
      let text := text? (some value)
      require (¬ (key ∈ FORBIDDEN_ATTRIBUTE_NAMES ∧ (onlyTexts = false ∨ text.isSome = true)))
        (refuse key)
      let attributes ← collectAttributes skips onlyTexts refuse rest
      match text with
      | some text => return if skips key then attributes else (key, text) :: attributes
      | none => return attributes

def parseSamlNameIdFormat (raw : Option String) : Except ClaimsError SamlNameIdFormat :=
  match raw.filter fun text => trim text ≠ "" with
  | none => .error (.saml "SAML NameID format is missing." .nameIdFormatUnsupported)
  | some text =>
      match SamlNameIdFormat.ofText (trim text) with
      | some format => .ok format
      | none => .error (.saml ("Unsupported SAML NameID format: \"" ++ slice 128 text ++
          "\". Supported: emailAddress, persistent, transient.") .nameIdFormatUnsupported)

/-- A text that must be there. -/
def nonBlank (value : Option Json) (error : ClaimsError) : Except ClaimsError String :=
  match nonBlank? value with
  | some text => .ok text
  | none => .error error

@[simp] theorem nonBlank_eq_ok {value : Option Json} {error : ClaimsError} {text : String} :
    nonBlank value error = .ok text ↔ value = some (.str text) ∧ trim text ≠ "" := by
  rw [← nonBlank?_eq_some]
  unfold nonBlank
  split <;> simp_all

/-- A finite number that must be there. -/
def finite (value : Option Json) (error : ClaimsError) : Except ClaimsError ℚ :=
  match value with
  | some (.num number) => .ok number
  | _ => .error error

/-- What `typeof` calls an object must be there. -/
def object (value : Json) (error : ClaimsError) : Except ClaimsError Members :=
  match membersOf value with
  | some members => .ok members
  | none => .error error

/-! ## Raw profiles -/

def samlProfileKeys : List String :=
  ["nameID", "nameId", "nameIDFormat", "nameIdFormat", "sessionIndex", "issuer"]

/-- The profile's own `issuer` is left out: the entity id is the caller's. -/
def parseSamlClaims (profile : Members) (idpEntityId : String) :
    Except ClaimsError SamlUserClaims := do
  let nameId ← nonBlank (field profile "nameID" <|> field profile "nameId" <|>
      field profile "email")
    (.saml "SAML assertion missing valid NameID." .claimsInvalid)
  let nameIdFormat ← parseSamlNameIdFormat
    (text? (field profile "nameIDFormat" <|> field profile "nameIdFormat"))
  let attributes ← collectAttributes (· ∈ samlProfileKeys) true
    (fun key => .saml ("SAML claims contain forbidden attribute name: \"" ++ key ++
      "\". Prototype pollution attack detected. Assertion rejected (fail-closed).") .claimsInvalid)
    profile
  return ⟨trim nameId, nameIdFormat, text? (field profile "sessionIndex"), idpEntityId, attributes⟩

def parseOidcClaims (claims : Members) (issuer audience : String) :
    Except ClaimsError OidcUserClaims := do
  let sub ← nonBlank (field claims "sub") (.oidc "OIDC id_token missing valid \"sub\" claim.")
  let exp ← finite (field claims "exp") (.oidc "OIDC id_token missing valid \"exp\" claim.")
  let attributes ← collectAttributes (· ∈ RESERVED_CLAIM_KEYS) false
    (fun key => .oidc ("OIDC claims contain forbidden attribute name: \"" ++ key ++
      "\". Prototype pollution attack detected. Authentication rejected (fail-closed)."))
    claims
  return ⟨trim sub, issuer, audience, exp, attributes⟩

/-! ## Bodies in the shape of claims -/

/-- The attributes of a body: an object, and no array. -/
def bodyAttributes (raw : Members) (missing : ClaimsError) (refuse : String → ClaimsError) :
    Except ClaimsError Attributes :=
  match field raw "attributes" with
  | some (.obj members) => collectAttributes (fun _ => false) false refuse members
  | _ => .error missing

def parseSamlUserClaims (input : Json) : Except ClaimsError SamlUserClaims := do
  let raw ← object input (.saml "SamlUserClaims: input must be a non-null object." .claimsInvalid)
  let nameId ← nonBlank (field raw "nameId")
    (.saml "SamlUserClaims.nameId is required and must be a non-empty string." .claimsInvalid)
  let nameIdFormat ← parseSamlNameIdFormat (text? (field raw "nameIdFormat"))
  let idpEntityId ← nonBlank (field raw "idpEntityId")
    (.saml "SamlUserClaims.idpEntityId is required and must be a non-empty string." .claimsInvalid)
  let _ ← nonBlank (field raw "verifiedAt")
    (.saml "SamlUserClaims.verifiedAt is required and must be a non-empty ISO 8601 string."
      .claimsInvalid)
  let attributes ← bodyAttributes raw
    (.saml "SamlUserClaims.attributes is required and must be a non-null object." .claimsInvalid)
    fun key => .saml ("SamlUserClaims.attributes contains forbidden key \"" ++ key ++ "\".")
      .claimsInvalid
  return ⟨trim nameId, nameIdFormat, text? (field raw "sessionIndex"), trim idpEntityId, attributes⟩

def parseOidcUserClaims (input : Json) : Except ClaimsError OidcUserClaims := do
  let raw ← object input (.oidc "OidcUserClaims: input must be a non-null object.")
  let sub ← nonBlank (field raw "sub")
    (.oidc "OidcUserClaims.sub is required and must be a non-empty string.")
  let issuer ← nonBlank (field raw "issuer")
    (.oidc "OidcUserClaims.issuer is required and must be a non-empty string.")
  let audience ← nonBlank (field raw "audience")
    (.oidc "OidcUserClaims.audience is required and must be a non-empty string.")
  let idTokenExpiresAt ← finite (field raw "idTokenExpiresAt")
    (.oidc "OidcUserClaims.idTokenExpiresAt is required and must be a finite number.")
  let _ ← nonBlank (field raw "verifiedAt")
    (.oidc "OidcUserClaims.verifiedAt is required and must be a non-empty ISO 8601 string.")
  let attributes ← bodyAttributes raw
    (.oidc "OidcUserClaims.attributes is required and must be a non-null object.")
    fun key => .oidc ("OidcUserClaims.attributes contains forbidden key \"" ++ key ++ "\".")
  return ⟨trim sub, trim issuer, trim audience, idTokenExpiresAt, attributes⟩

/-! ## What is accepted -/

theorem parseSamlClaims_eq_ok {profile : Members} {idpEntityId : String} {claims : SamlUserClaims}
    (h : parseSamlClaims profile idpEntityId = .ok claims) : claims.idpEntityId = idpEntityId := by
  simp only [parseSamlClaims, bind_eq_ok, pure_eq_ok] at h
  obtain ⟨nameId, -, format, -, attributes, -, rfl⟩ := h
  rfl

theorem parseOidcClaims_eq_ok {members : Members} {issuer audience : String}
    {claims : OidcUserClaims} (h : parseOidcClaims members issuer audience = .ok claims) :
    claims.issuer = issuer := by
  simp only [parseOidcClaims, bind_eq_ok, pure_eq_ok] at h
  obtain ⟨sub, -, exp, -, attributes, -, rfl⟩ := h
  rfl

end Sso

end Coivitas.Sdk
