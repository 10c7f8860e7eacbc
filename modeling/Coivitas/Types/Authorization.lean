import Coivitas.Foundation.Json
import Mathlib.Data.List.Perm.Basic

/-! # Scopes, capabilities and capability tokens

The authorization records and their JSON form. Canonical JSON forgets the
order of object keys, so the only key order that a check can observe is that of
a meter field, which the issuer compares by its plain text.
-/

namespace Coivitas.Types

open Foundation

/-- Recurring daily window; `startTime > endTime` crosses midnight. -/
structure RecurringWindow where
  startTime : String
  endTime : String
  daysOfWeek : Option (List ℚ)
  timezone : String
  deriving DecidableEq

inductive MeterFieldRefSource where
  | actionRecord
  | externalWitness
  | consensusMeter
  deriving DecidableEq

inductive MeterKey where
  | source
  | metric
  | unit
  | precision
  deriving DecidableEq

def MeterKey.all : List MeterKey := [.metric, .precision, .source, .unit]

/-- Metering field reference, with the order in which its keys are enumerated. -/
structure MeterFieldRef where
  source : MeterFieldRefSource
  metric : String
  unit : Option String
  precision : Option ℚ
  keyOrder : List MeterKey
  keyOrder_perm : keyOrder.Perm MeterKey.all
  deriving DecidableEq

inductive Window where
  | hour
  | day
  | week
  | month
  deriving DecidableEq

inductive Scope where
  | allowlist (field : String) (values : List String)
  | numericLimit (field : String) (max : ℚ) (currency : Option String)
  | temporalScope (notBefore notAfter : String) (recurringWindow : Option RecurringWindow)
  | cumulativeLimit (meterField : MeterFieldRef) (max : ℚ) (window : Window)
      (currency : Option String)
  deriving DecidableEq

structure Capability where
  action : String
  scope : Scope
  deriving DecidableEq

/-- Signature block; its `type` is always `Ed25519Signature2026`. -/
structure TokenProof where
  created : String
  verificationMethod : String
  value : String
  deriving DecidableEq

/-- One link of a delegation chain. -/
structure DelegationProof where
  parentTokenId : String
  delegatorDid : String
  delegateeDid : String
  parentCapabilities : List Capability
  parentExpiresAt : String
  attenuatedCapabilities : List Capability
  proof : TokenProof
  dcVersion : Option String
  deriving DecidableEq

structure CapabilityToken where
  id : String
  specVersion : String
  issuerDid : String
  principalDid : String
  issuedTo : String
  issuedAt : String
  expiresAt : String
  capabilities : List Capability
  revocationUrl : String
  proof : TokenProof
  delegationChain : Option (List DelegationProof)
  deriving DecidableEq

def maxDelegationDepth : Nat := 5

/-! ## JSON form -/

/-- A member that is left out when its value is undefined. -/
def optionalMember (name : String) (value : Option Json) : List (String × Json) :=
  (value.map fun v => (name, v)).toList

def RecurringWindow.toJson (w : RecurringWindow) : Json :=
  .obj ([("startTime", .str w.startTime), ("endTime", .str w.endTime)] ++
    optionalMember "daysOfWeek" (w.daysOfWeek.map fun days => .arr (days.map .num)) ++
    [("timezone", .str w.timezone)])

def MeterFieldRefSource.text : MeterFieldRefSource → String
  | .actionRecord => "action_record"
  | .externalWitness => "external_witness"
  | .consensusMeter => "consensus_meter"

def MeterFieldRef.member (m : MeterFieldRef) : MeterKey → Option (String × Json)
  | .source => some ("source", .str m.source.text)
  | .metric => some ("metric", .str m.metric)
  | .unit => m.unit.map fun unit => ("unit", .str unit)
  | .precision => m.precision.map fun precision => ("precision", .num precision)

def MeterFieldRef.toJson (m : MeterFieldRef) : Json := .obj (m.keyOrder.filterMap m.member)

def Window.text : Window → String
  | .hour => "hour"
  | .day => "day"
  | .week => "week"
  | .month => "month"

def Scope.type : Scope → String
  | .allowlist .. => "allowlist"
  | .numericLimit .. => "numeric_limit"
  | .temporalScope .. => "temporal_scope"
  | .cumulativeLimit .. => "cumulative_limit"

def Scope.members : Scope → List (String × Json)
  | .allowlist field values => [("field", .str field), ("values", .arr (values.map .str))]
  | .numericLimit field max currency =>
      [("field", .str field), ("max", .num max)] ++ optionalMember "currency" (currency.map .str)
  | .temporalScope notBefore notAfter recurringWindow =>
      [("notBefore", .str notBefore), ("notAfter", .str notAfter)] ++
        optionalMember "recurringWindow" (recurringWindow.map RecurringWindow.toJson)
  | .cumulativeLimit meterField max window currency =>
      [("meterField", meterField.toJson), ("max", .num max), ("window", .str window.text)] ++
        optionalMember "currency" (currency.map .str)

def Scope.toJson (s : Scope) : Json := .obj (("type", .str s.type) :: s.members)

def Capability.toJson (c : Capability) : Json :=
  .obj [("action", .str c.action), ("scope", c.scope.toJson)]

def capabilitiesJson (capabilities : List Capability) : Json :=
  .arr (capabilities.map Capability.toJson)

def TokenProof.toJson (p : TokenProof) : Json :=
  .obj [("type", .str "Ed25519Signature2026"), ("created", .str p.created),
    ("verificationMethod", .str p.verificationMethod), ("value", .str p.value)]

/-- The members of a delegation proof that its delegator signs. -/
def DelegationProof.signedMembers (p : DelegationProof) : List (String × Json) :=
  [("parentTokenId", .str p.parentTokenId), ("delegatorDid", .str p.delegatorDid),
    ("delegateeDid", .str p.delegateeDid),
    ("parentCapabilities", capabilitiesJson p.parentCapabilities),
    ("parentExpiresAt", .str p.parentExpiresAt),
    ("attenuatedCapabilities", capabilitiesJson p.attenuatedCapabilities)] ++
    optionalMember "dcVersion" (p.dcVersion.map .str)

def DelegationProof.toJson (p : DelegationProof) : Json :=
  .obj (p.signedMembers ++ [("proof", p.proof.toJson)])

end Coivitas.Types
