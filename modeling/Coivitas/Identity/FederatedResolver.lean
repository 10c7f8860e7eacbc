import Coivitas.Foundation.OrderedMap
import Coivitas.Foundation.Run
import Coivitas.Identity.IdentityDocument
import Coivitas.Policy.CumulativeTracker

/-! # The federated resolver

The model of `packages/identity/src/federated-resolver.ts`: which of the bodies
that the nodes answer with are accepted, how one of them is chosen, and how the
choice passes the version watermark into the cache. A call is cut at its awaits,
so that calls and invalidations interleave; the nodes that are asked and the order
in which their answers arrive are inputs. Alerts and metrics are left out.
-/

namespace Coivitas.Identity.Federation

open Foundation Coivitas.Types Policy

/-! ## JSON values as JavaScript sees them -/

/-- What the resolver takes from the crypto package and the runtime. -/
structure ResolverPorts extends IdentityPorts where
  /-- `Number(text)`. -/
  numberOfText : String → JsNumber
  /-- `new Date(text).getTime()`, `none` for `NaN`. -/
  getTime : String → Option Int

/-- `value[name]` of a JSON value. -/
def field (name : String) : Json → Option Json
  | .obj members => (members.find? fun member => member.1 = name).map Prod.snd
  | _ => none

def textField (name : String) (value : Json) : Option String :=
  match field name value with
  | some (.str text) => some text
  | _ => none

def isTruthy : Option Json → Bool
  | none => false
  | some .null => false
  | some (.bool value) => value
  | some (.num value) => value ≠ 0
  | some (.str text) => text ≠ ""
  | some _ => true

variable (P : ResolverPorts)

/-- `Number(String(value))` of a member of an array that is converted to a number. -/
def itemNumber : Json → JsNumber
  | .null => .finite 0
  | .bool _ => .nan
  | .num value => .finite value
  | .str text => P.numberOfText text
  | .arr [] => .finite 0
  | .arr [item] => itemNumber item
  | .arr (_ :: _ :: _) => .nan
  | .obj _ => .nan

/-- `Number(value)`. -/
def toNumber : Json → JsNumber
  | .null => .finite 0
  | .bool value => .finite (if value then 1 else 0)
  | value => itemNumber P value

def numberLt : JsNumber → JsNumber → Prop
  | .nan, _ | _, .nan => False
  | .finite a, .finite b => a < b
  | .negInf, .negInf | .posInf, _ => False
  | .negInf, _ => True
  | .finite _, .posInf => True
  | .finite _, .negInf => False

instance : (a b : JsNumber) → Decidable (numberLt a b)
  | .nan, _ => inferInstanceAs (Decidable False)
  | .negInf, .nan => inferInstanceAs (Decidable False)
  | .negInf, .negInf => inferInstanceAs (Decidable False)
  | .negInf, .finite _ => inferInstanceAs (Decidable True)
  | .negInf, .posInf => inferInstanceAs (Decidable True)
  | .finite _, .nan => inferInstanceAs (Decidable False)
  | .finite _, .negInf => inferInstanceAs (Decidable False)
  | .finite a, .finite b => inferInstanceAs (Decidable (a < b))
  | .finite _, .posInf => inferInstanceAs (Decidable True)
  | .posInf, .nan => inferInstanceAs (Decidable False)
  | .posInf, .negInf => inferInstanceAs (Decidable False)
  | .posInf, .finite _ => inferInstanceAs (Decidable False)
  | .posInf, .posInf => inferInstanceAs (Decidable False)

/-- `Math.max` of two numbers. -/
def numberMax : JsNumber → JsNumber → JsNumber
  | .nan, _ | _, .nan => .nan
  | a, b => if numberLt a b then b else a

def mathMax (values : List JsNumber) : JsNumber := values.foldl numberMax .negInf

/-- `document.version ?? fallback`. -/
def versionOr (fallback : ℚ) (document : Json) : Json :=
  match field "version" document with
  | none => .num fallback
  | some .null => .num fallback
  | some version => version

/-! ## Verification of a body -/

/-- `new Date(value).getTime()`. -/
def dateTime : Json → Option Int
  | .str text => P.getTime text
  | .num value => some (value.num.tdiv value.den)
  | .bool value => some (if value then 1 else 0)
  | _ => none

/-- The binding has no end, or it has not ended. -/
def notExpired (expiresAt : Option Json) (now : Int) : Bool :=
  match expiresAt with
  | none => true
  | some .null => true
  | some value => !decide (∃ t ∈ dateTime P value, t ≤ now)

/-- The signed fields of a binding proof, as they stand in the body. -/
def bindingBytes (agentDid : String) (issuedAt : Json) (principalDid : String) : List UInt8 :=
  utf8 (Json.canonicalize P.numberFormat (.obj [("agentDid", .str agentDid),
    ("issuedAt", issuedAt), ("principalDid", .str principalDid)]))

def verifyBindingProof (proof : Json) (now : Int) : Bool :=
  match textField "principalDid" proof, textField "agentDid" proof, field "issuedAt" proof,
      textField "signature" proof with
  | some principalDid, some agentDid, some issuedAt, some signature =>
      isDidKey principalDid && isDidAgent agentDid && notExpired P (field "expiresAt" proof) now &&
        match extractPublicKeyFromDIDKey principalDid with
        | some publicKey =>
            P.verify (bindingBytes P agentDid issuedAt principalDid) signature publicKey ==
              some true
        | none => false
  | _, _, _, _ => false

inductive InvalidReason where
  | bindingProofInvalid
  | malformedDocument
  | rotationProofMalformed
  deriving DecidableEq, Repr

/-- `doc.version !== undefined && doc.version > 1`. -/
def isLater (document : Json) : Prop :=
  ∃ version ∈ field "version" document, numberLt (.finite 1) (toNumber P version)

instance (document : Json) : Decidable (isLater P document) := by
  unfold isLater
  infer_instance

/-- `!doc.version || doc.version === 1`. -/
def isFirst (document : Json) : Bool :=
  !isTruthy (field "version" document) ||
    match field "version" document with
    | some (.num version) => version = 1
    | _ => false

/-- The field checks and the signature of the binding proof. -/
def checkBindingProof (document : Json) (now : Int) : Except InvalidReason Unit := do
  require (isTruthy (field "bindingProof" document) = true) .bindingProofInvalid
  let proof := (field "bindingProof" document).getD .null
  require (∃ agentDid ∈ textField "agentDid" proof, textField "id" document = some agentDid)
    .bindingProofInvalid
  require (verifyBindingProof P proof now = true ∧
    textField "principalDid" proof = textField "principalDid" document) .bindingProofInvalid

/-- A first version is certified by its key. -/
def checkSelfCertified (document : Json) : Except InvalidReason Unit :=
  match (textField "publicKey" document).bind (createAgentDID P.toIdentityPorts) with
  | none => .error .malformedDocument
  | some did => require (textField "id" document = some did) .bindingProofInvalid

/-- What is checked before `verifyDIDBinding` is asked. -/
def checkDocument (document : Json) (now : Int) : Except InvalidReason Unit := do
  checkBindingProof P document now
  if isLater P document then
    require (isTruthy (field "rotationProof" document) = true) .rotationProofMalformed
  if isFirst document then checkSelfCertified P document

/-- An answer of a node, with the time at which it is verified and what
`verifyDIDBinding.verify` says of its document, `none` when that call throws. -/
inductive NodeAnswer where
  | body (document : Json)
  | notFound
  | error

structure Arrival where
  nodeId : String
  answer : NodeAnswer
  now : Int
  verified : Option Bool

/-- The verdict on a document; `none` when the verification throws. -/
def verifyDocumentSignature (document : Json) (now : Int) (verified : Option Bool) :
    Option (Except InvalidReason Unit) :=
  match checkDocument P document now with
  | .error reason => some (.error reason)
  | .ok () =>
      if isLater P document then
        verified.map fun verified => require (verified = true) .rotationProofMalformed
      else some (.ok ())

/-! ## The fan-out -/

structure HealthCheckConfig where
  probeIntervalMs : ℚ
  failureThreshold : ℚ
  recoveryThreshold : ℚ

structure ResolverConfig where
  nodes : List String
  minResponses : ℚ
  cacheTtlMs : Int
  healthCheck : Option HealthCheckConfig := none

def isPositiveInteger (value : ℚ) : Bool := value.den == 1 && decide (1 ≤ value)

/-- The rules that the types leave open. -/
def validateConfig (cfg : ResolverConfig) : Except String Unit := do
  require (1 ≤ cfg.nodes.length) "nodes.length >= 1 is required"
  require (¬ (cfg.minResponses < 1 ∨ cfg.minResponses > cfg.nodes.length))
    ("minResponses must be between 1 and nodes.length (" ++ toString cfg.nodes.length ++ ")")
  require (cfg.nodes.length = 2 → cfg.minResponses = 2)
    "When nodes.length === 2, minResponses must be 2 to prevent 1:1 fork degradation"
  require (∀ check ∈ cfg.healthCheck, isPositiveInteger check.probeIntervalMs = true)
    ("invalid_federated_resolver_config: " ++
      "healthCheck.probeIntervalMs must be a positive integer")
  require (∀ check ∈ cfg.healthCheck, isPositiveInteger check.failureThreshold = true)
    ("invalid_federated_resolver_config: " ++
      "healthCheck.failureThreshold must be a positive integer")
  require (∀ check ∈ cfg.healthCheck, isPositiveInteger check.recoveryThreshold = true)
    ("invalid_federated_resolver_config: " ++
      "healthCheck.recoveryThreshold must be a positive integer")

/-- `queryNode` keeps a body that is an object with the queried identifier. -/
def acceptsBody (did : String) (body : Json) : Bool := textField "id" body == some did

/-- The documents that verify, in the order they arrived; `none` when a verification
throws. -/
def collect (did : String) : List Arrival → Option (List Json)
  | [] => some []
  | arrival :: arrivals =>
      match arrival.answer with
      | .notFound => collect did arrivals
      | .error => collect did arrivals
      | .body document =>
          if acceptsBody did document then
            match verifyDocumentSignature P document arrival.now arrival.verified with
            | none => none
            | some (.error _) => collect did arrivals
            | some (.ok ()) => (collect did arrivals).map (document :: ·)
          else collect did arrivals

/-! ## Selection -/

/-- A version as a key of a `Map`: primitive values by value, arrays and objects by
identity. -/
inductive VersionKey where
  | num (value : ℚ)
  | str (value : String)
  | bool (value : Bool)
  | reference (candidate : Nat) (number : JsNumber)
  deriving DecidableEq

def versionKey (candidate : Nat) (version : Json) : VersionKey :=
  match version with
  | .num value => .num value
  | .str value => .str value
  | .bool value => .bool value
  | version => .reference candidate (toNumber P version)

def VersionKey.number : VersionKey → JsNumber
  | .num value => .finite value
  | .str value => P.numberOfText value
  | .bool value => .finite (if value then 1 else 0)
  | .reference _ number => number

def byVersion (candidates : List Json) : OrderedMap VersionKey (List Json) :=
  OrderedMap.groupBy (fun entry : Json × Nat => versionKey P entry.2 (versionOr 1 entry.1))
    Prod.fst candidates.zipIdx

/-- `byVersion.get(version)` for a number. -/
def winnersAt (groups : OrderedMap VersionKey (List Json)) : JsNumber → Option (List Json)
  | .finite version => groups.get? (.num version)
  | _ => none

def contentHash (document : Json) : String :=
  P.hash (utf8 (Json.canonicalize P.numberFormat document))

/-- The first winner, unless the winners differ. -/
def agreed (winners : List Json) : Option Json :=
  if 1 < (winners.map (contentHash P)).dedup.length then none else winners.head?

def computeQuorumThreshold (n : Nat) : Nat := n / 2 + 1

/-- The choice among versions; `none` when it throws for want of winners. -/
def selectAmong (groups : OrderedMap VersionKey (List Json)) (versions : List VersionKey) :
    Option (Option Json) :=
  (winnersAt groups (mathMax (versions.map (VersionKey.number P)))).map (agreed P)

def selectHighestVersionFallback (candidates : List Json) : Option (Option Json) :=
  selectAmong P (byVersion P candidates) ((byVersion P candidates).entries.map Prod.fst)

def qualifiedVersions (candidates : List Json) : List VersionKey :=
  ((byVersion P candidates).entries.filter fun entry =>
    computeQuorumThreshold candidates.length ≤ entry.2.length).map Prod.fst

def selectByQuorum (candidates : List Json) (totalConfiguredNodes : Nat) :
    Option (Option Json) :=
  if totalConfiguredNodes < 3 then selectHighestVersionFallback P candidates
  else
    match qualifiedVersions P candidates with
    | [] => some none
    | versions => selectAmong P (byVersion P candidates) versions

/-- The document that the answers to a fan-out lead to. -/
def choose (cfg : ResolverConfig) (did : String) (targets : Nat) (arrivals : List Arrival) :
    Option (Option Json) :=
  if (targets : ℚ) < cfg.minResponses then some none
  else
    match collect P did arrivals with
    | none => none
    | some candidates =>
        if (candidates.length : ℚ) < cfg.minResponses then some none
        else selectByQuorum P candidates targets

/-! ## Calls -/

structure CacheEntry where
  document : Json
  expiresAt : Int

/-- Where the single flight for an identifier stands. -/
inductive Stage where
  | fanningOut (startEpoch : Nat)
  | readingWatermark (startEpoch : Nat) (chosen : Json) (cacheVersion : JsNumber)
  | checking (startEpoch : Nat) (chosen : Json) (cacheVersion : JsNumber) (persisted : Option ℚ)
  | writingWatermark (chosen : Json)

/-- A flight, with the answers it was decided on. -/
structure Flight where
  stage : Stage
  arrivals : List Arrival

/-- A document that `resolve` returned: from the cache, or fetched with these answers. -/
structure Returned where
  did : String
  document : Json
  fetched : Option (List Arrival)

/-- The resolver, the watermark store and the documents returned so far. -/
structure ResolverState where
  cache : String → Option CacheEntry
  cacheEpoch : String → Nat
  inflight : String → Option Flight
  watermark : String → Option ℚ
  returned : List Returned

def ResolverState.initial (watermark : String → Option ℚ) : ResolverState where
  cache := fun _ => none
  cacheEpoch := fun _ => 0
  inflight := fun _ => none
  watermark := watermark
  returned := []

/-- The pieces of calls. -/
inductive Event where
  /-- A call, up to its return from the cache or to the flight it waits for. -/
  | resolve (did : String) (now : Int)
  /-- The fan-out of a flight ends. -/
  | settle (did : String) (now : Int) (targets : Nat) (arrivals : List Arrival)
  /-- `getWatermark` reads the store, or throws. -/
  | readWatermark (did : String) (succeeds : Bool)
  /-- The flight goes on with the watermark it read. -/
  | check (did : String) (now : Int)
  /-- `setWatermark` ends; when it throws it may have written or not. -/
  | writeWatermark (did : String) (succeeds written : Bool)
  | invalidateCache (did : String)
  /-- Another process raises the watermark. -/
  | raiseWatermark (did : String) (version : ℚ)

variable (cfg : ResolverConfig)

/-- The entry that is still valid. -/
def getCached (s : ResolverState) (did : String) (now : Int) : Option Json :=
  ((s.cache did).filter fun entry => ¬ entry.expiresAt < now).map CacheEntry.document

/-- `getCached` drops an expired entry. -/
def dropExpired (s : ResolverState) (did : String) (now : Int) : ResolverState :=
  let entry := (s.cache did).filter fun entry => ¬ entry.expiresAt < now
  { s with cache := Function.update s.cache did entry }

def setFlight (s : ResolverState) (did : String) (flight : Option Flight) : ResolverState :=
  { s with inflight := Function.update s.inflight did flight }

def setCached (s : ResolverState) (did : String) (document : Json) (now : Int) : ResolverState :=
  { s with cache := Function.update s.cache did (some ⟨document, now + cfg.cacheTtlMs⟩) }

/-- The store keeps the greater version. -/
def raiseTo (s : ResolverState) (did : String) (version : ℚ) : ResolverState :=
  let raised := ((s.watermark did).map fun current => max current version).getD version
  { s with watermark := Function.update s.watermark did (some raised) }

def deliver (s : ResolverState) (entry : Returned) : ResolverState :=
  { s with returned := s.returned ++ [entry] }

/-- `document.version ?? 1` of a document whose version is a number. -/
def documentVersion (document : Json) : ℚ :=
  match versionOr 1 document with
  | .num version => version
  | _ => 0

/-- `Math.max(cacheVersion, persisted ?? 0) > (chosen.version ?? 1)`. -/
def isRollback (chosen : Json) (cacheVersion : JsNumber) (persisted : Option ℚ) : Prop :=
  numberLt (toNumber P (versionOr 1 chosen))
    (numberMax cacheVersion (.finite (persisted.getD 0)))

instance (chosen : Json) (cacheVersion : JsNumber) (persisted : Option ℚ) :
    Decidable (isRollback P chosen cacheVersion persisted) :=
  inferInstanceAs (Decidable (numberLt _ _))

/-- `cachedDoc?.version ?? 0`. -/
def cacheVersionOf (cached : Option Json) : JsNumber :=
  (cached.map fun document => toNumber P (versionOr 0 document)).getD (.finite 0)

/-- The fan-out of a flight ends with a choice, or ends the flight. -/
def settle (s : ResolverState) (did : String) (now : Int) (startEpoch targets : Nat)
    (arrivals : List Arrival) : ResolverState :=
  match choose P cfg did targets arrivals with
  | some (some chosen) =>
      setFlight (dropExpired s did now) did (some ⟨.readingWatermark startEpoch chosen
        (cacheVersionOf P (getCached s did now)), arrivals⟩)
  | _ => setFlight s did none

/-- The checks after the watermark was read. -/
def checkFlight (s : ResolverState) (did : String) (now : Int) (startEpoch : Nat) (chosen : Json)
    (cacheVersion : JsNumber) (persisted : Option ℚ) (arrivals : List Arrival) : ResolverState :=
  if isRollback P chosen cacheVersion persisted then setFlight s did none
  else if s.cacheEpoch did ≠ startEpoch then setFlight s did none
  else setFlight (setCached cfg s did chosen now) did (some ⟨.writingWatermark chosen, arrivals⟩)

/-- The end of a flight that wrote, or tried to write, the watermark. -/
def finishFlight (s : ResolverState) (did : String) (chosen : Json) (arrivals : List Arrival)
    (succeeds written : Bool) : ResolverState :=
  let s' := if succeeds ∨ written then raiseTo s did (documentVersion chosen) else s
  if succeeds then deliver (setFlight s' did none) ⟨did, chosen, some arrivals⟩
  else setFlight s' did none

def step (s : ResolverState) : Event → Option ResolverState
  | .resolve did now =>
      match getCached s did now with
      | some document => some (deliver s ⟨did, document, none⟩)
      | none =>
          match s.inflight did with
          | some _ => some (dropExpired s did now)
          | none => some (setFlight (dropExpired s did now) did
              (some ⟨.fanningOut (s.cacheEpoch did), []⟩))
  | .settle did now targets arrivals =>
      match s.inflight did with
      | some ⟨.fanningOut startEpoch, _⟩ =>
          some (settle P cfg s did now startEpoch targets arrivals)
      | _ => none
  | .readWatermark did succeeds =>
      match s.inflight did with
      | some ⟨.readingWatermark startEpoch chosen cacheVersion, arrivals⟩ =>
          some (setFlight s did (if succeeds then
            some ⟨.checking startEpoch chosen cacheVersion (s.watermark did), arrivals⟩ else none))
      | _ => none
  | .check did now =>
      match s.inflight did with
      | some ⟨.checking startEpoch chosen cacheVersion persisted, arrivals⟩ =>
          some (checkFlight P cfg s did now startEpoch chosen cacheVersion persisted arrivals)
      | _ => none
  | .writeWatermark did succeeds written =>
      match s.inflight did with
      | some ⟨.writingWatermark chosen, arrivals⟩ =>
          some (finishFlight s did chosen arrivals succeeds written)
      | _ => none
  | .invalidateCache did =>
      some { s with
        cache := Function.update s.cache did none
        cacheEpoch := Function.update s.cacheEpoch did (s.cacheEpoch did + 1) }
  | .raiseWatermark did version => some (raiseTo s did version)

/-! ## What the answers lead to -/

variable {P cfg}

/-- The version of a document is missing or a number. -/
def IsNumeric (document : Json) : Prop := versionOr 1 document = .num (documentVersion document)

/-- A document that one of the answers brought and that was verified. -/
structure Chosen (P : ResolverPorts) (did : String) (arrivals : List Arrival) (document : Json) :
    Prop where
  numeric : IsNumeric document
  arrived : ∃ arrival ∈ arrivals, arrival.answer = .body document ∧
    verifyDocumentSignature P document arrival.now arrival.verified = some (.ok ())
  identifier : textField "id" document = some did

theorem mem_of_collect {did : String} {arrivals : List Arrival} {candidates : List Json}
    (h : collect P did arrivals = some candidates) :
    ∀ document ∈ candidates, textField "id" document = some did ∧
      ∃ arrival ∈ arrivals, arrival.answer = .body document ∧
        verifyDocumentSignature P document arrival.now arrival.verified = some (.ok ()) := by
  induction arrivals generalizing candidates with
  | nil =>
      obtain rfl := Option.some.inj h
      simp
  | cons arrival arrivals ih =>
      have hlater : ∀ {candidates : List Json}, collect P did arrivals = some candidates →
          ∀ document ∈ candidates, textField "id" document = some did ∧
            ∃ arrival' ∈ arrival :: arrivals, arrival'.answer = .body document ∧
              verifyDocumentSignature P document arrival'.now arrival'.verified =
                some (.ok ()) := by
        intro candidates hrest document hdocument
        obtain ⟨hid, arrival', hmem, harrival⟩ := ih hrest document hdocument
        exact ⟨hid, arrival', List.mem_cons_of_mem _ hmem, harrival⟩
      unfold collect at h
      split at h
      next => exact hlater h
      next => exact hlater h
      next document hanswer =>
        split at h
        next haccepts =>
          split at h
          next => cases h
          next => exact hlater h
          next hverified =>
            obtain ⟨rest, hrest, rfl⟩ := Option.map_eq_some_iff.mp h
            refine List.forall_mem_cons.mpr ⟨⟨by simpa [acceptsBody] using haccepts, arrival,
              List.mem_cons_self, hanswer, hverified⟩, hlater hrest⟩
        next => exact hlater h

theorem mem_of_agreed {winners : List Json} {document : Json}
    (h : agreed P winners = some document) : document ∈ winners := by
  unfold agreed at h
  split at h
  next => cases h
  next => exact List.mem_of_head? h

theorem versionKey_eq_num {candidate : Nat} {version : Json} {value : ℚ}
    (h : versionKey P candidate version = .num value) : version = .num value := by
  cases version with
  | num v => simpa [versionKey] using h
  | _ => simp [versionKey] at h

/-- Whatever the versions voted on, the winners have a number as their version. -/
theorem mem_of_selectAmong {candidates : List Json} {versions : List VersionKey}
    {document : Json}
    (h : selectAmong P (byVersion P candidates) versions = some (some document)) :
    document ∈ candidates ∧ IsNumeric document := by
  obtain ⟨winners, hwinners, hagreed⟩ := Option.map_eq_some_iff.mp h
  have hmem := mem_of_agreed hagreed
  unfold winnersAt at hwinners
  split at hwinners
  next version hversion =>
    obtain ⟨-, rfl⟩ := (OrderedMap.get?_groupBy_eq_some _ _ _ _ _).mp hwinners
    obtain ⟨⟨candidate, i⟩, hcandidate, rfl⟩ := List.mem_map.mp hmem
    obtain ⟨hzip, hkey⟩ := List.mem_filter.mp hcandidate
    have hnum := versionKey_eq_num (of_decide_eq_true hkey)
    refine ⟨List.fst_mem_of_mem_zipIdx hzip, ?_⟩
    simp only at hnum
    rw [IsNumeric, documentVersion, hnum]
  next => cases hwinners

theorem chosen_of_choose {did : String} {targets : Nat} {arrivals : List Arrival}
    {document : Json} (h : choose P cfg did targets arrivals = some (some document)) :
    Chosen P did arrivals document := by
  unfold choose at h
  split at h
  next => cases h
  next =>
    split at h
    next => cases h
    next candidates hcandidates =>
      split at h
      next => cases h
      next =>
        have hselected : document ∈ candidates ∧ IsNumeric document := by
          unfold selectByQuorum at h
          split at h
          next => exact mem_of_selectAmong h
          next =>
            split at h
            next => cases h
            next => exact mem_of_selectAmong h
        obtain ⟨hid, harrived⟩ := mem_of_collect hcandidates document hselected.1
        exact ⟨hselected.2, harrived, hid⟩

end Coivitas.Identity.Federation
