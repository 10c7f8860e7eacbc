import Coivitas.Crypto.HashChain
import Coivitas.Foundation.CalendarText
import Coivitas.Foundation.Program
import Coivitas.Identity.FederatedResolver
import Coivitas.Types.Errors

/-! # Controller chain resolution

The model of `packages/identity/src/controller-chain-resolution`: the nine steps
of `resolveControllerChain` and the integrity proof it builds. The did resolver,
the freshness port, the revocation checker and the signing function may answer or
throw anything. The parallel freshness checks are independent of each other, so
they run in the order of the chain with the answers and clock readings they get.
-/

namespace Coivitas.Identity.ControllerChain

open Foundation Coivitas.Types Policy Federation

/-! ## Numbers -/

def numberMin : JsNumber → JsNumber → JsNumber
  | .nan, _ | _, .nan => .nan
  | a, b => if numberLt b a then b else a

/-- `Math.min(...values)`. -/
def mathMin (values : List JsNumber) : JsNumber := values.foldl numberMin .posInf

/-- `new Date(value).toISOString()`; `none` is a `RangeError`. -/
def isoText : JsNumber → Option String
  | .finite value => Calendar.toISOString (value.num.tdiv value.den)
  | _ => none

/-! ## Data -/

inductive CcrErrorCode where
  | resolverUnavailable
  | chainBroken
  | chainCycle
  | chainDepthExceeded
  | freshnessInvalid
  | chainSignatureInvalid
  | controllerRevoked
  | chainBindingInvalid
deriving DecidableEq, Repr

/-- A thrown `CcrError` with its detail, or a value that came out of a port. -/
inductive ChainFault where
  | ccr (code : CcrErrorCode) (detail : List (String × Json))
  | thrown (fault : Fault)

/-- The members of a DID document that the resolution reads; for the verification
methods, their controllers. -/
structure DidDocument where
  controller : Option String
  versionId : Option String
  verificationMethod : Option (List (Option String))
deriving DecidableEq, Repr

/-- What `getResolverFreshnessProof` reports. -/
structure FreshnessReport where
  freshnessWindowMs : JsNumber
  asOfTime : String
  verified : Bool
deriving DecidableEq

structure FreshnessProofSummary where
  freshnessWindowMs : JsNumber
  asOfTime : String
  verified : Bool
deriving DecidableEq

structure ControllerChainNode where
  nodeId : String
  controllerDid : String
  parentControllerDid : Option String
  resolvedAt : String
  freshnessProof : FreshnessProofSummary
  documentVersion : String
  isRoot : Bool
  depth : Nat
  cachedDocument : DidDocument
deriving DecidableEq

structure ChainBinding where
  rootBindingValid : Bool
  verificationMethodBindingValid : Bool
  leafBindingValid : Bool
deriving DecidableEq, Repr

structure ChainIntegrityProof where
  token : String
  disclosedClaims : List String
  challenge : String
  audience : String
  notAfter : String
  cspVersion : String
  chainSignature : String
  resolverDid : String
deriving DecidableEq, Repr

structure ControllerChainResolutionRequest where
  targetDid : String
  challenge : String
  verifierDid : String
  maxChainDepth : Option JsNumber
  maxFreshnessWindowMs : Option JsNumber

structure ControllerChainResolution where
  ccrVersion : String
  rootControllerDid : String
  chain : List ControllerChainNode
  chainDepth : Nat
  freshnessVerified : Bool
  integrityProof : ChainIntegrityProof
  controllerSwitchImmediate : Bool
  resolvedAt : String
  cycleAbsent : Bool
  chainBinding : ChainBinding
deriving DecidableEq

def maxChainDepthDefault : JsNumber := .finite 5

/-! ## Ports -/

/-- The injected ports, the clock, the generator of node ids, `new Date(text)` and
the number printer of the canonical form. -/
structure ChainPorts (ω : Type) where
  resolve : String → Reply ω ChainFault (Option DidDocument)
  verifyDocumentSignature : DidDocument → Reply ω ChainFault Bool
  getResolverFreshnessProof : String → Reply ω ChainFault FreshnessReport
  isControllerRevoked : String → Reply ω ChainFault Bool
  randomUUID : ω → String × ω
  dateNow : ω → Int × ω
  getTime : String → Option Int
  numberFormat : NumberFormat

structure CcrResolverOptions (ω : Type) where
  resolverDid : Option String
  signFn : Option (List UInt8 → Reply ω ChainFault String)
  allowPlaceholderSignature : Option Bool

/-- What a run leaves behind: a freshness report with the clock at its check, and
the clock when the proof was built. -/
inductive Observation where
  | freshnessChecked (controllerDid : String) (report : FreshnessReport) (nowMs : Int)
  | proofBuilt (nowMs : Int)

variable {ω : Type} (P : ChainPorts ω)

abbrev ChainProgram (ω α : Type) : Type := Program ω Observation ChainFault α

def ccrError {α : Type} (code : CcrErrorCode) (detail : List (String × Json)) :
    ChainProgram ω α := throw (.ccr code detail)

/-- `if (condition) throw new CcrError(code, detail)`. -/
def refuseIf (condition : Prop) [Decidable condition] (code : CcrErrorCode)
    (detail : List (String × Json)) : ChainProgram ω Unit :=
  if condition then ccrError code detail else pure ()

def rangeError {α : Type} : ChainProgram ω α := throw (.thrown (.error "Invalid time value"))

/-- `new Date().toISOString()`. -/
def nowText : ChainProgram ω String := do
  let nowMs ← Program.sample P.dateNow
  match Calendar.toISOString nowMs with
  | some text => pure text
  | none => rangeError

def depthJson : JsNumber → Json
  | .finite value => .num value
  | _ => .null

/-! ## Step 3: loading the chain -/

/-- `toChainNodeId`. -/
def toChainNodeId (text : String) : ChainProgram ω String :=
  if Crypto.isUuidV4 (String.ofList (text.toList.map Char.toLower)) then pure text
  else throw (.thrown (.error ("CSP_CHALLENGE_INVALID: not valid UUID v4: \"" ++ text ++ "\"")))

/-- The node pushed for a loaded document, before its freshness is known. -/
def loadNode (nodes : List ControllerChainNode) (currentDid : String) (doc : DidDocument) :
    ChainProgram ω ControllerChainNode := do
  let uuid ← Program.sample P.randomUUID
  let nodeId ← toChainNodeId uuid
  let resolvedAt ← nowText P
  return {
    nodeId := nodeId
    controllerDid := currentDid
    parentControllerDid := nodes.getLast?.map ControllerChainNode.controllerDid
    resolvedAt := resolvedAt
    freshnessProof := ⟨.finite 0, resolvedAt, false⟩
    documentVersion := doc.versionId.getD "1"
    isRoot := nodes.isEmpty
    depth := nodes.length
    cachedDocument := doc }

/-- The load loop; `none` when the fuel runs out before the loop ends. The DIDs
seen so far are those of the nodes. -/
def loadChain (maxDepth : JsNumber) :
    Nat → List ControllerChainNode → Option String →
      ChainProgram ω (Option (List ControllerChainNode))
  | _, nodes, none => pure (some nodes)
  | 0, nodes, some _ =>
      if numberLt maxDepth (.finite nodes.length) ∨ maxDepth = .nan then pure (some nodes)
      else pure none
  | fuel + 1, nodes, some currentDid =>
      if numberLt maxDepth (.finite nodes.length) ∨ maxDepth = .nan then pure (some nodes)
      else do
        refuseIf (currentDid ∈ nodes.map ControllerChainNode.controllerDid) .chainCycle
          [("duplicateDid", .str currentDid), ("depth", .num nodes.length),
            ("reason", .str "cycle_detected_in_load_loop")]
        match ← Program.ask (P.resolve currentDid) with
        | none =>
            ccrError .resolverUnavailable [("reason", .str "chain_node_did_unavailable"),
              ("controllerDid", .str currentDid), ("depth", .num nodes.length)]
        | some doc => do
            let node ← loadNode P nodes currentDid doc
            loadChain maxDepth fuel (nodes ++ [node]) doc.controller

/-! ## Step 4: freshness -/

/-- `nowMs - asOfMs > freshnessWindowMs`; an `asOfTime` that is no date makes the
difference `NaN`, and the comparison false. -/
def isStale (nowMs : Int) (asOfMs : Option Int) (window : JsNumber) : Prop :=
  match asOfMs with
  | none => False
  | some asOfMs => numberLt window (.finite (nowMs - asOfMs))

instance (nowMs : Int) (asOfMs : Option Int) (window : JsNumber) :
    Decidable (isStale nowMs asOfMs window) := by
  cases asOfMs <;> unfold isStale <;> infer_instance

/-- The check of one node inside its `try`: a reason of refusal, or the window and
the time to write back. -/
def checkReport (request : ControllerChainResolutionRequest) (controllerDid : String) :
    ChainProgram ω (Except String (JsNumber × String)) := do
  let rfp ← Program.ask (P.getResolverFreshnessProof controllerDid)
  let maxFw := request.maxFreshnessWindowMs.getD rfp.freshnessWindowMs
  if numberLt maxFw rfp.freshnessWindowMs then
    return .error "freshness_window_exceeded"
  else do
    let nowMs ← Program.sample P.dateNow
    Program.emit (.freshnessChecked controllerDid rfp nowMs)
    if isStale nowMs (P.getTime rfp.asOfTime) rfp.freshnessWindowMs then
      return .error "stale"
    else
      return .ok (rfp.freshnessWindowMs, rfp.asOfTime)

def checkFreshness (request : ControllerChainResolutionRequest) (controllerDid : String) :
    ChainProgram ω (Except String (JsNumber × String)) :=
  tryCatch (checkReport P request controllerDid) fun _ => pure (.error "rfp_unavailable")

/-- `Promise.all` over the nodes. -/
def checkAll (request : ControllerChainResolutionRequest) :
    List ControllerChainNode → ChainProgram ω (List (Except String (JsNumber × String)))
  | [] => pure []
  | node :: rest => do
      let result ← checkFreshness P request node.controllerDid
      let results ← checkAll request rest
      return result :: results

/-- The loop that throws at the first refusal and writes the others back. -/
def writeBack : List ControllerChainNode → List (Except String (JsNumber × String)) →
    ChainProgram ω (List ControllerChainNode)
  | node :: nodes, .ok (window, asOfTime) :: results => do
      let rest ← writeBack nodes results
      return { node with freshnessProof := ⟨window, asOfTime, true⟩ } :: rest
  | node :: _, .error reason :: _ =>
      ccrError .freshnessInvalid [("nodeIdx", .num node.depth),
        ("controllerDid", .str node.controllerDid), ("reason", .str reason)]
  | nodes, _ => pure nodes

/-! ## Steps 5 to 9 -/

def verifySignatures (nodes : List ControllerChainNode) : ChainProgram ω Unit :=
  Program.forEach nodes fun node => do
    let valid ← Program.ask (P.verifyDocumentSignature node.cachedDocument)
    refuseIf (valid = false) .chainSignatureInvalid
      [("reason", .str "did_document_signature_invalid"),
        ("controllerDid", .str node.controllerDid), ("depth", .num node.depth)]

def ChainFault.message : ChainFault → String
  | .ccr _ _ => "FEDERATED_RESOLUTION_FAILED"
  | .thrown (.value text) => text
  | .thrown fault => fault.message ""

def checkRevocation (nodes : List ControllerChainNode) : ChainProgram ω Unit :=
  Program.forEach nodes fun node => do
    let revoked ← tryCatch (Program.ask (P.isControllerRevoked node.controllerDid)) fun e =>
      ccrError .controllerRevoked [("controllerDid", .str node.controllerDid),
        ("depth", .num node.depth), ("reason", .str "revocation_checker_error"),
        ("underlying", .str e.message)]
    refuseIf (revoked = true) .controllerRevoked
      [("controllerDid", .str node.controllerDid), ("depth", .num node.depth)]

/-- Step 7. -/
def checkRootEnd (nodes : List ControllerChainNode) (targetDocController : Option String) :
    ChainProgram ω Unit :=
  let chainRootControllerDid := nodes.head?.map ControllerChainNode.controllerDid
  refuseIf (chainRootControllerDid ≠ targetDocController) .chainBindingInvalid
    [("reason", .str "chain_root_target_mismatch"),
      ("chainRootControllerDid", (chainRootControllerDid.map Json.str).getD .null),
      ("targetDocController", (targetDocController.map Json.str).getD .null)]

/-- Step 8. -/
def checkNoCycle : List String → List ControllerChainNode → ChainProgram ω Unit
  | _, [] => pure ()
  | seenDids, node :: rest => do
      refuseIf (node.controllerDid ∈ seenDids) .chainCycle
        [("reason", .str "cycle_detected_defense_in_depth"),
          ("duplicateDid", .str node.controllerDid), ("depth", .num node.depth)]
      checkNoCycle (node.controllerDid :: seenDids) rest

def verificationMethodController (doc : DidDocument) : Option String :=
  (doc.verificationMethod.bind List.head?).join

def chainBindingOf (nodes : List ControllerChainNode) (targetDocController : Option String) :
    ChainBinding where
  rootBindingValid := nodes.head?.any fun node => node.isRoot && node.parentControllerDid.isNone
  verificationMethodBindingValid := nodes.all fun node =>
    verificationMethodController node.cachedDocument == some node.controllerDid
  leafBindingValid := nodes.head?.map ControllerChainNode.controllerDid == targetDocController

/-- Step 9. -/
def checkBinding (binding : ChainBinding) : ChainProgram ω Unit :=
  refuseIf (binding.rootBindingValid = false ∨ binding.verificationMethodBindingValid = false ∨
      binding.leafBindingValid = false) .chainBindingInvalid
    [("rootBindingValid", .bool binding.rootBindingValid),
      ("verificationMethodBindingValid", .bool binding.verificationMethodBindingValid),
      ("leafBindingValid", .bool binding.leafBindingValid)]

/-! ## The integrity proof -/

def signedPayload (request : ControllerChainResolutionRequest) (disclosedClaims : List String)
    (notAfter token : String) : Json :=
  .obj [("audience", .str request.verifierDid), ("challenge", .str request.challenge),
    ("cspVersion", .str "1.0.0"), ("disclosedClaims", .arr (disclosedClaims.map .str)),
    ("notAfter", .str notAfter), ("token", .str token)]

/-- The injected signature, or the placeholder where that is allowed. -/
def signProof (options : Option (CcrResolverOptions ω)) (message : List UInt8) :
    ChainProgram ω (String × String) := do
  let allowPlaceholder := (options.bind CcrResolverOptions.allowPlaceholderSignature).getD false
  let resolverDid := options.bind CcrResolverOptions.resolverDid
  let signFn := options.bind CcrResolverOptions.signFn
  refuseIf (signFn.isNone = true ∧ allowPlaceholder = false) .chainSignatureInvalid
    [("reason", .str "sign_fn_missing_in_production"),
      ("hint", .str ("Production must pass options.signFn (the Ed25519 injection path); dev/test " ++
        "must explicitly opt in via options.allowPlaceholderSignature = true"))]
  refuseIf (resolverDid.getD "" = "" ∧ allowPlaceholder = false) .chainSignatureInvalid
    [("reason", .str "resolver_did_missing_in_production"),
      ("hint", .str ("Production must pass options.resolverDid; dev/test must explicitly opt in " ++
        "via options.allowPlaceholderSignature = true"))]
  match signFn with
  | some sign => do
      let signature ← Program.ask (sign message)
      return (signature, resolverDid.getD "did:placeholder:ccr-resolver")
  | none => return ("PLACEHOLDER_SIGNATURE_NO_SIGN_FN",
      resolverDid.getD "did:placeholder:ccr-resolver")

/-- The expiry: the clock now plus the least freshness window of the chain. -/
def notAfterText (nowMs : Int) (nodes : List ControllerChainNode) : Option String :=
  isoText ((JsNumber.finite nowMs).add
    (mathMin (nodes.map fun node => node.freshnessProof.freshnessWindowMs)))

def buildChainIntegrityProof (nodes : List ControllerChainNode)
    (request : ControllerChainResolutionRequest) (options : Option (CcrResolverOptions ω)) :
    ChainProgram ω ChainIntegrityProof := do
  let disclosedClaims := nodes.map fun node => toString node.depth ++ ":" ++ node.controllerDid
  let root := (nodes.head?.map ControllerChainNode.controllerDid).getD ""
  let token := "ccr:" ++ root ++ ":depth=" ++ toString nodes.length
  let nowMs ← Program.sample P.dateNow
  Program.emit (.proofBuilt nowMs)
  match notAfterText nowMs nodes with
  | none => rangeError
  | some notAfter => do
      let canonical := Json.canonicalize P.numberFormat
        (signedPayload request disclosedClaims notAfter token)
      let (chainSignature, resolverDid) ← signProof options (utf8 canonical)
      return {
        token := token
        disclosedClaims := disclosedClaims
        challenge := request.challenge
        audience := request.verifierDid
        notAfter := notAfter
        cspVersion := "1.0.0"
        chainSignature := chainSignature
        resolverDid := resolverDid }

/-! ## The nine steps -/

/-- Steps 4 to 9 on the loaded nodes. -/
def verifyChain (nodes : List ControllerChainNode) (rootDoc : DidDocument)
    (request : ControllerChainResolutionRequest) (options : Option (CcrResolverOptions ω)) :
    ChainProgram ω ControllerChainResolution := do
  let results ← checkAll P request nodes
  let chain ← writeBack nodes results
  verifySignatures P chain
  checkRevocation P chain
  checkRootEnd chain rootDoc.controller
  checkNoCycle [] chain
  let binding := chainBindingOf chain rootDoc.controller
  checkBinding binding
  let integrityProof ← buildChainIntegrityProof P chain request options
  let resolvedAt ← nowText P
  return {
    ccrVersion := "1.0.0"
    rootControllerDid := (chain.head?.map ControllerChainNode.controllerDid).getD ""
    chain := chain
    chainDepth := chain.length
    freshnessVerified := true
    integrityProof := integrityProof
    controllerSwitchImmediate := true
    resolvedAt := resolvedAt
    cycleAbsent := true
    chainBinding := binding }

/-- `runChainResolution9Steps` with fuel for the load loop; `none` when it runs out. -/
def resolveControllerChain (fuel : Nat) (request : ControllerChainResolutionRequest)
    (options : Option (CcrResolverOptions ω)) :
    ChainProgram ω (Option ControllerChainResolution) := do
  let maxDepth := request.maxChainDepth.getD maxChainDepthDefault
  match ← Program.ask (P.resolve request.targetDid) with
  | none =>
      ccrError .resolverUnavailable [("reason", .str "root_did_unavailable"),
        ("targetDid", .str request.targetDid)]
  | some rootDoc => do
      refuseIf (rootDoc.controller.getD "" = "") .chainBroken
        [("reason", .str "missing_root_controller"), ("targetDid", .str request.targetDid)]
      match ← loadChain P maxDepth fuel [] rootDoc.controller with
      | none => return none
      | some nodes => do
          refuseIf (numberLt maxDepth (.finite nodes.length)) .chainDepthExceeded
            [("actual", .num nodes.length), ("max", depthJson maxDepth)]
          refuseIf (nodes = []) .chainBroken
            [("reason", .str "empty_chain"), ("targetDid", .str request.targetDid)]
          let resolution ← verifyChain P nodes rootDoc request options
          return some resolution

end Coivitas.Identity.ControllerChain
