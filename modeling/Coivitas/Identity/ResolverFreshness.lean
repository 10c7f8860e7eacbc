import Coivitas.Foundation.Program
import Coivitas.Identity.FederatedResolver

/-! # Resolver freshness proofs

The model of `packages/identity/src/resolver-freshness-proof.ts`: the checks of one
proof, the consumer's wrapper around them, and the count over the nodes that a
federated resolution asked. The public key of a resolver may be looked up anywhere,
so the lookup may answer or throw anything. The nodes are verified in parallel and do
not wait for each other; they run in the order of the list with the answers they get.
-/

namespace Coivitas.Identity.Freshness

open Foundation Coivitas.Types Policy Federation

/-! ## Data -/

structure ResolverFreshnessProof where
  rfpVersion : String
  cspVersion : String
  resolverDid : String
  asOfTime : String
  freshnessWindow : ℚ
  signature : String
  deriving DecidableEq

inductive RfpErrorCode where
  | proofIncomplete
  | versionUnsupported
  | cspVersionMismatch
  | resolverDidInvalid
  | freshnessWindowInvalid
  | freshnessWindowExcessive
  | asofFuture
  | signatureInvalid
  | freshnessExpired
  | resolverUnreachable
  | quorumFreshnessUnmet
  deriving DecidableEq, Repr

structure RfpError where
  rfpCode : RfpErrorCode
  detail : String
  resolverDid : Option String := none
  deriving DecidableEq

/-- A thrown `RfpError`, or the text of another value that a port threw. -/
inductive RfpFault where
  | rfp (error : RfpError)
  | thrown (text : String)

/-- The key that a verification looked up for the resolver named in its proof. -/
structure KeyResolved where
  resolverDid : String
  publicKey : List UInt8

/-- What the verification takes from elsewhere: the crypto package, the lookup of keys,
`Date.parse`, and the wording of the schema validator. -/
structure RfpPorts (ω : Type) where
  numberFormat : NumberFormat
  /-- Ed25519 verification; `none` when it throws. -/
  verify : List UInt8 → String → String → Option Bool
  resolvePublicKey : String → Reply ω RfpFault (Option (List UInt8))
  dateParse : String → Option Int
  schemaIssue : Json → String

structure RfpConsumerOptions where
  requireRfp : Bool := false
  maxAllowedFreshnessWindowMs : JsNumber := .finite 3600000

structure QuorumNode where
  nodeId : String
  resolverDid : String
  /-- A missing payload is `null`. -/
  rfpPayload : Json

structure NodeRfpResult where
  nodeId : String
  resolverDid : String
  rfpVerified : Option ResolverFreshnessProof
  rfpError : Option RfpError
  deriving DecidableEq

variable {ω : Type} (P : RfpPorts ω)

abbrev RfpProgram (ω α : Type) : Type := Program ω KeyResolved RfpFault α

def rfpError {α : Type} (code : RfpErrorCode) (detail : String)
    (resolverDid : Option String := none) : RfpProgram ω α :=
  throw (.rfp ⟨code, detail, resolverDid⟩)

/-- `if (condition) throw new RfpError(code, detail, resolverDid)`. -/
def refuseIf (condition : Prop) [Decidable condition] (code : RfpErrorCode) (detail : String)
    (resolverDid : String) : RfpProgram ω Unit :=
  if condition then rfpError code detail (some resolverDid) else pure ()

def numberText (value : ℚ) : String := String.ofList (P.numberFormat.format value)

/-- `String(value)`. -/
def jsNumberText : JsNumber → String
  | .nan => "NaN"
  | .negInf => "-Infinity"
  | .finite value => numberText P value
  | .posInf => "Infinity"

/-! ## One proof -/

/-- `^\d{4}-\d{2}-\d{2}T\d{2}:\d{2}:\d{2}(\.\d+)?Z$` -/
def isUtcText (text : List Char) : Bool :=
  (text.take 19).length == 19 &&
    ((text.take 19).zip "dddd-dd-ddTdd:dd:dd".toList).all (fun entry =>
      if entry.2 = 'd' then entry.1.isDigit else entry.1 == entry.2) &&
    match text.drop 19 with
    | ['Z'] => true
    | '.' :: digits => digits.getLast? == some 'Z' && 2 ≤ digits.length &&
        digits.dropLast.all Char.isDigit
    | _ => false

def isWindow (value : ℚ) : Bool :=
  value.den == 1 && decide (1000 ≤ value) && decide (value ≤ 3600000)

def rfpFields : List String :=
  ["rfpVersion", "cspVersion", "resolverDid", "asOfTime", "freshnessWindow", "signature"]

/-- The payload as a proof, when it meets the schema. -/
def readRfp (rfp : Json) : Option ResolverFreshnessProof :=
  match textField "rfpVersion" rfp, textField "cspVersion" rfp, textField "resolverDid" rfp,
      textField "asOfTime" rfp, field "freshnessWindow" rfp, textField "signature" rfp with
  | some rfpVersion, some cspVersion, some resolverDid, some asOfTime, some (.num window),
      some signature =>
      some ⟨rfpVersion, cspVersion, resolverDid, asOfTime, window, signature⟩
  | _, _, _, _, _, _ => none

def ResolverFreshnessProof.isValid (proof : ResolverFreshnessProof) : Bool :=
  proof.rfpVersion == "1.0.0" && proof.cspVersion == "1.0.0" &&
    "did:".toList.isPrefixOf proof.resolverDid.toList && isUtcText proof.asOfTime.toList &&
    isWindow proof.freshnessWindow && proof.signature != "" &&
    proof.signature.toList.all Crypto.isBase64UrlChar

/-- No member beside the fields. -/
def hasOnlyRfpFields : Json → Bool
  | .obj members => members.all fun member => rfpFields.contains member.1
  | _ => false

def validateRfpSchema (rfp : Json) : RfpProgram ω ResolverFreshnessProof :=
  match (readRfp rfp).filter fun proof => proof.isValid && hasOnlyRfpFields rfp with
  | some proof => pure proof
  | none => rfpError .proofIncomplete ("Schema validation failed: " ++ P.schemaIssue rfp)

/-- The five signed fields. -/
def signPayload (proof : ResolverFreshnessProof) : List UInt8 :=
  utf8 (Json.canonicalize P.numberFormat (.obj [("rfpVersion", .str proof.rfpVersion),
    ("cspVersion", .str proof.cspVersion), ("resolverDid", .str proof.resolverDid),
    ("asOfTime", .str proof.asOfTime), ("freshnessWindow", .num proof.freshnessWindow)]))

def clockSkewToleranceMs : ℚ := 5000

/-- The invariants of versions, identifier and window. -/
def checkFields (validated : ResolverFreshnessProof) : RfpProgram ω Unit := do
  refuseIf (validated.rfpVersion ≠ "1.0.0") .versionUnsupported
    ("rfpVersion must be \"1.0.0\", got: " ++ validated.rfpVersion) validated.resolverDid
  refuseIf (validated.cspVersion ≠ "1.0.0") .cspVersionMismatch
    ("cspVersion must be \"1.0.0\", got: " ++ validated.cspVersion) validated.resolverDid
  refuseIf ("did:".toList.isPrefixOf validated.resolverDid.toList = false) .resolverDidInvalid
    ("resolverDid must start with \"did:\", got: " ++ validated.resolverDid) validated.resolverDid
  refuseIf (isWindow validated.freshnessWindow = false)
    (if 3600000 < validated.freshnessWindow then .freshnessWindowExcessive
      else .freshnessWindowInvalid)
    ("freshnessWindow must be integer in [1000, 3600000], got: " ++
      numberText P validated.freshnessWindow) validated.resolverDid

/-- The key is the one of the resolver that the proof names. -/
def checkSignature (validated : ResolverFreshnessProof) : RfpProgram ω Unit := do
  match ← Program.ask (P.resolvePublicKey validated.resolverDid) with
  | none =>
      rfpError .resolverUnreachable
        ("Cannot resolve public key for resolverDid: " ++ validated.resolverDid)
        (some validated.resolverDid)
  | some resolverPublicKey => do
      Program.emit ⟨validated.resolverDid, resolverPublicKey⟩
      let publicKeyB64 := Crypto.toBase64Url resolverPublicKey
      let sigValid := P.verify (signPayload P validated) validated.signature publicKeyB64
      refuseIf (sigValid.getD false = false) .signatureInvalid
        ("Ed25519 signature verification failed for resolverDid: " ++ validated.resolverDid)
        validated.resolverDid

def verifyResolverFreshness (rfp : Json) (nowMs : ℚ) : RfpProgram ω ResolverFreshnessProof := do
  let validated ← validateRfpSchema P rfp
  checkFields P validated
  match P.dateParse validated.asOfTime with
  | none =>
      rfpError .proofIncomplete
        ("asOfTime is not a valid ISO 8601 date: " ++ validated.asOfTime)
        (some validated.resolverDid)
  | some asOfMs => do
      refuseIf (nowMs + clockSkewToleranceMs < asOfMs) .asofFuture
        ("asOfTime " ++ validated.asOfTime ++ " exceeds current time + 5s tolerance (nowMs=" ++
          numberText P nowMs ++ ")") validated.resolverDid
      checkSignature P validated
      refuseIf (validated.freshnessWindow < nowMs - asOfMs) .freshnessExpired
        ("RFP is stale: ageMs=" ++ numberText P (nowMs - asOfMs) ++ " > freshnessWindow=" ++
          numberText P validated.freshnessWindow ++ " (resolverDid: " ++
          validated.resolverDid ++ ")") validated.resolverDid
      return validated

/-- The wrapper for consumers; `none` for a payload that may be missing and is. -/
def verifyRfpForConsumer (rfpPayload : Json) (options : RfpConsumerOptions) (nowMs : ℚ) :
    RfpProgram ω (Option ResolverFreshnessProof) :=
  match rfpPayload with
  | .null =>
      if options.requireRfp then rfpError .proofIncomplete
        "RFP is required but not provided by resolver (requireRfp=true)"
      else pure none
  | rfpPayload => do
      let verified ← verifyResolverFreshness P rfpPayload nowMs
      refuseIf (numberLt options.maxAllowedFreshnessWindowMs (.finite verified.freshnessWindow))
        .freshnessWindowExcessive
        ("freshnessWindow " ++ numberText P verified.freshnessWindow ++
          "ms exceeds consumer maxAllowed " ++
          jsNumberText P options.maxAllowedFreshnessWindowMs ++ "ms") verified.resolverDid
      return some verified

/-! ## The quorum -/

/-- One node, isolated from the failures of the others. -/
def verifyNode (options : RfpConsumerOptions) (nowMs : ℚ) (node : QuorumNode) :
    RfpProgram ω NodeRfpResult :=
  tryCatch
    (do
      let rfpVerified ← verifyRfpForConsumer P node.rfpPayload options nowMs
      return ⟨node.nodeId, node.resolverDid, rfpVerified, none⟩)
    fun
      | .rfp error => pure ⟨node.nodeId, node.resolverDid, none, some error⟩
      | .thrown text => pure ⟨node.nodeId, node.resolverDid, none, some
          ⟨.resolverUnreachable, "Unexpected error during RFP verification: " ++ text,
            some node.resolverDid⟩⟩

def verifyNodes (options : RfpConsumerOptions) (nowMs : ℚ) :
    List QuorumNode → RfpProgram ω (List NodeRfpResult)
  | [] => pure []
  | node :: nodes => do
      let result ← verifyNode P options nowMs node
      let results ← verifyNodes options nowMs nodes
      return result :: results

def validNodes (results : List NodeRfpResult) : List NodeRfpResult :=
  results.filter fun result => result.rfpVerified.isSome

def verifyQuorumFreshness (nodes : List QuorumNode) (quorumThreshold : JsNumber)
    (options : RfpConsumerOptions) (nowMs : ℚ) :
    RfpProgram ω (List NodeRfpResult) := do
  let results ← verifyNodes P options nowMs nodes
  let validCount := (validNodes results).length
  if numberLt (.finite validCount) quorumThreshold then
    rfpError .quorumFreshnessUnmet
      ("Quorum freshness unmet: " ++ toString validCount ++ " valid RFPs < threshold " ++
 
        jsNumberText P quorumThreshold ++ " (total nodes: " ++ toString nodes.length ++ ")")
  else return results

/-! ## What a verified proof has passed -/

variable {P} {options : RfpConsumerOptions} {nowMs : ℚ} {w w' : ω}
  {events events' : List KeyResolved} {payload : Json} {proof : ResolverFreshnessProof}

@[simp] theorem run_refuseIf_eq_ok {condition : Prop} [Decidable condition] {code : RfpErrorCode}
    {detail resolverDid : String} {u : Unit} :
    (refuseIf condition code detail resolverDid : RfpProgram ω Unit).run w = ⟨.ok u, w', events⟩ ↔
      ¬ condition ∧ w = w' ∧ [] = events := by
  unfold refuseIf
  split
  next h => simp [rfpError, h]
  next h => simp [h]

/-- A proof in the payload that is fresh, and signed with the key that was looked up for
the resolver it names. -/
structure VerifiedProof (P : RfpPorts ω) (nowMs : ℚ) (events : List KeyResolved) (payload : Json)
    (proof : ResolverFreshnessProof) : Prop where
  read : readRfp payload = some proof
  valid : proof.isValid = true
  signed : ∃ publicKey, ⟨proof.resolverDid, publicKey⟩ ∈ events ∧
    P.verify (signPayload P proof) proof.signature (Crypto.toBase64Url publicKey) = some true
  fresh : ∃ asOfMs, P.dateParse proof.asOfTime = some asOfMs ∧
    asOfMs ≤ nowMs + clockSkewToleranceMs ∧ nowMs - asOfMs ≤ proof.freshnessWindow

theorem VerifiedProof.mono (h : VerifiedProof P nowMs events payload proof)
    (hsub : ∀ event ∈ events, event ∈ events') : VerifiedProof P nowMs events' payload proof := by
  obtain ⟨publicKey, hresolved, hverify⟩ := h.signed
  exact ⟨h.read, h.valid, ⟨publicKey, hsub _ hresolved, hverify⟩, h.fresh⟩

theorem validateRfpSchema_ok
    (h : (validateRfpSchema P payload).run w = ⟨.ok proof, w', events⟩) :
    readRfp payload = some proof ∧ proof.isValid = true := by
  unfold validateRfpSchema at h
  split at h
  next proof' hread =>
    simp only [Program.run_pure_eq_ok] at h
    obtain ⟨rfl, -, -⟩ := h
    obtain ⟨hread, hvalid⟩ := Option.filter_eq_some_iff.mp hread
    rw [Bool.and_eq_true] at hvalid
    exact ⟨hread, hvalid.1⟩
  next => simp [rfpError] at h

theorem checkSignature_ok {u : Unit}
    (h : (checkSignature P proof).run w = ⟨.ok u, w', events⟩) :
    ∃ publicKey, ⟨proof.resolverDid, publicKey⟩ ∈ events ∧
      P.verify (signPayload P proof) proof.signature (Crypto.toBase64Url publicKey) =
        some true := by
  simp only [checkSignature, Program.run_bind_eq_ok, Program.run_ask_eq_ok] at h
  obtain ⟨answer, w₁, first, rest, ⟨-, rfl⟩, hrest, rfl⟩ := h
  cases answer with
  | none => simp [rfpError] at hrest
  | some publicKey =>
      simp only [Program.run_bind_eq_ok, Program.run_emit_eq_ok, run_refuseIf_eq_ok] at hrest
      obtain ⟨-, w₂, first, rest, ⟨-, rfl⟩, ⟨hvalid, -, rfl⟩, rfl⟩ := hrest
      refine ⟨publicKey, by simp, ?_⟩
      cases hverify : P.verify (signPayload P proof) proof.signature
          (Crypto.toBase64Url publicKey) with
      | none => simp [hverify] at hvalid
      | some valid => simpa [hverify] using hvalid

theorem verifyResolverFreshness_ok
    (h : (verifyResolverFreshness P payload nowMs).run w = ⟨.ok proof, w', events⟩) :
    VerifiedProof P nowMs events payload proof := by
  simp only [verifyResolverFreshness, Program.run_bind_eq_ok] at h
  obtain ⟨validated, w₁, schema, _, hschema, ⟨-, w₂, checks, _, -, hrest, rfl⟩, rfl⟩ := h
  obtain ⟨hread, hvalid⟩ := validateRfpSchema_ok hschema
  cases hdate : P.dateParse validated.asOfTime with
  | none => simp [hdate, rfpError] at hrest
  | some asOfMs =>
      simp only [hdate, Program.run_bind_eq_ok, run_refuseIf_eq_ok, Program.run_pure_eq_ok] at hrest
      obtain ⟨-, _, _, _, ⟨hfuture, -, rfl⟩, ⟨_, _, lookup, _, hsignature, ⟨-, _, _, _,
        ⟨hstale, -, rfl⟩, ⟨rfl, -, rfl⟩, rfl⟩, rfl⟩, rfl⟩ := hrest
      obtain ⟨publicKey, hresolved, hverify⟩ := checkSignature_ok hsignature
      exact ⟨hread, hvalid, ⟨publicKey, by simp [hresolved], hverify⟩,
        asOfMs, hdate, not_lt.mp hfuture, not_lt.mp hstale⟩

theorem verifyRfpForConsumer_ok
    (h : (verifyRfpForConsumer P payload options nowMs).run w = ⟨.ok (some proof), w', events⟩) :
    VerifiedProof P nowMs events payload proof := by
  unfold verifyRfpForConsumer at h
  split at h
  next =>
    split at h
    next => simp [rfpError] at h
    next => simp at h
  next =>
    simp only [Program.run_bind_eq_ok, run_refuseIf_eq_ok, Program.run_pure_eq_ok] at h
    obtain ⟨verified, _, first, _, hverified, ⟨-, _, _, _, ⟨-, -, rfl⟩, ⟨hsome, -, rfl⟩, rfl⟩,
      rfl⟩ := h
    obtain rfl := Option.some.inj hsome
    exact (verifyResolverFreshness_ok hverified).mono fun event hevent => by simp [hevent]

/-! ## The count -/

/-- The result of a node is reported under its own names, whatever its payload names. -/
structure ReportsNode (P : RfpPorts ω) (nowMs : ℚ) (events : List KeyResolved) (node : QuorumNode)
    (result : NodeRfpResult) : Prop where
  nodeId : result.nodeId = node.nodeId
  resolverDid : result.resolverDid = node.resolverDid
  verified : ∀ proof, result.rfpVerified = some proof →
    VerifiedProof P nowMs events node.rfpPayload proof

theorem ReportsNode.mono {node : QuorumNode} {result : NodeRfpResult}
    (h : ReportsNode P nowMs events node result) (hsub : ∀ event ∈ events, event ∈ events') :
    ReportsNode P nowMs events' node result :=
  ⟨h.nodeId, h.resolverDid, fun proof hproof => (h.verified proof hproof).mono hsub⟩

theorem verifyNode_ok {node : QuorumNode} {result : NodeRfpResult}
    (h : (verifyNode P options nowMs node).run w = ⟨.ok result, w', events⟩) :
    ReportsNode P nowMs events node result := by
  rcases Program.run_tryCatch_eq_ok h with hbody | ⟨fault, _, _, _, -, hhandler, -⟩
  · simp only [Program.run_bind_eq_ok, Program.run_pure_eq_ok] at hbody
    obtain ⟨rfpVerified, _, first, _, hverified, ⟨rfl, -, rfl⟩, rfl⟩ := hbody
    refine ⟨rfl, rfl, ?_⟩
    rintro proof rfl
    exact (verifyRfpForConsumer_ok hverified).mono fun event hevent => by simp [hevent]
  · cases fault <;>
    · simp only [Program.run_pure_eq_ok] at hhandler
      obtain ⟨rfl, -, -⟩ := hhandler
      exact ⟨rfl, rfl, by simp⟩

theorem verifyNodes_ok {nodes : List QuorumNode} {results : List NodeRfpResult}
    (h : (verifyNodes P options nowMs nodes).run w = ⟨.ok results, w', events⟩) :
    List.Forall₂ (ReportsNode P nowMs events) nodes results := by
  induction nodes generalizing results w w' events with
  | nil =>
      simp only [verifyNodes, Program.run_pure_eq_ok] at h
      rw [← h.1]
      exact .nil
  | cons node nodes ih =>
      simp only [verifyNodes, Program.run_bind_eq_ok, Program.run_pure_eq_ok] at h
      obtain ⟨result, _, first, _, hresult, ⟨rest, _, more, _, hrest, ⟨rfl, -, rfl⟩, rfl⟩, rfl⟩ := h
      refine .cons ((verifyNode_ok hresult).mono fun _ => List.mem_append_left _) ?_
      exact (ih hrest).imp fun _ _ hother => hother.mono fun event hevent => by simp [hevent]

/-- The nodes behind the valid results. -/
theorem exists_nodes_of_results {nodes : List QuorumNode} {results : List NodeRfpResult}
    (h : List.Forall₂ (ReportsNode P nowMs events) nodes results) :
    ∃ counted : List QuorumNode, counted.Sublist nodes ∧
      counted.length = (validNodes results).length ∧
      ∀ node ∈ counted, ∃ proof, VerifiedProof P nowMs events node.rfpPayload proof := by
  induction h with
  | nil => exact ⟨[], .slnil, rfl, by simp⟩
  | @cons node result nodes results hnode _ ih =>
      obtain ⟨counted, hsublist, hlength, hverified⟩ := ih
      cases hresult : result.rfpVerified with
      | none =>
          refine ⟨counted, hsublist.cons node, ?_, hverified⟩
          simp [validNodes, hresult, hlength]
      | some proof =>
          refine ⟨node :: counted, hsublist.cons_cons node, ?_, ?_⟩
          · simpa [validNodes, hresult] using hlength
          · exact List.forall_mem_cons.mpr ⟨⟨proof, hnode.verified proof hresult⟩, hverified⟩

/-- The node presents no proof of another resolver. -/
def QuorumNode.PresentsOwn (node : QuorumNode) : Prop :=
  ∀ proof, readRfp node.rfpPayload = some proof → proof.resolverDid = node.resolverDid

/-- When a quorum of `k` is met, at least `k` nodes of the list carry a fresh proof that is
signed by the resolver that the proof names; this is the resolver of the node, unless the node
presents the proof of another one. The nodes are counted by their place in the list. -/
theorem verifyQuorumFreshness_counts_nodes {nodes : List QuorumNode}
    {results : List NodeRfpResult} {k : ℚ}
    (h : (verifyQuorumFreshness P nodes (.finite k) options nowMs).run w =
      ⟨.ok results, w', events⟩) :
    List.Forall₂ (ReportsNode P nowMs events) nodes results ∧
      ∃ counted : List QuorumNode, counted.Sublist nodes ∧ k ≤ counted.length ∧
        ∀ node ∈ counted, ∃ proof, VerifiedProof P nowMs events node.rfpPayload proof ∧
          (node.PresentsOwn → proof.resolverDid = node.resolverDid) := by
  simp only [verifyQuorumFreshness, Program.run_bind_eq_ok] at h
  obtain ⟨results', _, first, rest, hresults, hreturn, rfl⟩ := h
  split at hreturn
  next => simp [rfpError] at hreturn
  next hmet =>
    simp only [Program.run_pure_eq_ok] at hreturn
    obtain ⟨rfl, -, rfl⟩ := hreturn
    rw [List.append_nil]
    have hreports := verifyNodes_ok hresults
    obtain ⟨counted, hsublist, hlength, hverified⟩ := exists_nodes_of_results hreports
    refine ⟨hreports, counted, hsublist, ?_, fun node hnode => ?_⟩
    · rw [hlength]
      exact not_lt.mp hmet
    · obtain ⟨proof, hproof⟩ := hverified node hnode
      exact ⟨proof, hproof, fun hown => hown proof hproof.read⟩

/-! ## One resolver behind several nodes -/

/-- At least `k` nodes with different resolvers, each with a fresh proof of its own. -/
def DistinctResolvers (P : RfpPorts ω) (nowMs : ℚ) (events : List KeyResolved)
    (nodes : List QuorumNode) (k : ℚ) : Prop :=
  ∃ counted : List QuorumNode, counted.Sublist nodes ∧
    (counted.map QuorumNode.resolverDid).Nodup ∧ k ≤ counted.length ∧
      ∀ node ∈ counted, ∃ proof, VerifiedProof P nowMs events node.rfpPayload proof ∧
        proof.resolverDid = node.resolverDid

namespace OneResolver

def publicKey : List UInt8 :=
  [3, 161, 7, 191, 243, 206, 16, 190, 29, 112, 221, 24, 231, 75, 192, 153, 103, 228, 214, 48, 155,
    165, 13, 95, 29, 220, 134, 100, 18, 85, 49, 184]

def issued : ResolverFreshnessProof where
  rfpVersion := "1.0.0"
  cspVersion := "1.0.0"
  resolverDid := "did:example:resolver001"
  asOfTime := "2026-06-20T12:00:00.000Z"
  freshnessWindow := 300000
  signature :=
    "DuZqc4YD1oaRF2i5y6NFCIZbOWMGH4jJXFVJzzyXsV-9zaQcmgIfmyFSq_jjjJlXHsNAuXVuxJxuQ07SjjbiDw"

def issuedPayload : Json :=
  .obj [("rfpVersion", .str issued.rfpVersion), ("cspVersion", .str issued.cspVersion),
    ("resolverDid", .str issued.resolverDid), ("asOfTime", .str issued.asOfTime),
    ("freshnessWindow", .num issued.freshnessWindow), ("signature", .str issued.signature)]

/-- The lookup knows one resolver, and nothing but its proof is signed. -/
def ports : RfpPorts Unit where
  numberFormat := NumberFormat.decimal
  verify _ signature _ := some (signature == issued.signature)
  resolvePublicKey resolverDid w :=
    (.ok (if resolverDid = issued.resolverDid then some publicKey else none), w)
  dateParse := Calendar.getTime
  schemaIssue _ := "must be object at "

def nodes : List QuorumNode :=
  [⟨"node-1", issued.resolverDid, issuedPayload⟩, ⟨"node-2", issued.resolverDid, issuedPayload⟩,
    ⟨"node-3", issued.resolverDid, issuedPayload⟩]

/-- One minute after the proof was made. -/
def minuteLater : ℚ := 1781956860000

def execution : Execution Unit KeyResolved RfpFault (List NodeRfpResult) :=
  (verifyQuorumFreshness ports nodes (.finite 2) {} minuteLater).run ()

theorem returned : ∃ results events, execution = ⟨.ok results, (), events⟩ ∧
    (validNodes results).length = 3 := by
  have hany : execution.result.toOption.any (fun results =>
      (validNodes results).length = 3) = true := by decide +kernel
  obtain ⟨results, hresults, hcount⟩ := exists_ok_of_any hany
  exact ⟨results, execution.events, Execution.eq_of_result hresults, by simpa using hcount⟩

/-- One proof, presented by three nodes, counts three times. -/
theorem replayed_proof_counts :
    ¬ ∀ (nodes : List QuorumNode) (k : ℚ) (options : RfpConsumerOptions)
      (results : List NodeRfpResult) (events : List KeyResolved),
        (verifyQuorumFreshness ports nodes (.finite k) options minuteLater).run () =
          ⟨.ok results, (), events⟩ → DistinctResolvers ports minuteLater events nodes k := by
  intro h
  obtain ⟨results, events, hrun, -⟩ := returned
  obtain ⟨counted, hsublist, hnodup, hcount, -⟩ := h nodes 2 {} results events hrun
  have hsame : ∀ resolverDid ∈ counted.map QuorumNode.resolverDid,
      resolverDid = issued.resolverDid := by
    intro resolverDid hmem
    obtain ⟨node, hnode, rfl⟩ := List.mem_map.mp hmem
    have hlisted := hsublist.subset hnode
    simp only [nodes, List.mem_cons, List.not_mem_nil, or_false] at hlisted
    rcases hlisted with rfl | rfl | rfl <;> rfl
  have hone : counted.length ≤ 1 := by
    have hperm := List.nodup_replicate.mp
      (List.eq_replicate_of_mem hsame ▸ hnodup)
    simpa using hperm
  have htwo : (2 : ℚ) ≤ (1 : ℕ) := hcount.trans (by exact_mod_cast hone)
  norm_num at htwo

theorem nodes_presentOwn : ∀ node ∈ nodes, node.PresentsOwn := by
  have hread : readRfp issuedPayload = some issued := by decide +kernel
  intro node hnode proof hproof
  simp only [nodes, List.mem_cons, List.not_mem_nil, or_false] at hnode
  rcases hnode with rfl | rfl | rfl <;>
  · obtain rfl := Option.some.inj (hread.symm.trans hproof)
    rfl

theorem three_nodes_counted : ∃ (events : List KeyResolved) (counted : List QuorumNode),
    counted.Sublist nodes ∧ (2 : ℚ) ≤ counted.length ∧ ∀ node ∈ counted, ∃ proof,
      VerifiedProof ports minuteLater events node.rfpPayload proof ∧
        proof.resolverDid = node.resolverDid := by
  obtain ⟨results, events, hrun, -⟩ := returned
  obtain ⟨-, counted, hsublist, hcount, hverified⟩ := verifyQuorumFreshness_counts_nodes hrun
  refine ⟨events, counted, hsublist, hcount, fun node hnode => ?_⟩
  obtain ⟨proof, hproof, hnamed⟩ := hverified node hnode
  exact ⟨proof, hproof, hnamed (nodes_presentOwn node (hsublist.subset hnode))⟩

end OneResolver

end Coivitas.Identity.Freshness
