import Coivitas.Identity.MultisigIssuance

/-! # Issuer and verifier of multisig tokens

They agree on an input when the factory takes it and a quorum of its signatures is all of them.
-/

namespace Coivitas.Identity.MultisigCredentials

open Foundation Crypto Crypto.Multisig

/-- The schema compiled by the validator is the schema. -/
def ChecksSchema (P : CredentialPorts) (F : FormatPorts) : Prop :=
  ∀ token, P.validateMultisigToken token = none ↔ token.fitsSchema F = true

/-- The verifier expects the payload's own audience and challenge, and the payload is valid for
longer than the window that it asks for. -/
structure Presented (P : CredentialPorts) (csp : Json) (options : VerifyMultisigTokenOptions) :
    Prop where
  audience : member? "audience" csp = some (.str options.expectedAudience)
  challenge : member? "challenge" csp = some (.str options.expectedChallenge)
  before : ∃ cspNotAfter notAfter, member? "notAfter" csp = some (.str cspNotAfter) ∧
    P.getTime cspNotAfter = some notAfter ∧
    (options.now : ℚ) + options.minValidityWindowMs < notAfter

/-- Issuer and verifier agree. -/
structure Agrees (P : CredentialPorts) (input : IssueMultisigTokenInput) : Prop where
  issued : (∀ signer ∈ input.signers, signer.KeysMatch P) →
    ∃ token, issueMultisigToken P input = .ok token
  accepted : ∀ token, issueMultisigToken P input = .ok token →
    ∀ options, Presented P token.csp options →
      ∃ result, verifyMultisigToken P token options = .ok result

section Building

variable {P : CredentialPorts} {F : FormatPorts} {input : IssueMultisigTokenInput}
  {token : MultisigToken} {tree : MerkleTree}

theorem textMember_eq_ok {name text : String} {code : MultisigErrorCode} {csp : Json} :
    textMember name code csp = .ok text ↔ member? name csp = some (.str text) := by
  unfold textMember
  split
  next other hmember => rw [hmember]; simp
  next hnot => simpa using fun hmember => hnot text hmember

theorem expected_ne {csp : Json} (hcsp : isSignedPayload F csp = true) {options}
    (hpresented : Presented P csp options) :
    options.expectedAudience ≠ "" ∧ options.expectedChallenge ≠ "" := by
  simp only [isSignedPayload, Bool.and_eq_true] at hcsp
  obtain ⟨⟨⟨-, hchallenge⟩, haudience⟩, -⟩ := hcsp
  obtain ⟨audience, hmember, hallowed⟩ := member_of_hasMember haudience
  obtain ⟨challenge, hother, huuid⟩ := member_of_hasMember hchallenge
  obtain rfl : audience = options.expectedAudience := by
    simpa using hmember.symm.trans hpresented.audience
  obtain rfl : challenge = options.expectedChallenge := by
    simpa using hother.symm.trans hpresented.challenge
  constructor
  · intro hempty
    rw [hempty] at hallowed
    simp [isAudience, isDidText, isHttpsText] at hallowed
  · intro hempty
    rw [hempty, isChallenge, Bool.and_eq_true] at huuid
    exact absurd huuid.2 (by decide)

theorem Built.accepted (h : Built P input token tree) (hvalid : ValidInput F input)
    (hlaw : CurveLaw P) (hschema : ChecksSchema P F) (hplural : 2 ≤ input.signers.length)
    (hunanimous : ∀ signer ∈ input.signers, keyVerifies P (input.message P) signer = true)
    {options : VerifyMultisigTokenOptions} (hpresented : Presented P token.csp options) :
    ∃ result, verifyMultisigToken P token options = .ok result := by
  have hcsp : isSignedPayload F token.csp = true := h.csp ▸ hvalid.csp
  have hallowed : checkSchema P.toMultisigPorts token options.enforceFullSchema = .ok () := by
    unfold checkSchema
    split
    · exact refuse_eq_ok.mpr ((hschema token).mpr (h.fitsSchema hvalid hlaw hplural))
    · rfl
  have hcommitted := h.committed hvalid hplural hunanimous
  have hproof : verifyMultisigProof P.toMultisigPorts token ⟨options.enforceFullSchema,
      some (canonicalSerialize P.numberFormat token.csp)⟩ = .ok _ :=
    hcommitted.accepted hallowed (by rw [IssueMultisigTokenInput.message, h.csp]; rfl)
  obtain ⟨haudience, hchallenge⟩ := expected_ne hcsp hpresented
  obtain ⟨cspNotAfter, notAfter, hmember, htime, hbefore⟩ := hpresented.before
  have hnotAfter : checkNotAfter P cspNotAfter options = .ok () := by
    simp only [checkNotAfter, htime]
    exact require_eq_ok.mpr (not_le.mpr hbefore)
  simp only [verifyMultisigToken, bind_eq_ok, exists_unit, require_eq_ok, pure_eq_ok]
  exact ⟨_, haudience, hchallenge, isRecord_of_isSignedPayload hcsp, _,
    textMember_eq_ok.mpr hpresented.challenge, rfl, _, textMember_eq_ok.mpr hpresented.audience,
    rfl, _, textMember_eq_ok.mpr hmember, hnotAfter, _, hproof, rfl⟩

theorem issueMultisigToken_eq_ok (hvalid : ValidInput F input) (hlaw : CurveLaw P) :
    issueMultisigToken P input = .ok token ↔ buildToken P input = .ok token ∧ Issuable input := by
  simp only [issueMultisigToken, bind_eq_ok, mapError_eq_ok]
  constructor
  · rintro ⟨draft, hdraft, hcreated⟩
    obtain ⟨tree, hbuilt⟩ := built_of_buildToken hdraft
    obtain ⟨hissuable, rfl⟩ := (hbuilt.created_iff hvalid hlaw).mp hcreated
    exact ⟨hdraft, hissuable⟩
  · rintro ⟨hdraft, hissuable⟩
    obtain ⟨tree, hbuilt⟩ := built_of_buildToken hdraft
    exact ⟨token, hdraft, (hbuilt.created_iff hvalid hlaw).mpr ⟨hissuable, rfl⟩⟩

/-- The factory takes an input with matching keys, and a quorum of signatures is all of them where
the payload can be presented at all. -/
structure IssuesVerifiable (P : CredentialPorts) (input : IssueMultisigTokenInput) : Prop where
  issuable : (∀ signer ∈ input.signers, signer.KeysMatch P) → Issuable input
  unanimous : Issuable input → (∀ signer ∈ input.signers, signer.KeysRead) →
    input.threshold ≤ (input.signers.countP (keyVerifies P (input.message P)) : ℚ) →
    (∃ cspNotAfter, member? "notAfter" input.csp = some (.str cspNotAfter) ∧
      (P.getTime cspNotAfter).isSome = true) →
    ∀ signer ∈ input.signers, keyVerifies P (input.message P) signer = true

/-- Options that present a payload whose end is a time. -/
theorem exists_presented {csp : Json} (hcsp : isSignedPayload F csp = true) {cspNotAfter : String}
    (hmember : member? "notAfter" csp = some (.str cspNotAfter))
    (htime : (P.getTime cspNotAfter).isSome = true) : ∃ options, Presented P csp options := by
  obtain ⟨notAfter, hnotAfter⟩ := Option.isSome_iff_exists.mp htime
  simp only [isSignedPayload, Bool.and_eq_true] at hcsp
  obtain ⟨⟨⟨-, hchallenge⟩, haudience⟩, -⟩ := hcsp
  obtain ⟨audience, haudience, -⟩ := member_of_hasMember haudience
  obtain ⟨challenge, hchallenge, -⟩ := member_of_hasMember hchallenge
  refine ⟨⟨audience, challenge, notAfter - 1001, 1000, true⟩, haudience, hchallenge,
    cspNotAfter, notAfter, hmember, hnotAfter, ?_⟩
  push_cast
  linarith

theorem issueMultisigToken_agreement (hvalid : ValidInput F input) (hlaw : CurveLaw P)
    (hschema : ChecksSchema P F) : Agrees P input ↔ IssuesVerifiable P input := by
  constructor
  · intro hagrees
    constructor
    · intro hmatch
      obtain ⟨token, htoken⟩ := hagrees.issued hmatch
      exact ((issueMultisigToken_eq_ok hvalid hlaw).mp htoken).2
    · rintro hissuable hread hquorum ⟨cspNotAfter, hmember, htime⟩
      obtain ⟨token, hdraft⟩ := exists_built hvalid hlaw hread hquorum
      obtain ⟨tree, hbuilt⟩ := built_of_buildToken hdraft
      obtain ⟨options, hpresented⟩ := exists_presented hvalid.csp hmember htime
      obtain ⟨result, haccepted⟩ := hagrees.accepted token
        ((issueMultisigToken_eq_ok hvalid hlaw).mpr ⟨hdraft, hissuable⟩) options
        (hbuilt.csp ▸ hpresented)
      exact hbuilt.unanimous_of_accepted hlaw haccepted
  · intro hverifiable
    constructor
    · intro hmatch
      have hall : ∀ signer ∈ input.signers, keyVerifies P (input.message P) signer = true :=
        fun signer hsigner => keyVerifies_of_keysMatch hlaw (hmatch signer hsigner)
      obtain ⟨token, hdraft⟩ := exists_built hvalid hlaw
        (fun signer hsigner => keysRead_of_keysMatch hlaw (hmatch signer hsigner))
        (by rw [List.countP_eq_length.mpr hall]; exact hvalid.enough)
      exact ⟨token, (issueMultisigToken_eq_ok hvalid hlaw).mpr
        ⟨hdraft, hverifiable.issuable hmatch⟩⟩
    · intro token htoken options hpresented
      obtain ⟨hdraft, hissuable⟩ := (issueMultisigToken_eq_ok hvalid hlaw).mp htoken
      obtain ⟨tree, hbuilt⟩ := built_of_buildToken hdraft
      have hnotAfter := hpresented.before
      obtain ⟨cspNotAfter, notAfter, hmember, htime, -⟩ := hnotAfter
      refine hbuilt.accepted hvalid hlaw hschema hissuable.plural ?_ hpresented
      refine hverifiable.unanimous hissuable hbuilt.read hbuilt.quorum
        ⟨cspNotAfter, hbuilt.csp ▸ hmember, ?_⟩
      rw [htime]
      rfl

end Building

/-! ## The editors' payload -/

namespace Editorial

open Crypto.Multisig.Editorial (csp editor writer)

def editorKeys : SignerKeyMaterial :=
  ⟨"did:key:editor", .human, editor.publicKey,
    "5c837f3a55605558d46009722323aad8a195c81f4074518c3fbaf5b6524a1f31"⟩

def writerKeys : SignerKeyMaterial :=
  ⟨"did:key:writer", .agent, writer.publicKey,
    "e94aa039b83357a3856dabd8706ae972b57d187a8258644f69fb969cce154451"⟩

def bytesOf (text : String) : List UInt8 := (normalizeKey text).getD []

def signerOf (seed : List UInt8) : Option SignerInfo :=
  if seed = bytesOf editorKeys.privateKey then some editor
  else if seed = bytesOf writerKeys.privateKey then some writer
  else none

def message : List UInt8 := canonicalSerialize NumberFormat.decimal csp

def getPublicKey (seed : List UInt8) : List UInt8 :=
  ((signerOf seed).map fun signer => bytesOf signer.publicKey).getD seed

def formats : FormatPorts where
  uuidFormat := isUuidV4
  dateTimeFormat := fun text => (Calendar.getTime text).isSome
  uriFormat := fun text => isDidText text || isHttpsText text

/-- The signatures of both keys over the payload, and of other keys and payloads the key twice. -/
def ports : CredentialPorts where
  numberFormat := NumberFormat.decimal
  validateMultisigToken := fun token => if token.fitsSchema formats = true then none else some []
  ed25519Verify := fun signature signed key =>
    some (decide ((signed = message ∧ ∃ signer ∈ [editor, writer],
      bytesOf signer.signature = signature ∧ bytesOf signer.publicKey = key) ∨
        signature = key ++ key))
  ed25519Sign := fun signed seed =>
    match signerOf seed with
    | some signer => if signed = message then some (bytesOf signer.signature)
        else some (getPublicKey seed ++ getPublicKey seed)
    | none => some (getPublicKey seed ++ getPublicKey seed)
  getPublicKey := getPublicKey
  getTime := Calendar.getTime

def single : IssueMultisigTokenInput := ⟨[editorKeys], 1, csp, none, by decide⟩

def both : IssueMultisigTokenInput := ⟨[editorKeys, writerKeys], 2, csp, none, by decide⟩

theorem signerOf_eq_some {seed : List UInt8} {signer : SignerInfo}
    (h : signerOf seed = some signer) : signer ∈ [editor, writer] := by
  unfold signerOf at h
  split at h
  next => exact Option.some.inj h ▸ List.mem_cons_self
  next =>
    split at h
    next => exact Option.some.inj h ▸ List.mem_cons_of_mem _ List.mem_cons_self
    next => cases h

theorem read_bytesOf {text : String} {n : Nat}
    (h : (normalizeKey text).map List.length = some n) :
    normalizeKey text = some (bytesOf text) ∧ (bytesOf text).length = n := by
  obtain ⟨bytes, hbytes, rfl⟩ := Option.map_eq_some_iff.mp h
  rw [bytesOf, hbytes]
  exact ⟨rfl, rfl⟩

theorem length_bytesOf {signer : SignerInfo} (h : signer ∈ [editor, writer]) :
    (bytesOf signer.signature).length = 64 ∧ (bytesOf signer.publicKey).length = 32 := by
  have hlengths := Crypto.Multisig.Editorial.length_signers
  rcases List.mem_cons.mp h with rfl | h
  · exact ⟨(read_bytesOf hlengths.1.1).2, (read_bytesOf hlengths.1.2).2⟩
  · obtain rfl := List.mem_singleton.mp h
    exact ⟨(read_bytesOf hlengths.2.1).2, (read_bytesOf hlengths.2.2).2⟩

theorem length_getPublicKey {seed : List UInt8} (hseed : seed.length = 32) :
    (getPublicKey seed).length = 32 := by
  unfold getPublicKey
  cases hsigner : signerOf seed with
  | none => exact hseed
  | some signer => exact (length_bytesOf (signerOf_eq_some hsigner)).2

theorem curveLaw : CurveLaw ports := by
  refine ⟨fun seed hseed => length_getPublicKey hseed, fun signed seed hseed => ?_⟩
  have hkey := length_getPublicKey hseed
  have hother : ∃ signature, some (getPublicKey seed ++ getPublicKey seed) = some signature ∧
      signature.length = 64 ∧
        ports.ed25519Verify signature signed (getPublicKey seed) = some true :=
    ⟨_, rfl, by rw [List.length_append, hkey],
      congrArg some (decide_eq_true (Or.inr rfl))⟩
  show ∃ signature, (match signerOf seed with
    | some signer => if signed = message then some (bytesOf signer.signature)
        else some (getPublicKey seed ++ getPublicKey seed)
    | none => some (getPublicKey seed ++ getPublicKey seed)) = some signature ∧ _
  split
  next signer hsigner =>
    split
    next hsigned =>
      have hmem := signerOf_eq_some hsigner
      refine ⟨_, rfl, (length_bytesOf hmem).1,
        congrArg some (decide_eq_true (Or.inl ⟨hsigned, signer, hmem, rfl, ?_⟩))⟩
      show bytesOf signer.publicKey = getPublicKey seed
      rw [getPublicKey, hsigner]
      rfl
    next => exact hother
  next => exact hother

theorem checksSchema : ChecksSchema ports formats := by
  intro token
  show (if token.fitsSchema formats = true then none else some []) = none ↔ _
  split <;> simp_all

theorem privateKeys :
    (normalizeKey editorKeys.privateKey).map List.length = some 32 ∧
      (normalizeKey writerKeys.privateKey).map List.length = some 32 ∧
      normalizeKey writerKeys.privateKey ≠ normalizeKey editorKeys.privateKey := by
  rw [show normalizeKey editorKeys.privateKey = _ from normalizeKey_ofList _,
    show normalizeKey writerKeys.privateKey = _ from normalizeKey_ofList _]
  decide +kernel

theorem keysMatch : editorKeys.KeysMatch ports ∧ writerKeys.KeysMatch ports := by
  obtain ⟨heditor, hwriter, hdistinct⟩ := privateKeys
  have hlengths := Crypto.Multisig.Editorial.length_signers
  have hmatch : ∀ {signer : SignerKeyMaterial},
      (normalizeKey signer.privateKey).map List.length = some 32 →
      normalizeKey signer.publicKey = some (getPublicKey (bytesOf signer.privateKey)) →
      signer.KeysMatch ports := by
    intro signer hprivate hpublic
    obtain ⟨hread, hlength⟩ := read_bytesOf hprivate
    exact ⟨_, ⟨_, hread, Or.inl hlength, List.take_of_length_le hlength.le⟩, hpublic⟩
  constructor
  · refine hmatch heditor ?_
    rw [getPublicKey, signerOf, if_pos rfl, Option.map_some, Option.getD_some]
    exact (read_bytesOf hlengths.1.2).1
  · refine hmatch hwriter ?_
    have hne : bytesOf writerKeys.privateKey ≠ bytesOf editorKeys.privateKey := by
      intro hsame
      rw [(read_bytesOf heditor).1, (read_bytesOf hwriter).1, hsame] at hdistinct
      exact hdistinct rfl
    rw [getPublicKey, signerOf, if_neg hne, if_pos rfl, Option.map_some, Option.getD_some]
    exact (read_bytesOf hlengths.2.2).1

theorem isSignedPayload_csp : isSignedPayload formats csp = true := by
  decide +kernel

theorem validInput {signers : List SignerKeyMaterial} {threshold : ℕ}
    (hlength : signers.length < 2 ^ 32) (hpositive : 1 ≤ threshold)
    (henough : threshold ≤ signers.length) (hsigners : signers.Sublist [editorKeys, writerKeys]) :
    ValidInput formats ⟨signers, threshold, csp, none, hlength⟩ where
  nonempty := hpositive.trans henough
  ids := fun signer hsigner => by
    have hmem := hsigners.subset hsigner
    have hboth : ∀ signer ∈ [editorKeys, writerKeys],
        isNonEmpty signer.id = true ∧ isSignerId formats signer.id = true := by decide
    exact hboth signer hmem
  distinct := (hsigners.map SignerKeyMaterial.id).nodup (by decide)
  integer := beq_iff_eq.mpr (Rat.den_natCast threshold)
  positive := Nat.one_le_cast.mpr hpositive
  enough := Nat.cast_le.mpr henough
  csp := isSignedPayload_csp

theorem keysMatch_of_sublist {signers : List SignerKeyMaterial}
    (hsigners : signers.Sublist [editorKeys, writerKeys]) :
    ∀ signer ∈ signers, signer.KeysMatch ports := by
  intro signer hsigner
  rcases List.mem_cons.mp (hsigners.subset hsigner) with rfl | hmem
  · exact keysMatch.1
  · exact List.mem_singleton.mp hmem ▸ keysMatch.2

/-- Two signers with matching keys. -/
theorem issueMultisigToken_agreement_both : Agrees ports both := by
  refine (issueMultisigToken_agreement (validInput (by decide) (by decide) (by decide)
    (List.Sublist.refl _)) curveLaw checksSchema).mpr ⟨fun _ => ⟨?_, ?_, ?_⟩, ?_⟩
  · exact Nat.le_refl 2
  · decide
  · decide
  · intro _ _ _ _ signer hsigner
    exact keyVerifies_of_keysMatch curveLaw (keysMatch_of_sublist (List.Sublist.refl _) signer hsigner)

/-- One signer with matching keys gets no token: the path of an only leaf is empty. -/
theorem not_agrees_single : ¬ ∀ (P : CredentialPorts) (F : FormatPorts)
    (input : IssueMultisigTokenInput), CurveLaw P → ChecksSchema P F → ValidInput F input →
      Agrees P input := by
  intro hall
  have hsingle : [editorKeys].Sublist [editorKeys, writerKeys] := by simp
  have hvalid := validInput single.length_signers (le_refl 1) (le_refl 1) hsingle
  obtain ⟨token, htoken⟩ := (hall ports formats _ curveLaw checksSchema hvalid).issued
    (keysMatch_of_sublist hsingle)
  have hplural := ((issueMultisigToken_eq_ok hvalid curveLaw).mp htoken).2.plural
  exact absurd hplural (by decide)

end Editorial

end Coivitas.Identity.MultisigCredentials
