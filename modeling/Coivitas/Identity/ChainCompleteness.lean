import Coivitas.Identity.ChainShape

/-! # When a controller chain is returned

A path without repetition that stays within the depth is returned, once every check of
its nodes succeeds, the proof can be signed and its expiry is a date.
-/

namespace Coivitas.Identity.ControllerChain

open Foundation Coivitas.Types Policy Federation

section Returned

variable {ω : Type} {P : ChainPorts ω} {documents : String → Option DidDocument} {I : ω → Prop}
  {request : ControllerChainResolutionRequest} {options : Option (CcrResolverOptions ω)}
  {nodes chain : List ControllerChainNode}

/-! ## What has to succeed -/

/-- The resolver, the clock and the generator of identifiers keep the invariant; the clock
shows a date, and the identifiers are of version 4. -/
structure Runtime (P : ChainPorts ω) (I : ω → Prop) : Prop where
  resolve : ∀ did w, I w → I (P.resolve did w).2
  dateNow : ∀ w, I w → I (P.dateNow w).2
  date : ∀ w, I w → (Calendar.toISOString (P.dateNow w).1).isSome = true
  randomUUID : ∀ w, I w → I (P.randomUUID w).2
  uuid : ∀ w, I w → Crypto.isUuidV4
    (String.ofList ((P.randomUUID w).1.toList.map Char.toLower)) = true

/-- A window after whose end there still are dates. -/
def EndsAtDate (P : ChainPorts ω) (I : ω → Prop) (window : JsNumber) : Prop :=
  ∃ ms : ℚ, window = .finite ms ∧
    ∀ w, I w → (isoText (.finite ((P.dateNow w).1 + ms))).isSome = true

/-- The four checks of a node succeed. -/
structure NodeChecks (P : ChainPorts ω) (I : ω → Prop)
    (documents : String → Option DidDocument) (request : ControllerChainResolutionRequest)
    (accepts : JsNumber → Prop) (did : String) : Prop where
  fresh : Program.Returns I (checkFreshness P request did) fun result =>
    ∃ window asOfTime, result = .ok (window, asOfTime) ∧ accepts window
  signed : ∀ doc, documents did = some doc → ∀ w, I w →
    ∃ w', P.verifyDocumentSignature doc w = (.ok true, w') ∧ I w'
  notRevoked : ∀ w, I w → ∃ w', P.isControllerRevoked did w = (.ok false, w') ∧ I w'
  bound : ∀ doc, documents did = some doc → verificationMethodController doc = some did

/-- A signing function that signs, and the resolver that it signs for. -/
structure Signer (I : ω → Prop) (options : Option (CcrResolverOptions ω)) : Prop where
  supplied : ∃ settings sign resolverDid, options = some settings ∧ settings.signFn = some sign ∧
    settings.resolverDid = some resolverDid ∧ resolverDid ≠ "" ∧
    ∀ message w, I w → ∃ signature w', sign message w = (.ok signature, w') ∧ I w'

/-! ## Loading -/

theorem nowText_returns (hruntime : Runtime P I) :
    Program.Returns I (nowText P : ChainProgram ω String) fun _ => True := by
  have hsample : Program.Returns I (Program.sample P.dateNow : ChainProgram ω Int) fun nowMs =>
      (Calendar.toISOString nowMs).isSome = true := by
    apply Program.Returns.sample
    intro w hw
    exact And.intro (hruntime.dateNow w hw) (hruntime.date w hw)
  unfold nowText
  refine hsample.bind ?_
  intro nowMs hdate
  obtain ⟨text, htext⟩ := Option.isSome_iff_exists.mp hdate
  rw [htext]
  exact .pure trivial

theorem loadNode_returns (hruntime : Runtime P I) (did : String) (doc : DidDocument) :
    Program.Returns I (loadNode P nodes did doc) fun node =>
      node.controllerDid = did ∧ node.cachedDocument = doc ∧ node.depth = nodes.length ∧
        node.isRoot = nodes.isEmpty ∧
        node.parentControllerDid = nodes.getLast?.map ControllerChainNode.controllerDid := by
  have hsample : Program.Returns I (Program.sample P.randomUUID : ChainProgram ω String)
      fun text => Crypto.isUuidV4 (String.ofList (text.toList.map Char.toLower)) = true := by
    apply Program.Returns.sample
    intro w hw
    exact And.intro (hruntime.randomUUID w hw) (hruntime.uuid w hw)
  unfold loadNode
  refine hsample.bind ?_
  intro uuid huuid
  refine .bind (Q := fun _ => True) ?_ ?_
  · rw [toChainNodeId, if_pos huuid]
    exact .pure trivial
  · rintro nodeId -
    refine (nowText_returns hruntime).bind ?_
    rintro resolvedAt -
    exact .pure ⟨rfl, rfl, rfl, rfl, rfl⟩

theorem refuseIf_returns {condition : Prop} [Decidable condition] {code : CcrErrorCode}
    {detail : List (String × Json)} (h : ¬ condition) :
    Program.Returns I (refuseIf condition code detail : ChainProgram ω Unit) fun _ => True := by
  rw [refuseIf, if_neg h]
  exact .pure trivial

/-- The loop follows the path to its end. -/
theorem loadChain_returns (hruntime : Runtime P I) (hserves : Serves P documents) {maxDepth : ℚ}
    {fuel : Nat} {current : Option String} {rest : List String}
    (hpath : ControllerPath documents current rest) (hlinked : Linked documents nodes)
    (hnodup : (nodes.map ControllerChainNode.controllerDid ++ rest).Nodup)
    (hdepth : ((nodes.length + rest.length : ℕ) : ℚ) ≤ maxDepth) (hfuel : rest.length ≤ fuel) :
    Program.Returns I (loadChain P (.finite maxDepth) fuel nodes current) fun loaded =>
      ∃ chain, loaded = some chain ∧ Linked documents chain ∧
        chain.map ControllerChainNode.controllerDid =
          nodes.map ControllerChainNode.controllerDid ++ rest := by
  induction hpath generalizing nodes fuel with
  | done =>
      have hloop : loadChain P (.finite maxDepth) fuel nodes none = pure (some nodes) := by
        cases fuel <;> rfl
      rw [hloop]
      exact .pure ⟨nodes, rfl, hlinked, by simp⟩
  | @next did doc rest hdoc _ ih =>
      obtain ⟨fuel, rfl⟩ := Nat.exists_eq_succ_of_ne_zero (Nat.ne_of_gt
        (Nat.lt_of_lt_of_le (Nat.succ_pos rest.length) hfuel))
      have hwithin : ¬ (numberLt (.finite maxDepth) (.finite nodes.length) ∨
          JsNumber.finite maxDepth = .nan) := by
        rintro (hlt | hnan)
        · have hlt : maxDepth < nodes.length := hlt
          push_cast [List.length_cons] at hdepth
          have hnonneg : (0 : ℚ) ≤ rest.length := Nat.cast_nonneg _
          linarith
        · cases hnan
      have hnew : did ∉ nodes.map ControllerChainNode.controllerDid := fun hmem =>
        (List.nodup_append.mp hnodup).2.2 did hmem did List.mem_cons_self rfl
      rw [loadChain, if_neg hwithin]
      refine (refuseIf_returns hnew).bind ?_
      rintro u -
      refine .bind (Q := fun answer => answer = some doc) (.ask fun w hw => ⟨some doc,
        (P.resolve did w).2, Prod.ext ((hserves did w).trans (congrArg Except.ok hdoc)) rfl,
        hruntime.resolve did w hw, rfl⟩) ?_
      rintro answer rfl
      refine (loadNode_returns hruntime did doc).bind ?_
      rintro node ⟨rfl, rfl, hnodeDepth, hroot, hparent⟩
      refine (ih (hlinked.concat hdoc hnodeDepth hroot hparent hnew)
        ?_ ?_ (Nat.le_of_succ_le_succ hfuel)).mono ?_
      · simpa using hnodup
      · rw [List.length_append, List.length_singleton]
        rw [List.length_cons] at hdepth
        rwa [Nat.add_assoc, Nat.add_comm 1]
      · rintro loaded ⟨chain, rfl, hchain, hdids⟩
        exact ⟨chain, rfl, hchain, by simpa using hdids⟩

/-! ## Checking -/

theorem checkAll_returns {accepts : JsNumber → Prop}
    (hchecks : ∀ node ∈ nodes, NodeChecks P I documents request accepts node.controllerDid) :
    Program.Returns I (checkAll P request nodes) fun results =>
      List.Forall₂ (fun (_ : ControllerChainNode) result =>
        ∃ window asOfTime, result = .ok (window, asOfTime) ∧ accepts window) nodes results := by
  induction nodes with
  | nil => exact .pure .nil
  | cons node rest ih =>
      obtain ⟨hnode, hrest⟩ := List.forall_mem_cons.mp hchecks
      refine hnode.fresh.bind ?_
      intro result hresult
      refine (ih hrest).bind ?_
      intro results hresults
      exact .pure (.cons hresult hresults)

theorem writeBack_returns {accepts : JsNumber → Prop}
    {results : List (Except String (JsNumber × String))}
    (hresults : List.Forall₂ (fun (_ : ControllerChainNode) result =>
      ∃ window asOfTime, result = .ok (window, asOfTime) ∧ accepts window) nodes results) :
    Program.Returns I (writeBack nodes results : ChainProgram ω _) fun chain =>
      List.Forall₂ (fun node written : ControllerChainNode =>
        ∃ summary, written = { node with freshnessProof := summary }) nodes chain ∧
      ∀ node ∈ chain, accepts node.freshnessProof.freshnessWindowMs := by
  induction hresults with
  | nil => exact .pure ⟨.nil, by simp⟩
  | @cons node result nodes results hresult _ ih =>
      obtain ⟨window, asOfTime, rfl, haccepts⟩ := hresult
      refine ih.bind ?_
      rintro chain ⟨hwritten, hwindows⟩
      exact .pure ⟨.cons ⟨_, rfl⟩ hwritten, List.forall_mem_cons.mpr ⟨haccepts, hwindows⟩⟩

theorem verifySignatures_returns {accepts : JsNumber → Prop} (hlinked : Linked documents nodes)
    (hchecks : ∀ node ∈ nodes, NodeChecks P I documents request accepts node.controllerDid) :
    Program.Returns I (verifySignatures P nodes) fun _ => True := by
  refine .forEach fun node hnode => ?_
  refine .bind (Q := fun valid => valid = true) (.ask fun w hw => ?_) ?_
  · obtain ⟨w', hanswer, hw'⟩ :=
      (hchecks node hnode).signed _ (hlinked.documents node hnode) w hw
    exact ⟨true, w', hanswer, hw', rfl⟩
  · rintro valid rfl
    exact refuseIf_returns (by simp)

theorem checkRevocation_returns {accepts : JsNumber → Prop}
    (hchecks : ∀ node ∈ nodes, NodeChecks P I documents request accepts node.controllerDid) :
    Program.Returns I (checkRevocation P nodes) fun _ => True := by
  refine .forEach fun node hnode => ?_
  refine .bind (Q := fun revoked => revoked = false) (.tryCatch (.ask fun w hw => ?_)) ?_
  · obtain ⟨w', hanswer, hw'⟩ := (hchecks node hnode).notRevoked w hw
    exact ⟨false, w', hanswer, hw', rfl⟩
  · rintro revoked rfl
    exact refuseIf_returns (by simp)

/-- Step 8 finds nothing in a row without repetition. -/
theorem checkNoCycle_returns {seenDids : List String}
    (hnodup : (nodes.map ControllerChainNode.controllerDid).Nodup)
    (hseen : ∀ node ∈ nodes, node.controllerDid ∉ seenDids) :
    Program.Returns I (checkNoCycle seenDids nodes : ChainProgram ω Unit) fun _ => True := by
  induction nodes generalizing seenDids with
  | nil => exact .pure trivial
  | cons node rest ih =>
      obtain ⟨hnode, hrest⟩ := List.forall_mem_cons.mp hseen
      obtain ⟨hnot, hnodup⟩ := List.nodup_cons.mp hnodup
      refine (refuseIf_returns hnode).bind fun _ _ => ih hnodup ?_
      intro other hother hmem
      rcases List.mem_cons.mp hmem with heq | hmem
      · exact hnot (heq ▸ List.mem_map_of_mem hother)
      · exact hrest other hother hmem

theorem chainBindingOf_linked {accepts : JsNumber → Prop} {controller : Option String}
    (hlinked : Linked documents nodes) (hne : nodes ≠ [])
    (hchecks : ∀ node ∈ nodes, NodeChecks P I documents request accepts node.controllerDid)
    (hroot : nodes.head?.map ControllerChainNode.controllerDid = controller) :
    chainBindingOf nodes controller = ⟨true, true, true⟩ := by
  have hbound : nodes.all (fun node =>
      verificationMethodController node.cachedDocument == some node.controllerDid) = true := by
    rw [List.all_eq_true]
    intro node hnode
    simpa using (hchecks node hnode).bound _ (hlinked.documents node hnode)
  have hfirst : nodes.head?.any (fun node => node.isRoot && node.parentControllerDid.isNone) =
      true := by
    obtain ⟨first, rest, rfl⟩ := List.exists_cons_of_ne_nil hne
    have hdepth : first.depth = 0 := by
      simpa [List.range_succ_eq_map] using congrArg List.head? hlinked.depths
    have hisRoot : first.isRoot = true := by
      simpa [hdepth] using congrArg List.head? hlinked.roots
    have hparent : first.parentControllerDid = none := by
      simpa [parentsOf] using congrArg List.head? hlinked.parents
    simp [hisRoot, hparent]
  rw [chainBindingOf, hbound, hfirst, hroot]
  simp

/-! ## Signing -/

/-- The least of finite windows is one of them. -/
theorem mathMin_mem {values : List JsNumber} (hne : values ≠ [])
    (hfinite : ∀ value ∈ values, ∃ ms, value = .finite ms) : mathMin values ∈ values := by
  suffices hfold : ∀ values : List JsNumber, (∀ value ∈ values, ∃ ms, value = .finite ms) →
      ∀ ms, values.foldl numberMin (.finite ms) ∈ JsNumber.finite ms :: values by
    obtain ⟨first, rest, rfl⟩ := List.exists_cons_of_ne_nil hne
    obtain ⟨⟨ms, rfl⟩, hrest⟩ := List.forall_mem_cons.mp hfinite
    exact hfold rest hrest ms
  clear hne hfinite values
  intro values hfinite
  induction values with
  | nil => simp
  | cons value rest ih =>
      intro ms
      obtain ⟨⟨ms', rfl⟩, hrest⟩ := List.forall_mem_cons.mp hfinite
      rw [List.foldl_cons]
      by_cases hlt : numberLt (.finite ms') (.finite ms)
      · rw [show numberMin (.finite ms) (.finite ms') = .finite ms' from if_pos hlt]
        exact List.mem_cons_of_mem _ (ih hrest ms')
      · rw [show numberMin (.finite ms) (.finite ms') = .finite ms from if_neg hlt]
        rcases List.mem_cons.mp (ih hrest ms) with heq | hmem
        · rw [heq]
          exact List.mem_cons_self
        · exact List.mem_cons_of_mem _ (List.mem_cons_of_mem _ hmem)

theorem notAfterText_isSome {nowMs : Int} (hne : nodes ≠ [])
    (hdates : ∀ node ∈ nodes, ∃ ms : ℚ, node.freshnessProof.freshnessWindowMs = .finite ms ∧
      (isoText (.finite (nowMs + ms))).isSome = true) :
    (notAfterText nowMs nodes).isSome = true := by
  have hmem : mathMin (nodes.map fun node => node.freshnessProof.freshnessWindowMs) ∈
      nodes.map fun node => node.freshnessProof.freshnessWindowMs := by
    refine mathMin_mem (by simpa using hne) ?_
    intro value hvalue
    obtain ⟨node, hnode, rfl⟩ := List.mem_map.mp hvalue
    obtain ⟨ms, hms, -⟩ := hdates node hnode
    exact ⟨ms, hms⟩
  obtain ⟨node, hnode, hleast⟩ := List.mem_map.mp hmem
  obtain ⟨ms, hms, hdate⟩ := hdates node hnode
  rw [notAfterText, ← hleast, hms]
  exact hdate

theorem signProof_returns (hsigner : Signer I options) (message : List UInt8) :
    Program.Returns I (signProof options message) fun _ => True := by
  obtain ⟨settings, sign, resolverDid, rfl, hsign, hresolver, hne, hsigns⟩ := hsigner.supplied
  unfold signProof
  simp only [Option.bind_some, hsign, hresolver]
  refine (refuseIf_returns (by simp [hsign])).bind fun _ _ => ?_
  refine (refuseIf_returns (by simp [hresolver, hne])).bind fun _ _ => ?_
  refine .bind (Q := fun _ => True) (.ask fun w hw => ?_) fun _ _ => .pure trivial
  obtain ⟨signature, w', hanswer, hw'⟩ := hsigns message w hw
  exact ⟨signature, w', hanswer, hw', trivial⟩

theorem buildChainIntegrityProof_returns (hruntime : Runtime P I) (hsigner : Signer I options)
    (hne : nodes ≠ [])
    (hdates : ∀ node ∈ nodes, EndsAtDate P I node.freshnessProof.freshnessWindowMs) :
    Program.Returns I (buildChainIntegrityProof P nodes request options) fun _ => True := by
  have hsample : Program.Returns I (Program.sample P.dateNow : ChainProgram ω Int) fun nowMs =>
      (notAfterText nowMs nodes).isSome = true := by
    apply Program.Returns.sample
    intro w hw
    refine And.intro (hruntime.dateNow w hw) (notAfterText_isSome hne ?_)
    intro node hnode
    obtain ⟨ms, hms, hdate⟩ := hdates node hnode
    exact ⟨ms, hms, hdate w hw⟩
  unfold buildChainIntegrityProof
  refine hsample.bind ?_
  intro nowMs hsome
  obtain ⟨notAfter, hnotAfter⟩ := Option.isSome_iff_exists.mp hsome
  refine Program.Returns.emit.bind fun _ _ => ?_
  rw [hnotAfter]
  refine (signProof_returns hsigner _).bind fun _ _ => ?_
  exact .pure trivial

/-! ## The whole resolution -/

theorem verifyChain_returns {rootDoc : DidDocument} (hruntime : Runtime P I)
    (hsigner : Signer I options) (hlinked : Linked documents nodes) (hne : nodes ≠ [])
    (hroot : nodes.head?.map ControllerChainNode.controllerDid = rootDoc.controller)
    (hchecks : ∀ did ∈ nodes.map ControllerChainNode.controllerDid,
      NodeChecks P I documents request (EndsAtDate P I) did) :
    Program.Returns I (verifyChain P nodes rootDoc request options) fun _ => True := by
  have hnodes : ∀ node ∈ nodes,
      NodeChecks P I documents request (EndsAtDate P I) node.controllerDid :=
    fun node hnode => hchecks _ (List.mem_map_of_mem hnode)
  unfold verifyChain
  refine (checkAll_returns hnodes).bind fun results hresults => ?_
  refine (writeBack_returns hresults).bind ?_
  rintro chain ⟨hwritten, hdates⟩
  obtain ⟨hchain, hlength, hdids⟩ := hlinked.written hwritten
  have hchainChecks : ∀ node ∈ chain,
      NodeChecks P I documents request (EndsAtDate P I) node.controllerDid := by
    intro node hnode
    exact hchecks _ (hdids ▸ List.mem_map_of_mem hnode)
  have hchainNe : chain ≠ [] := by
    rintro rfl
    exact hne (List.length_eq_zero_iff.mp hlength.symm)
  have hchainRoot : chain.head?.map ControllerChainNode.controllerDid = rootDoc.controller := by
    rw [← List.head?_map, hdids, List.head?_map, hroot]
  refine (verifySignatures_returns hchain hchainChecks).bind fun _ _ => ?_
  refine (checkRevocation_returns hchainChecks).bind fun _ _ => ?_
  refine (refuseIf_returns (by simpa using hchainRoot)).bind fun _ _ => ?_
  refine (checkNoCycle_returns hchain.nodup (by simp)).bind fun _ _ => ?_
  rw [chainBindingOf_linked hchain hchainNe hchainChecks hchainRoot]
  refine (refuseIf_returns (by simp)).bind fun _ _ => ?_
  refine (buildChainIntegrityProof_returns hruntime hsigner hchainNe hdates).bind fun _ _ => ?_
  refine (nowText_returns hruntime).bind fun _ _ => ?_
  exact .pure trivial

/-- The controller fields lead along `dids`, without repetition and within the depth, and
the checks of all nodes succeed. -/
structure Resolvable (P : ChainPorts ω) (I : ω → Prop)
    (documents : String → Option DidDocument) (request : ControllerChainResolutionRequest)
    (options : Option (CcrResolverOptions ω)) (accepts : JsNumber → Prop) (maxDepth : ℚ)
    (dids : List String) : Prop where
  path : ∃ rootDoc, documents request.targetDid = some rootDoc ∧
    ControllerPath documents rootDoc.controller dids
  nonempty : dids ≠ []
  named : "" ∉ dids
  distinct : dids.Nodup
  withinDepth : dids.length ≤ maxDepth
  checks : ∀ did ∈ dids, NodeChecks P I documents request accepts did
  signer : Signer I options

theorem resolveControllerChain_returns (hruntime : Runtime P I) (hserves : Serves P documents)
    {maxDepth : ℚ} {fuel : Nat} {dids : List String}
    (hdepth : request.maxChainDepth.getD maxChainDepthDefault = .finite maxDepth)
    (hfuel : maxDepth < fuel)
    (h : Resolvable P I documents request options (EndsAtDate P I) maxDepth dids) :
    Program.Returns I (resolveControllerChain P fuel request options) fun resolution =>
      resolution.isSome = true := by
  obtain ⟨rootDoc, hdoc, hpath⟩ := h.path
  have hcontroller : dids.head? = rootDoc.controller := by
    cases hcontroller : rootDoc.controller with
    | none =>
        rw [hcontroller] at hpath
        cases hpath
        exact absurd rfl h.nonempty
    | some did =>
        rw [hcontroller] at hpath
        cases hpath
        rfl
  have hroot : rootDoc.controller.getD "" ≠ "" := by
    rw [← hcontroller]
    obtain ⟨first, rest, rfl⟩ := List.exists_cons_of_ne_nil h.nonempty
    rintro rfl
    exact h.named List.mem_cons_self
  have hlength : dids.length ≤ fuel := by
    exact_mod_cast (h.withinDepth.trans hfuel.le)
  unfold resolveControllerChain
  refine .bind (Q := fun answer => answer = some rootDoc) (.ask fun w hw => ⟨some rootDoc,
    (P.resolve request.targetDid w).2,
    Prod.ext ((hserves request.targetDid w).trans (congrArg Except.ok hdoc)) rfl,
    hruntime.resolve _ w hw, rfl⟩) ?_
  rintro answer rfl
  refine (refuseIf_returns hroot).bind fun _ _ => ?_
  rw [hdepth]
  refine (loadChain_returns hruntime hserves hpath linked_nil (by simpa using h.distinct)
    (by simpa using h.withinDepth) hlength).bind ?_
  rintro loaded ⟨nodes, rfl, hlinked, hdids⟩
  rw [List.map_nil, List.nil_append] at hdids
  have hne : nodes ≠ [] := by
    rintro rfl
    exact h.nonempty hdids.symm
  have hcount : ¬ numberLt (.finite maxDepth) (.finite nodes.length) := by
    intro hlt
    have hlt : maxDepth < nodes.length := hlt
    rw [← List.length_map (f := ControllerChainNode.controllerDid), hdids] at hlt
    exact absurd h.withinDepth (not_le.mpr hlt)
  refine (refuseIf_returns hcount).bind fun _ _ => ?_
  refine (refuseIf_returns hne).bind fun _ _ => ?_
  refine (verifyChain_returns hruntime h.signer hlinked hne ?_ (hdids ▸ h.checks)).bind ?_
  · rw [← List.head?_map, hdids, hcontroller]
  · intro resolution _
    exact .pure rfl

/-- The resolution stops, and what it returns is the chain along the controller fields;
conversely a chain whose nodes pass their checks is returned, as long as the expiry of its
proof is a date. -/
theorem resolveControllerChain_iff_path (hserves : Serves P documents) {maxDepth : ℚ} {fuel : Nat}
    (hdepth : request.maxChainDepth.getD maxChainDepthDefault = .finite maxDepth)
    (hfuel : maxDepth < fuel) (options : Option (CcrResolverOptions ω)) :
    (∀ w, ((resolveControllerChain P fuel request options).run w).result ≠ .ok none) ∧
    (∀ w resolution w' events, (resolveControllerChain P fuel request options).run w =
        ⟨.ok (some resolution), w', events⟩ →
      ∃ dids, ShapedBy P documents request options maxDepth resolution w' dids) ∧
    ∀ I dids, Runtime P I →
      Resolvable P I documents request options (EndsAtDate P I) maxDepth dids →
      ∀ w, I w → ∃ resolution w' events, (resolveControllerChain P fuel request options).run w =
        ⟨.ok (some resolution), w', events⟩ := by
  refine ⟨?_, ?_, ?_⟩
  · intro w hnone
    rcases hrun : (resolveControllerChain P fuel request options).run w with ⟨result, w', events⟩
    rw [hrun] at hnone
    obtain rfl : result = .ok none := hnone
    exact resolveControllerChain_ne_none hdepth hfuel hrun
  · intro w resolution w' events hrun
    exact resolveControllerChain_shaped hserves hdepth hrun
  · intro I dids hruntime hresolvable w hw
    obtain ⟨returned, w', events, hrun, -, hsome⟩ :=
      resolveControllerChain_returns hruntime hserves hdepth hfuel hresolvable w hw
    obtain ⟨resolution, rfl⟩ := Option.isSome_iff_exists.mp hsome
    exact ⟨resolution, w', events, hrun⟩

end Returned

/-! An agent and its principal, with reports whose window is a parameter. -/

namespace TwoDocuments

def documents : String → Option DidDocument
  | "did:agent:a" => some ⟨some "did:key:p", none, none⟩
  | "did:key:p" => some ⟨none, none, some [some "did:key:p"]⟩
  | _ => none

def asOfTime : String := "2026-06-20T12:00:00.000Z"

/-- The clock stands at half a minute past noon, and the reports are of noon. -/
def ports (window : ℚ) : ChainPorts Unit where
  resolve did w := (.ok (documents did), w)
  verifyDocumentSignature _ w := (.ok true, w)
  getResolverFreshnessProof _ w := (.ok ⟨.finite window, asOfTime, true⟩, w)
  isControllerRevoked _ w := (.ok false, w)
  randomUUID w := ("00000000-0000-4000-8000-000000000000", w)
  dateNow w := (1781956830000, w)
  getTime := Calendar.getTime
  numberFormat := NumberFormat.decimal

def agentRequest : ControllerChainResolutionRequest :=
  ⟨"did:agent:a", "00000000-0000-4000-8000-000000000001", "did:key:v", none, none⟩

def options : Option (CcrResolverOptions Unit) :=
  some ⟨some "did:key:r", some fun _ w => (.ok "c2ln", w), none⟩

theorem serves (window : ℚ) : Serves (ports window) documents := fun _ _ => rfl

theorem runtime (window : ℚ) : Runtime (ports window) fun _ => True where
  resolve _ _ _ := trivial
  dateNow _ _ := trivial
  date _ _ := by
    show (Calendar.toISOString 1781956830000).isSome = true
    decide +kernel
  randomUUID _ _ := trivial
  uuid _ _ := by
    show Crypto.isUuidV4 (String.ofList
      ("00000000-0000-4000-8000-000000000000".toList.map Char.toLower)) = true
    decide +kernel

theorem path : ControllerPath documents (some "did:key:p") ["did:key:p"] :=
  .next rfl .done

theorem fresh {window : ℚ} (hwindow : 30000 ≤ window) {accepts : JsNumber → Prop}
    (haccepts : accepts (.finite window)) (did : String) :
    Program.Returns (fun _ => True) (checkFreshness (ports window) agentRequest did) fun result =>
      ∃ window asOfTime, result = .ok (window, asOfTime) ∧ accepts window := by
  have htime : Calendar.getTime asOfTime = some 1781956800000 := by decide +kernel
  refine .tryCatch ?_
  unfold checkReport
  refine .bind (Q := fun report => report = ⟨.finite window, asOfTime, true⟩)
    (.ask fun w _ => ⟨_, w, rfl, trivial, rfl⟩) ?_
  rintro report rfl
  have hsame : ¬ numberLt (.finite window) (.finite window) := lt_irrefl window
  simp only [agentRequest, Option.getD_none]
  rw [if_neg hsame]
  refine .bind (Q := fun nowMs => nowMs = 1781956830000)
    (.sample fun w _ => ⟨trivial, rfl⟩) ?_
  rintro nowMs rfl
  refine Program.Returns.emit.bind fun _ _ => ?_
  have hnotStale : ¬ isStale 1781956830000 ((ports window).getTime asOfTime) (.finite window) := by
    rw [show (ports window).getTime asOfTime = some 1781956800000 from htime]
    show ¬ window < ((1781956830000 : Int) : ℚ) - ((1781956800000 : Int) : ℚ)
    push_cast
    linarith
  rw [if_neg hnotStale]
  exact .pure ⟨_, _, rfl, haccepts⟩

theorem resolvable {window : ℚ} (hwindow : 30000 ≤ window) {accepts : JsNumber → Prop}
    (haccepts : accepts (.finite window)) :
    Resolvable (ports window) (fun _ => True) documents agentRequest options accepts 5
      ["did:key:p"] where
  path := ⟨⟨some "did:key:p", none, none⟩, rfl, path⟩
  nonempty := by simp
  named := by simp
  distinct := by simp
  withinDepth := by norm_num
  checks := by
    intro did hdid
    obtain rfl := List.mem_singleton.mp hdid
    exact {
      fresh := fresh hwindow haccepts _
      signed := fun _ _ w _ => ⟨w, rfl, trivial⟩
      notRevoked := fun w _ => ⟨w, rfl, trivial⟩
      bound := by
        rintro doc hdoc
        obtain rfl := Option.some.inj hdoc
        rfl }
  signer := ⟨_, _, _, rfl, rfl, rfl, by simp, fun _ w _ => ⟨_, w, rfl, trivial⟩⟩

/-- With a window of a hundred million days every check succeeds, and still no chain is
returned: the expiry of its proof is no date. -/
theorem endless_window_throws :
    ¬ ∀ window : ℚ, Runtime (ports window) (fun _ => True) →
      Resolvable (ports window) (fun _ => True) documents agentRequest options (fun _ => True) 5
        ["did:key:p"] →
      ∃ resolution w' events,
        (resolveControllerChain (ports window) 6 agentRequest options).run () =
          ⟨.ok (some resolution), w', events⟩ := by
  intro h
  have hthrows : ((resolveControllerChain (ports 8640000000000000) 6 agentRequest
      options).run ()).result.toOption.isSome = false := by decide +kernel
  obtain ⟨resolution, w', events, hrun⟩ :=
    h 8640000000000000 (runtime _) (resolvable (by norm_num) trivial)
  rw [hrun] at hthrows
  cases hthrows

/-- With a window of one minute the chain is the principal. -/
theorem principal_returned : ∃ resolution w' events,
    (resolveControllerChain (ports 60000) 6 agentRequest options).run () =
      ⟨.ok (some resolution), w', events⟩ := by
  have hdate : EndsAtDate (ports 60000) (fun _ => True) (.finite 60000) := by
    refine ⟨60000, rfl, fun _ _ => ?_⟩
    show (isoText (.finite ((1781956830000 : Int) + 60000))).isSome = true
    decide +kernel
  exact (resolveControllerChain_iff_path (serves 60000) rfl (by norm_num) options).2.2 _ _
    (runtime _) (resolvable (by norm_num) hdate) () trivial

end TwoDocuments

end Coivitas.Identity.ControllerChain
