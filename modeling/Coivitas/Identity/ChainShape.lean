import Coivitas.Foundation.Returns
import Coivitas.Identity.ControllerChain

/-! # The shape of a controller chain

A returned chain is the path that the controller fields lead along: from the target's
controller to a document without controller, within the depth and without repetition.
-/

namespace Coivitas.Identity.ControllerChain

open Foundation Coivitas.Types Policy Federation

/-! ## Paths -/

/-- Following the controller field from `current` visits these identifiers and ends at a
document without controller. -/
inductive ControllerPath (documents : String → Option DidDocument) :
    Option String → List String → Prop
  | done : ControllerPath documents none []
  | next {did : String} {doc : DidDocument} {rest : List String} (hdoc : documents did = some doc)
      (hrest : ControllerPath documents doc.controller rest) :
      ControllerPath documents (some did) (did :: rest)

/-- The resolver answers every time with the same documents. -/
def Serves {ω : Type} (P : ChainPorts ω) (documents : String → Option DidDocument) : Prop :=
  ∀ did w, (P.resolve did w).1 = .ok (documents did)

/-! ## The loaded nodes -/

/-- Every node but the first has the one before it as its parent. -/
def parentsOf (dids : List String) : List (Option String) := (none :: dids.map some).take dids.length

/-- Nodes in a row: depths count up, parents are the nodes before, and no identifier
comes twice. -/
structure Linked (documents : String → Option DidDocument) (nodes : List ControllerChainNode) :
    Prop where
  depths : nodes.map ControllerChainNode.depth = List.range nodes.length
  parents : nodes.map ControllerChainNode.parentControllerDid =
    parentsOf (nodes.map ControllerChainNode.controllerDid)
  roots : nodes.map ControllerChainNode.isRoot =
    (nodes.map ControllerChainNode.depth).map (· == 0)
  documents : ∀ node ∈ nodes, documents node.controllerDid = some node.cachedDocument
  nodup : (nodes.map ControllerChainNode.controllerDid).Nodup

variable {ω : Type} {P : ChainPorts ω} {documents : String → Option DidDocument}
  {nodes chain : List ControllerChainNode} {w w' : ω} {events : List Observation}

@[simp] theorem run_refuseIf_eq_ok {condition : Prop} [Decidable condition] {code : CcrErrorCode}
    {detail : List (String × Json)} {u : Unit} :
    (refuseIf condition code detail : ChainProgram ω Unit).run w = ⟨.ok u, w', events⟩ ↔
      ¬ condition ∧ w = w' ∧ [] = events := by
  unfold refuseIf
  split
  next h => simp [ccrError, h]
  next h => simp [h]

theorem parentsOf_concat (dids : List String) (did : String) :
    parentsOf (dids ++ [did]) = parentsOf dids ++ [dids.getLast?] := by
  rcases List.eq_nil_or_concat dids with rfl | ⟨rest, last, rfl⟩
  · rfl
  · simp [parentsOf, List.take_append, List.take_of_length_le]

theorem loadNode_ok {currentDid : String} {doc : DidDocument} {node : ControllerChainNode}
    (h : (loadNode P nodes currentDid doc).run w = ⟨.ok node, w', events⟩) :
    node.controllerDid = currentDid ∧ node.cachedDocument = doc ∧ node.depth = nodes.length ∧
      node.isRoot = nodes.isEmpty ∧
      node.parentControllerDid = nodes.getLast?.map ControllerChainNode.controllerDid := by
  simp only [loadNode, Program.run_bind_eq_ok, Program.run_pure_eq_ok] at h
  obtain ⟨_, _, _, _, -, ⟨_, _, _, _, -, ⟨_, _, _, _, -, ⟨rfl, -, -⟩, -⟩, -⟩, -⟩ := h
  exact ⟨rfl, rfl, rfl, rfl, rfl⟩

/-- The node that is loaded next goes on with the row. -/
theorem Linked.concat (h : Linked documents nodes) {node : ControllerChainNode}
    (hdoc : documents node.controllerDid = some node.cachedDocument)
    (hdepth : node.depth = nodes.length) (hroot : node.isRoot = nodes.isEmpty)
    (hparent : node.parentControllerDid = nodes.getLast?.map ControllerChainNode.controllerDid)
    (hnew : node.controllerDid ∉ nodes.map ControllerChainNode.controllerDid) :
    Linked documents (nodes ++ [node]) where
  depths := by
    simp [h.depths, hdepth, List.range_succ]
  parents := by
    rw [List.map_append, List.map_append, List.map_singleton, List.map_singleton,
      parentsOf_concat, h.parents, hparent, List.getLast?_map]
  roots := by
    rw [List.map_append, List.map_append, List.map_append, h.roots]
    cases nodes <;> simp [hroot, hdepth]
  documents := by
    intro other hother
    rcases List.mem_append.mp hother with hother | hother
    · exact h.documents other hother
    · rw [List.mem_singleton.mp hother]
      exact hdoc
  nodup := by
    rw [List.map_append, List.map_singleton]
    exact List.nodup_append.mpr ⟨h.nodup, List.nodup_singleton _, by
      rintro did hdid _ hlast rfl
      exact hnew (List.mem_singleton.mp hlast ▸ hdid)⟩

/-- The load loop stops at the end of the path, or one node past the depth. -/
theorem loadChain_ok (hserves : Serves P documents) {maxDepth : ℚ} {fuel : Nat}
    {current : Option String} (hlinked : Linked documents nodes)
    (h : (loadChain P (.finite maxDepth) fuel nodes current).run w =
      ⟨.ok (some chain), w', events⟩) :
    Linked documents chain ∧ ∃ rest,
      chain.map ControllerChainNode.controllerDid =
        nodes.map ControllerChainNode.controllerDid ++ rest ∧
      (ControllerPath documents current rest ∨ maxDepth < chain.length) := by
  induction fuel generalizing nodes current w events with
  | zero =>
      cases current with
      | none =>
          simp only [loadChain, Program.run_pure_eq_ok, Option.some.injEq] at h
          obtain ⟨rfl, -, -⟩ := h
          exact ⟨hlinked, [], by simp, .inl .done⟩
      | some did =>
          rw [loadChain] at h
          split at h
          next hdepth =>
            simp only [Program.run_pure_eq_ok, Option.some.injEq] at h
            obtain ⟨rfl, -, -⟩ := h
            exact ⟨hlinked, [], by simp, .inr (hdepth.resolve_right (by simp))⟩
          next => simp at h
  | succ fuel ih =>
      cases current with
      | none =>
          simp only [loadChain, Program.run_pure_eq_ok, Option.some.injEq] at h
          obtain ⟨rfl, -, -⟩ := h
          exact ⟨hlinked, [], by simp, .inl .done⟩
      | some did =>
          rw [loadChain] at h
          split at h
          next hdepth =>
            simp only [Program.run_pure_eq_ok, Option.some.injEq] at h
            obtain ⟨rfl, -, -⟩ := h
            exact ⟨hlinked, [], by simp, .inr (hdepth.resolve_right (by simp))⟩
          next =>
            simp only [Program.run_bind_eq_ok, run_refuseIf_eq_ok, Program.run_ask_eq_ok] at h
            obtain ⟨_, _, _, _, ⟨hnew, -, -⟩, ⟨answer, w₁, _, _, ⟨hanswer, -⟩, hrest, -⟩, -⟩ := h
            have hdocument := congrArg Prod.fst hanswer
            rw [hserves] at hdocument
            obtain rfl : documents did = answer := Except.ok.inj hdocument
            cases hdoc : documents did with
            | none => simp [hdoc, ccrError] at hrest
            | some doc =>
                simp only [hdoc, Program.run_bind_eq_ok] at hrest
                obtain ⟨node, _, _, _, hnode, hloop, -⟩ := hrest
                obtain ⟨rfl, rfl, hdepth, hroot, hparent⟩ := loadNode_ok hnode
                have hnext := hlinked.concat hdoc hdepth hroot hparent hnew
                obtain ⟨hchain, rest, hdids, hend⟩ := ih hnext hloop
                refine ⟨hchain, node.controllerDid :: rest, ?_, ?_⟩
                · simpa using hdids
                · exact hend.imp_left fun hpath => .next hdoc hpath

/-- With fuel for more nodes than the depth admits, the loop never stops for want of it. -/
theorem loadChain_ne_none {maxDepth : ℚ} {fuel : Nat} {current : Option String}
    (hfuel : maxDepth < nodes.length + fuel) :
    (loadChain P (.finite maxDepth) fuel nodes current).run w ≠ ⟨.ok none, w', events⟩ := by
  intro h
  induction fuel generalizing nodes current w events with
  | zero =>
      cases current with
      | none => simp [loadChain] at h
      | some did =>
          have hdepth : maxDepth < nodes.length := by simpa using hfuel
          rw [loadChain, if_pos (.inl hdepth)] at h
          simp at h
  | succ fuel ih =>
      cases current with
      | none => simp [loadChain] at h
      | some did =>
          rw [loadChain] at h
          split at h
          next => simp at h
          next =>
            simp only [Program.run_bind_eq_ok] at h
            obtain ⟨_, _, _, _, -, ⟨answer, _, _, _, -, hrest, -⟩, -⟩ := h
            cases answer with
            | none => simp [ccrError] at hrest
            | some doc =>
                simp only [Program.run_bind_eq_ok] at hrest
                obtain ⟨node, _, _, _, -, hloop, -⟩ := hrest
                refine ih ?_ hloop
                rw [List.length_append, List.length_singleton]
                push_cast at hfuel ⊢
                linarith

theorem resolveControllerChain_ne_none {request : ControllerChainResolutionRequest}
    {options : Option (CcrResolverOptions ω)} {maxDepth : ℚ} {fuel : Nat}
    (hdepth : request.maxChainDepth.getD maxChainDepthDefault = .finite maxDepth)
    (hfuel : maxDepth < fuel) :
    (resolveControllerChain P fuel request options).run w ≠ ⟨.ok none, w', events⟩ := by
  intro h
  simp only [resolveControllerChain, Program.run_bind_eq_ok, hdepth] at h
  obtain ⟨answer, _, _, _, -, hroot, -⟩ := h
  cases answer with
  | none => simp [ccrError] at hroot
  | some rootDoc =>
      simp only [Program.run_bind_eq_ok] at hroot
      obtain ⟨_, _, _, _, -, ⟨loaded, _, _, _, hload, hrest, -⟩, -⟩ := hroot
      cases loaded with
      | none => exact loadChain_ne_none (by simpa using hfuel) hload
      | some nodes =>
          simp only [Program.run_bind_eq_ok, Program.run_pure_eq_ok] at hrest
          obtain ⟨_, _, _, _, -, ⟨_, _, _, _, -, ⟨_, _, _, _, -, ⟨hsome, -, -⟩, -⟩, -⟩, -⟩ := hrest
          cases hsome

/-! ## The nodes that are returned -/

/-- Writing the freshness back changes nothing else. -/
theorem writeBack_ok {results : List (Except String (JsNumber × String))}
    (h : (writeBack nodes results : ChainProgram ω _).run w = ⟨.ok chain, w', events⟩) :
    List.Forall₂ (fun node written : ControllerChainNode =>
      ∃ summary, written = { node with freshnessProof := summary }) nodes chain := by
  induction nodes generalizing results chain w' events with
  | nil =>
      simp only [writeBack, Program.run_pure_eq_ok] at h
      rw [← h.1]
      exact .nil
  | cons node rest ih =>
      obtain _ | ⟨reason | ⟨window, asOfTime⟩, results⟩ := results
      · simp only [writeBack, Program.run_pure_eq_ok] at h
        rw [← h.1]
        exact List.forall₂_same.mpr fun node _ => ⟨node.freshnessProof, rfl⟩
      · simp [writeBack, ccrError] at h
      · simp only [writeBack, Program.run_bind_eq_ok, Program.run_pure_eq_ok] at h
        obtain ⟨written, _, _, _, hrest, ⟨rfl, -, -⟩, -⟩ := h
        exact .cons ⟨_, rfl⟩ (ih hrest)

/-- What the returned nodes show of the loaded ones. -/
theorem Linked.written (h : Linked documents nodes)
    (hwritten : List.Forall₂ (fun node written : ControllerChainNode =>
      ∃ summary, written = { node with freshnessProof := summary }) nodes chain) :
    Linked documents chain ∧ chain.length = nodes.length ∧
      chain.map ControllerChainNode.controllerDid =
        nodes.map ControllerChainNode.controllerDid := by
  have hmap : ∀ {α : Type} (f : ControllerChainNode → α),
      (∀ node summary, f { node with freshnessProof := summary } = f node) →
        chain.map f = nodes.map f := by
    intro α f hf
    clear h
    induction hwritten with
    | nil => rfl
    | cons hnode _ ih =>
        obtain ⟨summary, rfl⟩ := hnode
        rw [List.map_cons, List.map_cons, hf, ih]
  have hdids := hmap ControllerChainNode.controllerDid fun _ _ => rfl
  have hdepths := hmap ControllerChainNode.depth fun _ _ => rfl
  have hlength := hwritten.length_eq.symm
  refine ⟨⟨?_, ?_, ?_, ?_, ?_⟩, hlength, hdids⟩
  · rw [hdepths, h.depths, hlength]
  · rw [hmap ControllerChainNode.parentControllerDid fun _ _ => rfl, h.parents, hdids]
  · rw [hmap ControllerChainNode.isRoot fun _ _ => rfl, h.roots, hdepths]
  · intro node hnode
    have hpair := hmap (fun node => (node.controllerDid, node.cachedDocument)) fun _ _ => rfl
    have hmem := List.mem_map_of_mem (f := fun node : ControllerChainNode =>
      (node.controllerDid, node.cachedDocument)) hnode
    rw [hpair] at hmem
    obtain ⟨loaded, hloaded, heq⟩ := List.mem_map.mp hmem
    obtain ⟨hdid, hdoc⟩ := Prod.mk.inj heq
    rw [← hdid, ← hdoc]
    exact h.documents loaded hloaded
  · rw [hdids]
    exact h.nodup

/-- The checker is asked about one after the other and answers each time that it is not
revoked. -/
def NotRevoked (P : ChainPorts ω) : List String → ω → ω → Prop :=
  Program.InTurn fun did w w' => P.isControllerRevoked did w = (.ok false, w')

theorem checkRevocation_ok {u : Unit}
    (h : (checkRevocation P nodes).run w = ⟨.ok u, w', events⟩) :
    NotRevoked P (nodes.map ControllerChainNode.controllerDid) w w' := by
  refine Program.inTurn_map.mpr ((Program.run_forEach_ok h).mono fun node w w' hbody => ?_)
  obtain ⟨_, hbody⟩ := hbody
  simp only [Program.run_bind_eq_ok, run_refuseIf_eq_ok] at hbody
  obtain ⟨revoked, _, _, _, hasked, ⟨hrevoked, rfl, -⟩, -⟩ := hbody
  rcases Program.run_tryCatch_eq_ok hasked with hanswer | ⟨_, _, _, _, -, hhandler, -⟩
  · obtain ⟨hanswer, -⟩ := Program.run_ask_eq_ok.mp hanswer
    obtain rfl : revoked = false := by simpa using hrevoked
    exact hanswer
  · simp [ccrError] at hhandler

theorem checkNoCycle_ok {u : Unit} {seenDids : List String}
    (h : (checkNoCycle seenDids nodes : ChainProgram ω Unit).run w = ⟨.ok u, w', events⟩) :
    w = w' := by
  induction nodes generalizing seenDids w events with
  | nil => exact (Program.run_pure_eq_ok.mp h).2.1
  | cons node rest ih =>
      simp only [checkNoCycle, Program.run_bind_eq_ok, run_refuseIf_eq_ok] at h
      obtain ⟨_, _, _, _, ⟨-, rfl, -⟩, hrest, -⟩ := h
      exact ih hrest

/-- The proof of a resolution is built from this world on, and the resolution is dated then. -/
def ProvedFrom (P : ChainPorts ω) (request : ControllerChainResolutionRequest)
    (options : Option (CcrResolverOptions ω)) (resolution : ControllerChainResolution)
    (w w' : ω) : Prop :=
  ∃ w₁ first second, (buildChainIntegrityProof P resolution.chain request options).run w =
      ⟨.ok resolution.integrityProof, w₁, first⟩ ∧
    (nowText P).run w₁ = ⟨.ok resolution.resolvedAt, w', second⟩

theorem verifyChain_ok {rootDoc : DidDocument} {request : ControllerChainResolutionRequest}
    {options : Option (CcrResolverOptions ω)} {resolution : ControllerChainResolution}
    (hlinked : Linked documents nodes)
    (h : (verifyChain P nodes rootDoc request options).run w = ⟨.ok resolution, w', events⟩) :
    Linked documents resolution.chain ∧ resolution.chain.length = nodes.length ∧
      resolution.chain.map ControllerChainNode.controllerDid =
        nodes.map ControllerChainNode.controllerDid ∧
      resolution.chainDepth = resolution.chain.length ∧
      ∃ w₁ w₂, NotRevoked P (resolution.chain.map ControllerChainNode.controllerDid) w₁ w₂ ∧
        ProvedFrom P request options resolution w₂ w' := by
  simp only [verifyChain, checkRootEnd, checkBinding, Program.run_bind_eq_ok, run_refuseIf_eq_ok,
    Program.run_pure_eq_ok] at h
  obtain ⟨results, _, _, _, -, ⟨chain, _, _, _, hchain, ⟨_, _, _, _, -, ⟨_, _, _, _, hrevoked,
    ⟨_, _, _, _, ⟨-, rfl, -⟩, ⟨_, _, _, _, hcycle, ⟨_, _, _, _, ⟨-, rfl, -⟩, ⟨_, _, _, _, hproof,
      ⟨_, _, _, _, hdated, ⟨rfl, rfl, -⟩, -⟩, -⟩, -⟩, -⟩, -⟩, -⟩, -⟩, -⟩, -⟩ := h
  obtain ⟨hwritten, hlength, hdids⟩ := hlinked.written (writeBack_ok hchain)
  obtain rfl := checkNoCycle_ok hcycle
  exact ⟨hwritten, hlength, hdids, rfl, _, _, checkRevocation_ok hrevoked, _, _, _, hproof, hdated⟩

/-! ## What a returned chain is -/

/-- A chain of the identifiers that the controller fields lead through. None of them is revoked by
the answers of the run that ends in `w'`: after the last answer it only builds the proof. -/
structure ShapedBy (P : ChainPorts ω) (documents : String → Option DidDocument)
    (request : ControllerChainResolutionRequest) (options : Option (CcrResolverOptions ω))
    (maxDepth : ℚ) (resolution : ControllerChainResolution) (w' : ω) (dids : List String) :
    Prop where
  path : ∃ rootDoc, documents request.targetDid = some rootDoc ∧
    ControllerPath documents rootDoc.controller dids
  nonempty : 1 ≤ dids.length
  withinDepth : dids.length ≤ maxDepth
  distinct : dids.Nodup
  controllerDids : resolution.chain.map ControllerChainNode.controllerDid = dids
  depths : resolution.chain.map ControllerChainNode.depth = List.range dids.length
  parents : resolution.chain.map ControllerChainNode.parentControllerDid = parentsOf dids
  chainDepth : resolution.chainDepth = dids.length
  notRevoked : ∃ w₁ w₂, NotRevoked P dids w₁ w₂ ∧ ProvedFrom P request options resolution w₂ w'

theorem linked_nil : Linked documents [] :=
  ⟨rfl, rfl, rfl, by simp, List.nodup_nil⟩

theorem resolveControllerChain_shaped (hserves : Serves P documents)
    {request : ControllerChainResolutionRequest} {options : Option (CcrResolverOptions ω)}
    {maxDepth : ℚ} {fuel : Nat} {resolution : ControllerChainResolution}
    (hdepth : request.maxChainDepth.getD maxChainDepthDefault = .finite maxDepth)
    (h : (resolveControllerChain P fuel request options).run w =
      ⟨.ok (some resolution), w', events⟩) :
    ∃ dids, ShapedBy P documents request options maxDepth resolution w' dids := by
  simp only [resolveControllerChain, Program.run_bind_eq_ok, Program.run_ask_eq_ok, hdepth] at h
  obtain ⟨answer, _, _, _, ⟨hanswer, -⟩, hroot, -⟩ := h
  have hdocument := congrArg Prod.fst hanswer
  rw [hserves] at hdocument
  obtain rfl : documents request.targetDid = answer := Except.ok.inj hdocument
  cases hdoc : documents request.targetDid with
  | none => simp [hdoc, ccrError] at hroot
  | some rootDoc =>
      simp only [hdoc, Program.run_bind_eq_ok, run_refuseIf_eq_ok] at hroot
      obtain ⟨_, _, _, _, ⟨-, -, -⟩, ⟨loaded, _, _, _, hload, hrest, -⟩, -⟩ := hroot
      cases loaded with
      | none => simp at hrest
      | some nodes =>
          simp only [Program.run_bind_eq_ok, run_refuseIf_eq_ok, Program.run_pure_eq_ok,
            Option.some.injEq] at hrest
          obtain ⟨_, _, _, _, ⟨hmax, -, -⟩, ⟨_, _, _, _, ⟨hne, -, -⟩, ⟨_, _, _, _, hverify,
            ⟨rfl, rfl, -⟩, -⟩, -⟩, -⟩ := hrest
          obtain ⟨hlinked, dids, hdids, hend⟩ := loadChain_ok hserves linked_nil hload
          rw [hdepth] at hmax
          have hle : (nodes.length : ℚ) ≤ maxDepth := not_lt.mp hmax
          have hpath := hend.resolve_right (not_lt.mpr hle)
          obtain ⟨hshape, hlength, hsame, hchainDepth, w₁, w₂, hrevoked, hproved⟩ :=
            verifyChain_ok hlinked hverify
          rw [hdids, List.map_nil, List.nil_append] at hsame
          have hcount : dids.length = nodes.length := by
            rw [← hsame, List.length_map, hlength]
          refine ⟨dids, ⟨rootDoc, hdoc, hpath⟩, ?_, ?_, ?_, hsame, ?_, ?_, ?_, ?_⟩
          · rw [hcount]
            exact List.length_pos_of_ne_nil hne
          · rw [hcount]
            exact hle
          · exact hsame ▸ hshape.nodup
          · rw [hshape.depths, hlength, hcount]
          · rw [hshape.parents, hsame]
          · rw [hchainDepth, hlength, hcount]
          · exact ⟨w₁, w₂, hsame ▸ hrevoked, hproved⟩

end Coivitas.Identity.ControllerChain
