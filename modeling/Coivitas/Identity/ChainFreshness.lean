import Coivitas.Identity.ControllerChain

/-! # What a returned controller chain says about freshness

Every node of a returned chain passed the freshness check with the report and the
clock of that check. The check reads the window and the time of a report, not its
`verified` flag, and a time that is no date passes it. The expiry of the integrity
proof counts from the moment the proof is built.
-/

namespace Coivitas.Identity.ControllerChain

open Foundation Coivitas.Types Policy Federation

/-! ## Least windows -/

/-- `value <= bound` for a finite left side. -/
def AtMost (value : ℚ) : JsNumber → Prop
  | .nan => False
  | .negInf => False
  | .finite bound => value ≤ bound
  | .posInf => True

instance (value : ℚ) : (bound : JsNumber) → Decidable (AtMost value bound)
  | .nan => inferInstanceAs (Decidable False)
  | .negInf => inferInstanceAs (Decidable False)
  | .finite bound => inferInstanceAs (Decidable (value ≤ bound))
  | .posInf => inferInstanceAs (Decidable True)

theorem atMost_of_not_lt {value : ℚ} {bound : JsNumber} (hlower : ∃ m, AtMost m bound)
    (h : ¬ numberLt bound (.finite value)) : AtMost value bound := by
  obtain ⟨m, hm⟩ := hlower
  cases bound with
  | nan => exact hm
  | negInf => exact hm
  | finite bound => exact not_lt.mp h
  | posInf => trivial

/-- A bound of the smaller number bounds both, and the smaller number is one of them. -/
theorem atMost_numberMin {a b : JsNumber} {m : ℚ} (h : AtMost m (numberMin a b)) :
    AtMost m a ∧ AtMost m b ∧ (numberMin a b = a ∨ numberMin a b = b) := by
  have hchoice : a ≠ .nan → b ≠ .nan →
      numberMin a b = if numberLt b a then b else a := by
    intro ha hb
    cases a <;> cases b <;> first | rfl | exact absurd rfl ha | exact absurd rfl hb
  by_cases ha : a = .nan
  · subst ha
    exact absurd h (by simp [numberMin, AtMost])
  by_cases hb : b = .nan
  · subst hb
    cases a <;> exact absurd h (by simp [numberMin, AtMost])
  rw [hchoice ha hb] at h ⊢
  split at h
  next hlt =>
    refine ⟨?_, h, Or.inr (if_pos hlt)⟩
    cases a <;> cases b <;> simp_all [AtMost, numberLt]
    exact h.trans hlt.le
  next hlt =>
    refine ⟨h, ?_, Or.inl (if_neg hlt)⟩
    cases a <;> cases b <;> simp_all [AtMost, numberLt]
    exact h.trans hlt

/-- A finite minimum is one of the values and bounds them all. -/
theorem mathMin_eq_finite {values : List JsNumber} {m : ℚ} (h : mathMin values = .finite m) :
    .finite m ∈ values ∧ ∀ value ∈ values, AtMost m value := by
  suffices hfold : ∀ acc, values.foldl numberMin acc = .finite m →
      (acc = .finite m ∨ .finite m ∈ values) ∧ AtMost m acc ∧ ∀ value ∈ values, AtMost m value by
    obtain ⟨hmem, -, hall⟩ := hfold .posInf h
    exact ⟨hmem.resolve_left (by simp), hall⟩
  clear h
  induction values with
  | nil =>
      rintro acc rfl
      exact ⟨Or.inl rfl, le_refl m, by simp⟩
  | cons value rest ih =>
      intro acc h
      obtain ⟨hmem, hacc, hall⟩ := ih (numberMin acc value) h
      obtain ⟨hleft, hright, hchoice⟩ := atMost_numberMin hacc
      refine ⟨?_, hleft, List.forall_mem_cons.mpr ⟨hright, hall⟩⟩
      rcases hmem with hmin | hrest
      · rcases hchoice with heq | heq
        · exact Or.inl (heq.symm.trans hmin)
        · exact Or.inr (List.mem_cons.mpr (Or.inl (hmin.symm.trans heq)))
      · exact Or.inr (List.mem_cons_of_mem _ hrest)

/-! ## The freshness checks -/

variable {ω : Type} {P : ChainPorts ω} {request : ControllerChainResolutionRequest}

/-- A report that passed its check, with the clock of the check. -/
structure Passed (P : ChainPorts ω) (request : ControllerChainResolutionRequest)
    (report : FreshnessReport) (nowMs : Int) : Prop where
  withinMax : ∀ maxMs ∈ request.maxFreshnessWindowMs, ¬ numberLt maxMs report.freshnessWindowMs
  notStale : ¬ isStale nowMs (P.getTime report.asOfTime) report.freshnessWindowMs

/-- The run checked a report for this DID, and these are its window and time. -/
def Reported (P : ChainPorts ω) (request : ControllerChainResolutionRequest)
    (events : List Observation) (controllerDid : String) (window : JsNumber)
    (asOfTime : String) : Prop :=
  ∃ report nowMs, .freshnessChecked controllerDid report nowMs ∈ events ∧
    report.freshnessWindowMs = window ∧ report.asOfTime = asOfTime ∧
      Passed P request report nowMs

theorem Reported.mono {events events' : List Observation} {controllerDid asOfTime : String}
    {window : JsNumber} (h : Reported P request events controllerDid window asOfTime)
    (hsub : ∀ event ∈ events, event ∈ events') :
    Reported P request events' controllerDid window asOfTime := by
  obtain ⟨report, nowMs, hevent, hrest⟩ := h
  exact ⟨report, nowMs, hsub _ hevent, hrest⟩

theorem checkReport_reported {controllerDid asOfTime : String} {window : JsNumber} {w w' : ω}
    {events : List Observation}
    (h : (checkReport P request controllerDid).run w = ⟨.ok (.ok (window, asOfTime)), w', events⟩) :
    Reported P request events controllerDid window asOfTime := by
  simp only [checkReport, Program.run_bind_eq_ok, Program.run_ask_eq_ok] at h
  obtain ⟨rfp, w₁, first, rest, ⟨-, rfl⟩, hrest, rfl⟩ := h
  split at hrest
  next => simp at hrest
  next hmax =>
    simp only [Program.run_bind_eq_ok, Program.run_sample_eq_ok, Program.run_emit_eq_ok] at hrest
    obtain ⟨nowMs, w₂, first, rest, ⟨-, rfl⟩, ⟨-, w₃, first, rest, ⟨-, rfl⟩, hreturn, rfl⟩, rfl⟩ :=
      hrest
    split at hreturn
    next => simp at hreturn
    next hstale =>
      simp only [Program.run_pure_eq_ok, Except.ok.injEq, Prod.mk.injEq] at hreturn
      obtain ⟨⟨hwindow, htime⟩, -, rfl⟩ := hreturn
      refine ⟨rfp, nowMs, by simp, hwindow, htime, ?_, hstale⟩
      intro maxMs hmaxMs
      rw [Option.mem_def] at hmaxMs
      rwa [hmaxMs, Option.getD_some] at hmax

theorem checkFreshness_reported {controllerDid asOfTime : String} {window : JsNumber} {w w' : ω}
    {events : List Observation}
    (h : (checkFreshness P request controllerDid).run w =
      ⟨.ok (.ok (window, asOfTime)), w', events⟩) :
    Reported P request events controllerDid window asOfTime := by
  rcases Program.run_tryCatch_eq_ok h with hbody | ⟨_, _, _, _, -, hhandler, -⟩
  · exact checkReport_reported hbody
  · simp at hhandler

/-- Step 4 returns only results of checks that the run made. -/
theorem checkAll_reported {nodes : List ControllerChainNode}
    {results : List (Except String (JsNumber × String))} {w w' : ω} {events : List Observation}
    (h : (checkAll P request nodes).run w = ⟨.ok results, w', events⟩) :
    List.Forall₂ (fun node result => ∀ window asOfTime, result = .ok (window, asOfTime) →
      Reported P request events node.controllerDid window asOfTime) nodes results := by
  induction nodes generalizing results w w' events with
  | nil =>
      simp only [checkAll, Program.run_pure_eq_ok] at h
      rw [← h.1]
      exact List.Forall₂.nil
  | cons node rest ih =>
      simp only [checkAll, Program.run_bind_eq_ok, Program.run_pure_eq_ok] at h
      obtain ⟨result, w₁, first, more, hresult, ⟨results, w₂, more, last, hresults,
        ⟨rfl, -, rfl⟩, rfl⟩, rfl⟩ := h
      refine List.Forall₂.cons ?_ ((ih hresults).imp ?_)
      · rintro window asOfTime rfl
        exact (checkFreshness_reported hresult).mono fun _ => List.mem_append_left _
      · intro other result hother window asOfTime heq
        exact (hother window asOfTime heq).mono fun event hevent => by simp [hevent]

/-- The nodes that are written back carry what their checks reported. -/
theorem writeBack_reported {nodes chain : List ControllerChainNode}
    {results : List (Except String (JsNumber × String))} {w w' : ω}
    {events written : List Observation}
    (hresults : List.Forall₂ (fun node result => ∀ window asOfTime,
      result = .ok (window, asOfTime) →
        Reported P request events node.controllerDid window asOfTime) nodes results)
    (h : (writeBack nodes results : ChainProgram ω _).run w = ⟨.ok chain, w', written⟩) :
    ∀ node ∈ chain, node.freshnessProof.verified = true ∧
      Reported P request events node.controllerDid node.freshnessProof.freshnessWindowMs
        node.freshnessProof.asOfTime := by
  induction hresults generalizing chain w' written with
  | nil =>
      simp only [writeBack, Program.run_pure_eq_ok] at h
      simp [← h.1]
  | @cons node result nodes results hnode _ ih =>
      cases result with
      | error reason => simp [writeBack, ccrError] at h
      | ok value =>
          obtain ⟨window, asOfTime⟩ := value
          simp only [writeBack, Program.run_bind_eq_ok, Program.run_pure_eq_ok] at h
          obtain ⟨rest, w₁, first, last, hrest, ⟨rfl, -, rfl⟩, rfl⟩ := h
          refine List.forall_mem_cons.mpr ⟨⟨rfl, hnode window asOfTime rfl⟩, ?_⟩
          exact ih hrest

/-! ## The integrity proof -/

/-- The expiry is the clock at building time plus the least window, which is one of
the windows of the chain. -/
theorem notAfterText_eq_some {nowMs : Int} {nodes : List ControllerChainNode} {notAfter : String}
    (h : notAfterText nowMs nodes = some notAfter) :
    ∃ least : ℚ, (∃ node ∈ nodes, node.freshnessProof.freshnessWindowMs = .finite least) ∧
      (∀ node ∈ nodes, AtMost least node.freshnessProof.freshnessWindowMs) ∧
      isoText (.finite (nowMs + least)) = some notAfter := by
  rw [notAfterText] at h
  cases hmin : mathMin (nodes.map fun node => node.freshnessProof.freshnessWindowMs) with
  | nan => simp [hmin, JsNumber.add, isoText] at h
  | negInf => simp [hmin, JsNumber.add, isoText] at h
  | posInf => simp [hmin, JsNumber.add, isoText] at h
  | finite least =>
      rw [hmin] at h
      obtain ⟨hmem, hall⟩ := mathMin_eq_finite hmin
      exact ⟨least, by simpa using hmem, by simpa using hall, h⟩

theorem buildChainIntegrityProof_built {nodes : List ControllerChainNode}
    {options : Option (CcrResolverOptions ω)} {proof : ChainIntegrityProof} {w w' : ω}
    {events : List Observation}
    (h : (buildChainIntegrityProof P nodes request options).run w = ⟨.ok proof, w', events⟩) :
    ∃ nowMs, .proofBuilt nowMs ∈ events ∧ notAfterText nowMs nodes = some proof.notAfter := by
  simp only [buildChainIntegrityProof, Program.run_bind_eq_ok, Program.run_sample_eq_ok,
    Program.run_emit_eq_ok] at h
  obtain ⟨nowMs, w₁, first, rest, ⟨-, rfl⟩, ⟨-, w₂, first, rest, ⟨-, rfl⟩, hrest, rfl⟩, rfl⟩ := h
  refine ⟨nowMs, by simp, ?_⟩
  cases htext : notAfterText nowMs nodes with
  | none => simp [htext, rangeError] at hrest
  | some notAfter =>
      simp only [htext, Program.run_bind_eq_ok, Program.run_pure_eq_ok] at hrest
      obtain ⟨signed, w₃, first, rest, -, ⟨rfl, -, -⟩, -⟩ := hrest
      rfl

/-- What the run of a returned chain shows of its freshness. -/
structure FreshnessEvidence (P : ChainPorts ω) (request : ControllerChainResolutionRequest)
    (events : List Observation) (resolution : ControllerChainResolution) : Prop where
  reported : ∀ node ∈ resolution.chain, node.freshnessProof.verified = true ∧
    Reported P request events node.controllerDid node.freshnessProof.freshnessWindowMs
      node.freshnessProof.asOfTime
  built : ∃ nowMs, .proofBuilt nowMs ∈ events ∧
    notAfterText nowMs resolution.chain = some resolution.integrityProof.notAfter

theorem FreshnessEvidence.mono {events events' : List Observation}
    {resolution : ControllerChainResolution}
    (h : FreshnessEvidence P request events resolution)
    (hsub : ∀ event ∈ events, event ∈ events') :
    FreshnessEvidence P request events' resolution := by
  refine ⟨?_, ?_⟩
  · intro node hnode
    exact ⟨(h.reported node hnode).1, (h.reported node hnode).2.mono hsub⟩
  · obtain ⟨nowMs, hbuilt, htext⟩ := h.built
    exact ⟨nowMs, hsub _ hbuilt, htext⟩

theorem verifyChain_evidence {nodes : List ControllerChainNode} {rootDoc : DidDocument}
    {options : Option (CcrResolverOptions ω)} {resolution : ControllerChainResolution} {w w' : ω}
    {events : List Observation}
    (h : (verifyChain P nodes rootDoc request options).run w = ⟨.ok resolution, w', events⟩) :
    FreshnessEvidence P request events resolution := by
  simp only [verifyChain, Program.run_bind_eq_ok, Program.run_pure_eq_ok] at h
  obtain ⟨results, _, checked, _, hresults, ⟨chain, _, _, _, hchain, ⟨-, _, _, _, -, ⟨-, _, _, _, -,
    ⟨-, _, _, _, -, ⟨-, _, _, _, -, ⟨-, _, _, _, -, ⟨proof, _, built, _, hproof,
      ⟨_, _, _, _, -, ⟨rfl, -, rfl⟩, rfl⟩, rfl⟩, rfl⟩, rfl⟩, rfl⟩, rfl⟩, rfl⟩, rfl⟩, rfl⟩ := h
  refine ⟨?_, ?_⟩
  · intro node hnode
    obtain ⟨hverified, hreported⟩ :=
      writeBack_reported (checkAll_reported hresults) hchain node hnode
    exact ⟨hverified, hreported.mono fun _ => List.mem_append_left _⟩
  · obtain ⟨nowMs, hbuilt, htext⟩ := buildChainIntegrityProof_built hproof
    exact ⟨nowMs, by simp [hbuilt], htext⟩

theorem resolveControllerChain_evidence {fuel : Nat} {options : Option (CcrResolverOptions ω)}
    {resolution : ControllerChainResolution} {w w' : ω} {events : List Observation}
    (h : (resolveControllerChain P fuel request options).run w =
      ⟨.ok (some resolution), w', events⟩) : FreshnessEvidence P request events resolution := by
  simp only [resolveControllerChain, Program.run_bind_eq_ok] at h
  obtain ⟨rootDoc, _, first, _, -, hroot, rfl⟩ := h
  cases rootDoc with
  | none => simp [ccrError] at hroot
  | some rootDoc =>
      simp only [Program.run_bind_eq_ok] at hroot
      obtain ⟨-, _, _, _, -, ⟨loaded, _, _, _, -, hloaded, rfl⟩, rfl⟩ := hroot
      cases loaded with
      | none => simp at hloaded
      | some nodes =>
          simp only [Program.run_bind_eq_ok, Program.run_pure_eq_ok, Option.some.injEq] at hloaded
          obtain ⟨-, _, _, _, -, ⟨-, _, _, _, -, ⟨_, _, _, _, hverify, ⟨rfl, -, rfl⟩, rfl⟩, rfl⟩,
            rfl⟩ := hloaded
          exact (verifyChain_evidence hverify).mono fun event hevent => by simp [hevent]

/-- When a chain is returned, every node carries the window and the time of a report
that was checked in the run. The window is within the requested one, and a time that
is a date is no older than the window at the check. The integrity proof expires the
least window after it is built. -/
theorem returned_chain_checked {fuel : Nat} {options : Option (CcrResolverOptions ω)}
    {resolution : ControllerChainResolution} {w w' : ω} {events : List Observation}
    (h : (resolveControllerChain P fuel request options).run w =
      ⟨.ok (some resolution), w', events⟩) :
    (∀ node ∈ resolution.chain, ∃ report nowMs,
      .freshnessChecked node.controllerDid report nowMs ∈ events ∧
        report.freshnessWindowMs = node.freshnessProof.freshnessWindowMs ∧
        report.asOfTime = node.freshnessProof.asOfTime ∧
        (∀ maxMs ∈ request.maxFreshnessWindowMs, ¬ numberLt maxMs report.freshnessWindowMs) ∧
        ∀ asOfMs ∈ P.getTime report.asOfTime,
          AtMost (nowMs - asOfMs) report.freshnessWindowMs) ∧
      ∃ (builtMs : Int) (least : ℚ), .proofBuilt builtMs ∈ events ∧
        (∃ node ∈ resolution.chain, node.freshnessProof.freshnessWindowMs = .finite least) ∧
        (∀ node ∈ resolution.chain, AtMost least node.freshnessProof.freshnessWindowMs) ∧
        isoText (.finite (builtMs + least)) = some resolution.integrityProof.notAfter := by
  have hevidence := resolveControllerChain_evidence h
  obtain ⟨builtMs, hbuilt, htext⟩ := hevidence.built
  obtain ⟨least, hleast, hall, hiso⟩ := notAfterText_eq_some htext
  refine ⟨?_, builtMs, least, hbuilt, hleast, hall, hiso⟩
  intro node hnode
  obtain ⟨-, report, nowMs, hevent, hwindow, htime, hpassed⟩ := hevidence.reported node hnode
  refine ⟨report, nowMs, hevent, hwindow, htime, hpassed.withinMax, ?_⟩
  intro asOfMs hasOf
  have hfresh := hpassed.notStale
  rw [Option.mem_def.mp hasOf] at hfresh
  -- the window is no `NaN`, since the expiry of the proof is a date
  exact atMost_of_not_lt ⟨least, hwindow ▸ hall node hnode⟩ hfresh

/-! ## Freshness of the proof itself -/

/-- Every node was reported as verified, with a date within its window, and the
proof expires with the first of these windows. -/
def FreshnessFailClosed (P : ChainPorts ω)
    (execution : Execution ω Observation ChainFault (Option ControllerChainResolution)) : Prop :=
  ∀ resolution, execution.result = .ok (some resolution) →
    (∀ node ∈ resolution.chain, ∃ report nowMs asOfMs,
      .freshnessChecked node.controllerDid report nowMs ∈ execution.events ∧
        report.verified = true ∧ P.getTime report.asOfTime = some asOfMs ∧
        AtMost (nowMs - asOfMs) report.freshnessWindowMs) ∧
    ∀ node ∈ resolution.chain, ∀ asOfMs ∈ P.getTime node.freshnessProof.asOfTime,
      ∀ notAfterMs ∈ P.getTime resolution.integrityProof.notAfter,
        AtMost (notAfterMs - asOfMs) node.freshnessProof.freshnessWindowMs

namespace HalfMinuteOld

/-- The agent is controlled by the principal, who has no controller. -/
def documents : String → Option DidDocument
  | "did:agent:a" => some ⟨some "did:key:p", none, none⟩
  | "did:key:p" => some ⟨none, none, some [some "did:key:p"]⟩
  | _ => none

/-- At half a minute past noon, a report of noon with a window of one minute. -/
def ports : ChainPorts Unit where
  resolve did w := (.ok (documents did), w)
  verifyDocumentSignature _ w := (.ok true, w)
  getResolverFreshnessProof _ w := (.ok ⟨.finite 60000, "2026-06-20T12:00:00.000Z", true⟩, w)
  isControllerRevoked _ w := (.ok false, w)
  randomUUID w := ("00000000-0000-4000-8000-000000000000", w)
  dateNow w := (1781956830000, w)
  getTime := Calendar.getTime
  numberFormat := NumberFormat.decimal

def agentRequest : ControllerChainResolutionRequest :=
  ⟨"did:agent:a", "00000000-0000-4000-8000-000000000001", "did:key:v", none, none⟩

def options : Option (CcrResolverOptions Unit) :=
  some ⟨some "did:key:r", some fun _ w => (.ok "c2ln", w), none⟩

def execution : Execution Unit Observation ChainFault (Option ControllerChainResolution) :=
  (resolveControllerChain ports 2 agentRequest options).run ()

/-- The proof outlives the window of some node. -/
def outlives (resolution : ControllerChainResolution) : Bool :=
  resolution.chain.any fun node =>
    (Calendar.getTime node.freshnessProof.asOfTime).any fun asOfMs : Int =>
      (Calendar.getTime resolution.integrityProof.notAfter).any fun notAfterMs : Int =>
        !decide (AtMost (notAfterMs - asOfMs) node.freshnessProof.freshnessWindowMs)

theorem returned : ∃ resolution, execution.result = .ok (some resolution) ∧
    outlives resolution = true := by
  have hany : execution.result.toOption.any (fun returned => returned.any outlives) = true := by
    decide +kernel
  obtain ⟨value, hvalue, hsome⟩ := exists_ok_of_any hany
  cases value with
  | none => simp at hsome
  | some resolution => exact ⟨resolution, hvalue, by simpa using hsome⟩

/-- Nothing is wrong with the report, and still the proof is valid for half a minute
more than the report. -/
theorem proof_outlives_window :
    ¬ ∀ (fuel : Nat) (request : ControllerChainResolutionRequest)
      (options : Option (CcrResolverOptions Unit)) (w : Unit),
        FreshnessFailClosed ports ((resolveControllerChain ports fuel request options).run w) := by
  intro h
  obtain ⟨resolution, hreturned, houtlives⟩ := returned
  have hexpiry := (h 2 agentRequest options () resolution hreturned).2
  simp only [outlives, List.any_eq_true, Option.any_eq_true, Bool.not_eq_true',
    decide_eq_false_iff_not] at houtlives
  obtain ⟨node, hnode, asOfMs, hasOf, notAfterMs, hnotAfter, hlonger⟩ := houtlives
  exact hlonger (hexpiry node hnode asOfMs hasOf notAfterMs hnotAfter)

theorem returned_checked : ∃ resolution, execution.result = .ok (some resolution) ∧
    ∃ (builtMs : Int) (least : ℚ), .proofBuilt builtMs ∈ execution.events ∧
      (∃ node ∈ resolution.chain, node.freshnessProof.freshnessWindowMs = .finite least) ∧
      isoText (.finite (builtMs + least)) = some resolution.integrityProof.notAfter := by
  obtain ⟨resolution, hreturned, -⟩ := returned
  have hrun : (resolveControllerChain ports 2 agentRequest options).run () =
      ⟨.ok (some resolution), execution.world, execution.events⟩ :=
    Execution.eq_of_result hreturned
  obtain ⟨builtMs, least, hbuilt, hleast, -, hiso⟩ := (returned_chain_checked hrun).2
  exact ⟨resolution, hreturned, builtMs, least, hbuilt, hleast, hiso⟩

end HalfMinuteOld

end Coivitas.Identity.ControllerChain
