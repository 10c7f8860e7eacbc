import Coivitas.Identity.FederatedBinding

/-! # Versions never go back

A document enters the cache before its version enters the watermark. As long as
no write of the watermark is lost, every version that was returned is at most the
level that the next document has to reach.
-/

namespace Coivitas.Identity.Federation

open Foundation Coivitas.Types Policy Relation

/-- The level that everything cached or returned stays below: the watermark, as the flight
has read it, or the version the flight is about to write. -/
def guardLevel (v : View) : ℚ :=
  match v.flight with
  | some ⟨.writingWatermark document, _⟩ => documentVersion document
  | some ⟨.checking _ _ _ persisted, _⟩ => level persisted
  | _ => level v.watermark

/-- The returned versions do not decrease, and no later one can be smaller. -/
structure Ordered (v : View) : Prop where
  numeric : ∀ entry ∈ v.returned, IsNumeric entry.document
  sorted : v.returned.Pairwise fun earlier later =>
    documentVersion earlier.document ≤ documentVersion later.document
  cached : ∀ entry ∈ v.cache, ∀ earlier ∈ v.returned,
    documentVersion earlier.document ≤ documentVersion entry.document
  returnedLevel : ∀ earlier ∈ v.returned, documentVersion earlier.document ≤ guardLevel v
  cachedLevel : ∀ entry ∈ v.cache, documentVersion entry.document ≤ guardLevel v
  writing : ∀ document arrivals, v.flight = some ⟨.writingWatermark document, arrivals⟩ →
    ∀ entry ∈ v.cache, documentVersion document ≤ documentVersion entry.document
  persisted : ∀ startEpoch document cacheVersion persisted arrivals,
    v.flight = some ⟨.checking startEpoch document cacheVersion persisted, arrivals⟩ →
      level persisted ≤ level v.watermark

variable {P : ResolverPorts} {cfg : ResolverConfig} {answers : List Arrival → Prop}
  {s : ResolverState} {did : String} {v v' : View}

/-- The log grows by a version that is no smaller than those before. -/
theorem pairwise_append {log : List Returned} {entry : Returned}
    (hsorted : log.Pairwise fun earlier later =>
      documentVersion earlier.document ≤ documentVersion later.document)
    (hentry : ∀ earlier ∈ log,
      documentVersion earlier.document ≤ documentVersion entry.document) :
    (log ++ [entry]).Pairwise fun earlier later =>
      documentVersion earlier.document ≤ documentVersion later.document := by
  refine List.pairwise_append.mpr ⟨hsorted, List.pairwise_singleton _ _, ?_⟩
  intro earlier hearlier later hlater
  rw [List.mem_singleton.mp hlater]
  exact hentry earlier hearlier

/-- Without a flight that checks or writes, the level is the watermark. -/
theorem guardLevel_le_level (h : Ordered v)
    (hstage : ∀ document arrivals, v.flight ≠ some ⟨.writingWatermark document, arrivals⟩) :
    guardLevel v ≤ level v.watermark := by
  unfold guardLevel
  split
  next document arrivals hflight => exact absurd hflight (hstage document arrivals)
  next startEpoch document cacheVersion persisted arrivals hflight =>
    exact h.persisted _ _ _ _ _ hflight
  next => exact le_rfl

/-- A change of the flight that leaves it neither checking nor writing. -/
theorem Ordered.withLevel (h : Ordered v) {flight : Option Flight} {watermark : Option ℚ}
    (hlevel : guardLevel v ≤ level watermark)
    (hquiet : ∀ stage arrivals, flight = some ⟨stage, arrivals⟩ →
      (∀ document, stage ≠ .writingWatermark document) ∧
        ∀ startEpoch document cacheVersion persisted,
          stage ≠ .checking startEpoch document cacheVersion persisted) :
    Ordered { v with flight := flight, watermark := watermark } := by
  have hguard : guardLevel { v with flight := flight, watermark := watermark } =
      level watermark := by
    unfold guardLevel
    split
    next document arrivals hflight => exact absurd rfl ((hquiet _ _ hflight).1 document)
    next hflight => exact absurd rfl ((hquiet _ _ hflight).2 _ _ _ _)
    next => rfl
  refine ⟨h.numeric, h.sorted, h.cached, ?_, ?_, ?_, ?_⟩
  · intro earlier hearlier
    rw [hguard]
    exact (h.returnedLevel earlier hearlier).trans hlevel
  · intro entry hentry
    rw [hguard]
    exact (h.cachedLevel entry hentry).trans hlevel
  · intro document arrivals hflight
    exact absurd rfl ((hquiet _ _ hflight).1 document)
  · intro startEpoch document cacheVersion persisted arrivals hflight
    exact absurd rfl ((hquiet _ _ hflight).2 _ _ _ _)

theorem Move.ordered (hmove : Move P did answers True v v') (hsound : Sound P did answers v)
    (h : Ordered v) : Ordered v' := by
  cases hmove with
  | @hit entry hcache =>
      have hnumeric := (hsound.cached entry hcache).1
      refine ⟨?_, pairwise_append h.sorted (h.cached entry hcache), ?_, ?_, h.cachedLevel,
        h.writing, h.persisted⟩
      · intro earlier hearlier
        rcases List.mem_append.mp hearlier with hold | hnew
        · exact h.numeric earlier hold
        · rw [List.mem_singleton.mp hnew]
          exact hnumeric
      · intro entry' hentry' earlier hearlier
        obtain rfl : entry = entry' := Option.some.inj (hcache.symm.trans hentry')
        rcases List.mem_append.mp hearlier with hold | hnew
        · exact h.cached entry hcache earlier hold
        · rw [List.mem_singleton.mp hnew]
      · intro earlier hearlier
        rcases List.mem_append.mp hearlier with hold | hnew
        · exact h.returnedLevel earlier hold
        · rw [List.mem_singleton.mp hnew]
          exact h.cachedLevel entry hcache
  | forget =>
      exact ⟨h.numeric, h.sorted, by simp, h.returnedLevel, by simp, fun _ _ _ => by simp,
        h.persisted⟩
  | start startEpoch hflight =>
      refine h.withLevel (guardLevel_le_level h (by simp [hflight])) ?_
      rintro stage arrivals ⟨⟩
      simp
  | choose startEpoch' cached hflight hanswers hchosen hcached =>
      refine h.withLevel (guardLevel_le_level h (by simp [hflight])) ?_
      rintro stage arrivals ⟨⟩
      simp
  | abandon hflight hstage =>
      refine h.withLevel (guardLevel_le_level h ?_) (by simp)
      rintro document arrivals hwriting
      obtain rfl := Option.some.inj (hflight.symm.trans hwriting)
      exact hstage document rfl
  | read hflight =>
      -- The flight checks against the watermark as it is now.
      have hguard : guardLevel v = level v.watermark := by simp [guardLevel, hflight]
      refine ⟨h.numeric, h.sorted, h.cached, ?_, ?_, ?_, ?_⟩
      · intro earlier hearlier
        exact (h.returnedLevel earlier hearlier).trans hguard.le
      · intro entry hentry
        exact (h.cachedLevel entry hentry).trans hguard.le
      · rintro document arrivals ⟨⟩
      · rintro startEpoch document cacheVersion persisted arrivals ⟨⟩
        exact le_rfl
  | @commit startEpoch document cacheVersion persisted arrivals expiresAt hflight hversion =>
      obtain ⟨hanswers, hchosen, version, rfl, hnonneg⟩ := hsound.flight _ hflight
      have hlevel := level_le_of_not_rollback hchosen.numeric hnonneg hversion
      have hguard : guardLevel v = level persisted := by simp [guardLevel, hflight]
      have hreturned : ∀ earlier ∈ v.returned,
          documentVersion earlier.document ≤ documentVersion document := by
        intro earlier hearlier
        exact (hguard ▸ h.returnedLevel earlier hearlier).trans hlevel
      refine ⟨h.numeric, h.sorted, ?_, hreturned, ?_, ?_, ?_⟩
      · rintro entry ⟨⟩
        exact hreturned
      · rintro entry ⟨⟩
        exact le_rfl
      · rintro document' arrivals' ⟨⟩ entry ⟨⟩
        exact le_rfl
      · rintro startEpoch' document' cacheVersion' persisted' arrivals' ⟨⟩
  | @written document arrivals watermark hflight hraised =>
      have hguard : guardLevel v = documentVersion document := by simp [guardLevel, hflight]
      have hnumeric := (hsound.flight _ hflight).2.1.numeric
      have hold : Ordered { v with flight := none, watermark := watermark } :=
        h.withLevel (hguard.le.trans hraised) (by simp)
      have hreturned : ∀ earlier ∈ v.returned,
          documentVersion earlier.document ≤ documentVersion document := by
        intro earlier hearlier
        exact hguard ▸ h.returnedLevel earlier hearlier
      refine ⟨?_, pairwise_append h.sorted hreturned, ?_, ?_, hold.cachedLevel, by simp, by simp⟩
      · intro earlier hearlier
        rcases List.mem_append.mp hearlier with hmem | hnew
        · exact h.numeric earlier hmem
        · rw [List.mem_singleton.mp hnew]
          exact hnumeric
      · intro entry hentry earlier hearlier
        rcases List.mem_append.mp hearlier with hmem | hnew
        · exact h.cached entry hentry earlier hmem
        · rw [List.mem_singleton.mp hnew]
          exact h.writing _ _ hflight entry hentry
      · intro earlier hearlier
        rcases List.mem_append.mp hearlier with hmem | hnew
        · exact hold.returnedLevel earlier hmem
        · rw [List.mem_singleton.mp hnew]
          exact hraised
  | @failed document arrivals watermark hflight hkept =>
      have hguard : guardLevel v = documentVersion document := by simp [guardLevel, hflight]
      exact h.withLevel (hguard.le.trans (hkept trivial)) (by simp)
  | @raise watermark hraised =>
      have hguard : guardLevel v ≤ guardLevel { v with watermark := watermark } := by
        simp only [guardLevel]
        split
        next => exact le_rfl
        next => exact le_rfl
        next => exact hraised
      refine ⟨h.numeric, h.sorted, h.cached, ?_, ?_, h.writing, ?_⟩
      · intro earlier hearlier
        exact (h.returnedLevel earlier hearlier).trans hguard
      · intro entry hentry
        exact (h.cachedLevel entry hentry).trans hguard
      · intro startEpoch document cacheVersion persisted arrivals hflight
        exact (h.persisted _ _ _ _ _ hflight).trans hraised

theorem moves_ordered (hmoves : ReflTransGen (Move P did answers True) v v')
    (hsound : Sound P did answers v) (h : Ordered v) : Ordered v' := by
  induction hmoves with
  | refl => exact h
  | tail hmoves hmove ih => exact hmove.ordered (moves_sound hmoves hsound) ih

theorem ordered_initial (watermark : String → Option ℚ) (did : String) :
    Ordered (view (.initial watermark) did) :=
  ⟨by simp [view, ResolverState.initial], by simp [view, ResolverState.initial],
    by simp [view, ResolverState.initial], by simp [view, ResolverState.initial],
    by simp [view, ResolverState.initial], by simp [view, ResolverState.initial],
    by simp [view, ResolverState.initial]⟩

/-- In a run in which no write of the watermark is lost, the versions that `resolve`
returns for an identifier do not decrease. -/
theorem no_version_rollback {watermark : String → Option ℚ} {events : List Event}
    (hkept : Along (step P cfg) WatermarkKept (.initial watermark) events)
    (hrun : run (step P cfg) (.initial watermark) events = some s) (did : String) :
    (∀ entry ∈ s.returned, entry.did = did →
      versionOr 1 entry.document = .num (documentVersion entry.document)) ∧
    (s.returned.filter fun entry => entry.did = did).Pairwise fun earlier later =>
      documentVersion earlier.document ≤ documentVersion later.document := by
  have hstep : ∀ s event s',
      (Sound P did (fun _ => True) (view s did) ∧ Ordered (view s did)) →
        WatermarkKept s event → step P cfg s event = some s' →
          Sound P did (fun _ => True) (view s' did) ∧ Ordered (view s' did) := by
    rintro s event s' ⟨hsound, hordered⟩ hevent hstep
    have hmoves : ReflTransGen (Move P did (fun _ => True) True) (view s did) (view s' did) :=
      moves_of_step (fun _ _ => trivial) (fun _ => hevent) hstep did
    exact ⟨moves_sound hmoves hsound, moves_ordered hmoves hsound hordered⟩
  have hview := run_invariant (fun s => Sound P did (fun _ => True) (view s did) ∧
    Ordered (view s did)) hstep ⟨sound_initial watermark did, ordered_initial watermark did⟩
    hkept hrun
  refine ⟨?_, hview.2.sorted⟩
  intro entry hentry hdid
  exact hview.2.numeric entry (List.mem_filter.mpr ⟨hentry, decide_eq_true hdid⟩)

/-! ## One node -/

section SingleAnswer

variable {P : ResolverPorts} {cfg : ResolverConfig} {did : String} {document earlier : Json}
  {now : Int} {arrivals arrivals' : List Arrival}

theorem collect_later (nodeId : String) (haccepts : acceptsBody did document = true)
    (hbinding : checkBindingProof P document now = .ok ()) (hlater : isLater P document)
    (hfirst : isFirst document = false)
    (hproof : isTruthy (field "rotationProof" document) = true) :
    collect P did [⟨nodeId, .body document, now, some true⟩] = some [document] := by
  simp [collect, haccepts, verifyDocumentSignature, checkDocument, hbinding, hlater, hfirst, hproof,
    require, bind, Except.bind, pure, Except.pure]

/-- A fetch whose watermark is written, then a call answered from the cache. -/
theorem run_kept_write (hchoose : choose P cfg did 1 arrivals = some (some document))
    (hrollback : ¬ isRollback P document (.finite 0) none)
    (hvalid : ¬ now + cfg.cacheTtlMs < now + 1000) :
    ∃ s, run (step P cfg) (.initial fun _ => none)
        [.resolve did now, .settle did now 1 arrivals, .readWatermark did true, .check did now,
          .writeWatermark did true true, .resolve did (now + 1000)] = some s ∧
      s.returned.map (fun entry => (entry.did, documentVersion entry.document)) =
        [(did, documentVersion document), (did, documentVersion document)] := by
  simp only [run, step, getCached, ResolverState.initial, dropExpired, setFlight, settle, hchoose,
    Function.update_self, Option.map_none, Option.filter_none, if_true, cacheVersionOf,
    Option.getD_none, checkFlight, if_neg hrollback, ne_eq, not_true, if_false, setCached,
    finishFlight, true_or, raiseTo, deliver, Option.filter_some, hvalid, decide_true,
    Option.map_some, not_false_eq_true]
  exact ⟨_, rfl, by simp⟩

/-- A fetch whose watermark is lost, and another one after the cached document has expired. -/
theorem run_lost_write (hchoose : choose P cfg did 1 arrivals = some (some document))
    (hchoose' : choose P cfg did 1 arrivals' = some (some earlier))
    (hrollback : ¬ isRollback P document (.finite 0) none)
    (hrollback' : ¬ isRollback P earlier (.finite 0) none)
    (hvalid : ¬ now + cfg.cacheTtlMs < now + 1000)
    (hexpired : now + cfg.cacheTtlMs < now + 60001) :
    ∃ s, run (step P cfg) (.initial fun _ => none)
        [.resolve did now, .settle did now 1 arrivals, .readWatermark did true, .check did now,
          .writeWatermark did false false, .resolve did (now + 1000),
          .resolve did (now + 60001), .settle did (now + 60001) 1 arrivals',
          .readWatermark did true, .check did (now + 60001), .writeWatermark did true true] =
            some s ∧
      s.returned.map (fun entry => (entry.did, documentVersion entry.document)) =
        [(did, documentVersion document), (did, documentVersion earlier)] := by
  simp only [run, step, getCached, ResolverState.initial, dropExpired, setFlight, settle, hchoose,
    hchoose', Function.update_self, Option.map_none, Option.filter_none, if_true, cacheVersionOf,
    Option.getD_none, checkFlight, if_neg hrollback, if_neg hrollback', ne_eq, not_true, if_false,
    setCached, finishFlight, raiseTo, deliver, Bool.false_eq_true, or_self, Option.filter_some,
    hvalid, hexpired, decide_true, decide_false, Option.map_some, not_false_eq_true]
  exact ⟨_, rfl, by simp⟩

end SingleAnswer

/-! The intruder's node answers with version 5, whose watermark cannot be written, and with
version 4 when the cache has expired. -/

namespace IntruderNode

def agentDid : String := Takeover.rotation.agentDid

/-- The node answers with a later version, for which `verifyDIDBinding` returns true. -/
def arrival (version : ℚ) : Arrival := ⟨"node", .body (document version), now, some true⟩

theorem documentVersion_document (version : ℚ) : documentVersion (document version) = version := by
  simp [documentVersion, versionOr, version_document]

theorem choose_later {version : ℚ} (hlater : 1 < version) :
    choose ports singleNode agentDid 1 [arrival version] = some (some (document version)) := by
  have hnumeric : IsNumeric (document version) := by
    rw [IsNumeric, documentVersion_document]
    simp [versionOr, version_document]
  have hisLater : isLater ports (document version) := by
    simp [isLater, version_document, toNumber, itemNumber, numberLt, hlater]
  have hfirst : isFirst (document version) = false := by
    have hne : version ≠ 0 := (zero_lt_one.trans hlater).ne'
    simp [isFirst, version_document, isTruthy, hne, hlater.ne']
  have hproof : isTruthy (field "rotationProof" (document version)) = true := by
    simp [document, field, rotationProof, isTruthy]
  have haccepts : acceptsBody agentDid (document version) = true := by
    rw [acceptsBody, id_document, beq_iff_eq]
    rfl
  have hcollect : collect ports agentDid [arrival version] = some [document version] :=
    collect_later "node" haccepts (binding_checked version) hisLater hfirst hproof
  simp [choose, hcollect, singleNode, selectByQuorum_single hnumeric]

theorem not_rollback {version : ℚ} (hlater : 1 < version) :
    ¬ isRollback ports (document version) (.finite 0) none := by
  have hpos : 0 ≤ version := zero_le_one.trans hlater.le
  simp [isRollback, toNumber, itemNumber, versionOr, version_document, numberMax, numberLt, hpos]

/-- The write of version 5 succeeds, and a call returns it from the cache. -/
def keptWrite : List Event :=
  [.resolve agentDid now, .settle agentDid now 1 [arrival 5], .readWatermark agentDid true,
    .check agentDid now, .writeWatermark agentDid true true, .resolve agentDid (now + 1000)]

theorem no_rollback_after_kept_write :
    ∃ s, run (step ports singleNode) (.initial fun _ => none) keptWrite = some s ∧
      s.returned.map (fun entry => (entry.did, documentVersion entry.document)) =
        [(agentDid, 5), (agentDid, 5)] ∧
      (s.returned.filter fun entry => entry.did = agentDid).Pairwise fun earlier later =>
        documentVersion earlier.document ≤ documentVersion later.document := by
  have hfive : (1 : ℚ) < 5 := by norm_num
  obtain ⟨s, hrun, hreturned⟩ := run_kept_write (choose_later hfive) (not_rollback hfive)
    (show ¬ now + singleNode.cacheTtlMs < now + 1000 by decide)
  rw [documentVersion_document 5] at hreturned
  refine ⟨s, hrun, hreturned, (no_version_rollback ?_ hrun agentDid).2⟩
  refine along_of_forall_mem ?_
  simp [WatermarkKept]

/-- The write of version 5 is lost, a call returns it from the cache, and a call after the
expiry fetches version 4. -/
def lostWrite : List Event :=
  [.resolve agentDid now, .settle agentDid now 1 [arrival 5], .readWatermark agentDid true,
    .check agentDid now, .writeWatermark agentDid false false,
    .resolve agentDid (now + 1000),
    .resolve agentDid (now + 60001), .settle agentDid (now + 60001) 1 [arrival 4],
    .readWatermark agentDid true, .check agentDid (now + 60001),
    .writeWatermark agentDid true true]

theorem rollback_after_lost_write :
    ∃ s, run (step ports singleNode) (.initial fun _ => none) lostWrite = some s ∧
      s.returned.map (fun entry => (entry.did, documentVersion entry.document)) =
        [(agentDid, 5), (agentDid, 4)] := by
  have hfive : (1 : ℚ) < 5 := by norm_num
  have hfour : (1 : ℚ) < 4 := by norm_num
  obtain ⟨s, hrun, hreturned⟩ := run_lost_write (choose_later hfive) (choose_later hfour)
    (not_rollback hfive) (not_rollback hfour)
    (show ¬ now + singleNode.cacheTtlMs < now + 1000 by decide)
    (show now + singleNode.cacheTtlMs < now + 60001 by decide)
  rw [documentVersion_document 5, documentVersion_document 4] at hreturned
  exact ⟨s, hrun, hreturned⟩

end IntruderNode

end Coivitas.Identity.Federation
