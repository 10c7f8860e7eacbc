import Coivitas.Identity.FederatedResolver
import Coivitas.Identity.Registry
import Mathlib.Logic.Relation

/-! # Documents bound to their identifiers

What one identifier sees of a resolver is moved by each piece of a call in one of
ten ways. A fetched document is bound to its identifier by its key or by
`verifyDIDBinding`, unless its version is a number between 0 and 1: such a version
is neither a first nor a later one, and no binding is checked for it.
-/

namespace Coivitas.Identity.Federation

open Foundation Coivitas.Types Policy Relation

/-! ## One identifier -/

/-- What one identifier sees of a resolver. -/
structure View where
  cache : Option CacheEntry
  flight : Option Flight
  watermark : Option ℚ
  returned : List Returned

def view (s : ResolverState) (did : String) : View where
  cache := s.cache did
  flight := s.inflight did
  watermark := s.watermark did
  returned := s.returned.filter fun entry => entry.did = did

def View.withFlight (v : View) (stage : Stage) (arrivals : List Arrival) : View :=
  { v with flight := some ⟨stage, arrivals⟩ }

/-- The version below which the watermark rejects. -/
def level (watermark : Option ℚ) : ℚ := max 0 (watermark.getD 0)

/-- The ways in which a piece of a call moves the view of an identifier. Flights are
decided on `answers`; a failed write that loses the version is excluded when `kept`. -/
inductive Move (P : ResolverPorts) (did : String) (answers : List Arrival → Prop) (kept : Prop) :
    View → View → Prop
  | hit {v : View} {entry : CacheEntry} (hcache : v.cache = some entry) :
      Move P did answers kept v
        { v with returned := v.returned ++ [⟨did, entry.document, none⟩] }
  | forget (v : View) : Move P did answers kept v { v with cache := none }
  | start {v : View} (startEpoch : Nat) (hflight : v.flight = none) :
      Move P did answers kept v (v.withFlight (.fanningOut startEpoch) [])
  | choose {v : View} {startEpoch : Nat} {arrivals arrivals' : List Arrival} {document : Json}
      (startEpoch' : Nat) (cached : Option Json)
      (hflight : v.flight = some ⟨.fanningOut startEpoch, arrivals'⟩) (hanswers : answers arrivals)
      (hchosen : Chosen P did arrivals document)
      (hcached : ∀ document ∈ cached, ∃ entry ∈ v.cache, entry.document = document) :
      Move P did answers kept v (v.withFlight
        (.readingWatermark startEpoch' document (cacheVersionOf P cached)) arrivals)
  | abandon {v : View} {flight : Flight} (hflight : v.flight = some flight)
      (hstage : ∀ document, flight.stage ≠ .writingWatermark document) :
      Move P did answers kept v { v with flight := none }
  | read {v : View} {startEpoch : Nat} {document : Json} {cacheVersion : JsNumber}
      {arrivals : List Arrival}
      (hflight : v.flight = some ⟨.readingWatermark startEpoch document cacheVersion, arrivals⟩) :
      Move P did answers kept v (v.withFlight
        (.checking startEpoch document cacheVersion v.watermark) arrivals)
  | commit {v : View} {startEpoch : Nat} {document : Json} {cacheVersion : JsNumber}
      {persisted : Option ℚ} {arrivals : List Arrival} (expiresAt : Int)
      (hflight : v.flight =
        some ⟨.checking startEpoch document cacheVersion persisted, arrivals⟩)
      (hversion : ¬ isRollback P document cacheVersion persisted) :
      Move P did answers kept v ({ v with cache := some ⟨document, expiresAt⟩ }.withFlight
        (.writingWatermark document) arrivals)
  | written {v : View} {document : Json} {arrivals : List Arrival} {watermark : Option ℚ}
      (hflight : v.flight = some ⟨.writingWatermark document, arrivals⟩)
      (hraised : documentVersion document ≤ level watermark) :
      Move P did answers kept v { v with
        flight := none
        watermark := watermark
        returned := v.returned ++ [⟨did, document, some arrivals⟩] }
  | failed {v : View} {document : Json} {arrivals : List Arrival} {watermark : Option ℚ}
      (hflight : v.flight = some ⟨.writingWatermark document, arrivals⟩)
      (hkept : kept → documentVersion document ≤ level watermark) :
      Move P did answers kept v { v with flight := none, watermark := watermark }
  | raise (v : View) {watermark : Option ℚ} (hraised : level v.watermark ≤ level watermark) :
      Move P did answers kept v { v with watermark := watermark }

/-! ## Views of the updated states -/

section Views

variable (s : ResolverState) (did did' : String)

theorem view_setFlight (flight : Option Flight) :
    view (setFlight s did flight) did' =
      if did' = did then { view s did' with flight := flight } else view s did' := by
  by_cases hdid : did' = did
  · simp [view, setFlight, hdid]
  · simp [view, setFlight, hdid]

theorem view_cache (cache : Option CacheEntry) :
    view { s with cache := Function.update s.cache did cache } did' =
      if did' = did then { view s did' with cache := cache } else view s did' := by
  by_cases hdid : did' = did
  · simp [view, hdid]
  · simp [view, hdid]

theorem view_deliver (document : Json) (fetched : Option (List Arrival)) :
    view (deliver s ⟨did, document, fetched⟩) did' =
      if did' = did then
        { view s did' with returned := (view s did').returned ++ [⟨did, document, fetched⟩] }
      else view s did' := by
  by_cases hdid : did' = did
  · simp [view, deliver, hdid, List.filter_append]
  · have hne : ¬ did = did' := fun h => hdid h.symm
    simp [view, deliver, hdid, hne, List.filter_append]

/-- What `raiseTo` leaves in the store. -/
def raised (watermark : Option ℚ) (version : ℚ) : Option ℚ :=
  some ((watermark.map fun current => max current version).getD version)

theorem view_raiseTo (version : ℚ) :
    view (raiseTo s did version) did' =
      if did' = did then { view s did' with watermark := raised (s.watermark did) version }
      else view s did' := by
  by_cases hdid : did' = did
  · simp [view, raiseTo, raised, hdid]
  · simp [view, raiseTo, hdid]

theorem level_le_raised (watermark : Option ℚ) (version : ℚ) :
    level watermark ≤ level (raised watermark version) := by
  cases watermark with
  | none => simp [level, raised]
  | some current => exact max_le_max le_rfl (le_max_left current version)

theorem le_level_raised (watermark : Option ℚ) (version : ℚ) :
    version ≤ level (raised watermark version) := by
  cases watermark with
  | none => simp [level, raised]
  | some current => simp [level, raised]

theorem view_dropExpired (now : Int) :
    view (dropExpired s did now) did' =
      if did' = did then { view s did' with
        cache := (s.cache did).filter fun entry => ¬ entry.expiresAt < now } else view s did' :=
  view_cache s did did' _

theorem mem_cache_of_getCached {document : Json} {now : Int}
    (h : getCached s did now = some document) :
    ∃ entry, s.cache did = some entry ∧ entry.document = document := by
  obtain ⟨entry, hentry, hdocument⟩ := Option.map_eq_some_iff.mp h
  exact ⟨entry, (Option.filter_eq_some_iff.mp hentry).1, hdocument⟩

end Views

/-! ## The moves of an event -/

/-- The answers a fan-out ends with. -/
def Event.arrivals? : Event → Option (List Arrival)
  | .settle _ _ _ arrivals => some arrivals
  | _ => none

/-- A write of the watermark that throws leaves it at the version or above. -/
def WatermarkKept (s : ResolverState) : Event → Prop
  | .writeWatermark did false false => ∀ document arrivals,
      s.inflight did = some ⟨.writingWatermark document, arrivals⟩ →
        documentVersion document ≤ level (s.watermark did)
  | _ => True

variable {P : ResolverPorts} {cfg : ResolverConfig} {answers : List Arrival → Prop} {kept : Prop}
  {s s' : ResolverState}

/-- An expired entry is forgotten. -/
theorem forget_filter (did : String) (v : View) (keep : CacheEntry → Bool) :
    ReflTransGen (Move P did answers kept) v { v with cache := v.cache.filter keep } := by
  cases hfilter : v.cache.filter keep with
  | none => exact .single (.forget v)
  | some entry =>
      rw [← (Option.filter_eq_some_iff.mp hfilter).1]

theorem moves_resolve {did : String} {now : Int}
    (hstep : step P cfg s (.resolve did now) = some s') :
    ReflTransGen (Move P did answers kept) (view s did) (view s' did) := by
  simp only [step] at hstep
  split at hstep
  next document hcached =>
    obtain rfl := Option.some.inj hstep
    obtain ⟨entry, hentry, rfl⟩ := mem_cache_of_getCached s did hcached
    rw [view_deliver, if_pos rfl]
    exact .single (.hit hentry)
  next hcached =>
    have hdrop : ReflTransGen (Move P did answers kept) (view s did)
        (view (dropExpired s did now) did) := by
      rw [view_dropExpired, if_pos rfl]
      exact forget_filter did (view s did) _
    split at hstep
    next =>
      obtain rfl := Option.some.inj hstep
      exact hdrop
    next hnone =>
      obtain rfl := Option.some.inj hstep
      refine hdrop.trans (.single ?_)
      rw [view_setFlight, if_pos rfl]
      exact .start _ hnone

theorem moves_settle {did : String} {now : Int} {targets : Nat} {arrivals : List Arrival}
    (hanswers : answers arrivals)
    (hstep : step P cfg s (.settle did now targets arrivals) = some s') :
    ReflTransGen (Move P did answers kept) (view s did) (view s' did) := by
  simp only [step] at hstep
  split at hstep
  next startEpoch arrivals' hflight =>
    obtain rfl := Option.some.inj hstep
    unfold settle
    split
    next document hchoose =>
      rw [view_setFlight, if_pos rfl, view_dropExpired, if_pos rfl]
      refine .trans (.single (.choose startEpoch (getCached s did now) hflight hanswers
        (chosen_of_choose hchoose) ?_)) (forget_filter did _ _)
      intro document hcached
      exact mem_cache_of_getCached s did hcached
    next =>
      rw [view_setFlight, if_pos rfl]
      exact .single (.abandon hflight (by simp))
  next => cases hstep

theorem moves_readWatermark {did : String} {succeeds : Bool}
    (hstep : step P cfg s (.readWatermark did succeeds) = some s') :
    ReflTransGen (Move P did answers kept) (view s did) (view s' did) := by
  simp only [step] at hstep
  split at hstep
  next startEpoch document cacheVersion arrivals hflight =>
    obtain rfl := Option.some.inj hstep
    rw [view_setFlight, if_pos rfl]
    cases succeeds with
    | true => exact .single (.read hflight)
    | false => exact .single (.abandon hflight (by simp))
  next => cases hstep

theorem moves_check {did : String} {now : Int}
    (hstep : step P cfg s (.check did now) = some s') :
    ReflTransGen (Move P did answers kept) (view s did) (view s' did) := by
  simp only [step] at hstep
  split at hstep
  next startEpoch document cacheVersion persisted arrivals hflight =>
    obtain rfl := Option.some.inj hstep
    unfold checkFlight
    split
    next =>
      rw [view_setFlight, if_pos rfl]
      exact .single (.abandon hflight (by simp))
    next hversion =>
      split
      next =>
        rw [view_setFlight, if_pos rfl]
        exact .single (.abandon hflight (by simp))
      next =>
        rw [view_setFlight, if_pos rfl, setCached, view_cache, if_pos rfl]
        exact .single (.commit _ hflight hversion)
  next => cases hstep

theorem moves_writeWatermark {did : String} {succeeds written : Bool}
    (hkept : kept → WatermarkKept s (.writeWatermark did succeeds written))
    (hstep : step P cfg s (.writeWatermark did succeeds written) = some s') :
    ReflTransGen (Move P did answers kept) (view s did) (view s' did) := by
  simp only [step] at hstep
  split at hstep
  next document arrivals hflight =>
    obtain rfl := Option.some.inj hstep
    cases succeeds with
    | true =>
        simp only [finishFlight, true_or, if_true]
        rw [view_deliver, if_pos rfl, view_setFlight, if_pos rfl, view_raiseTo, if_pos rfl]
        exact .single (.written hflight (le_level_raised _ _))
    | false =>
        cases written with
        | true =>
            simp only [finishFlight, or_true, if_true, Bool.false_eq_true, if_false]
            rw [view_setFlight, if_pos rfl, view_raiseTo, if_pos rfl]
            exact .single (.failed hflight fun _ => le_level_raised _ _)
        | false =>
            simp only [finishFlight, Bool.false_eq_true, or_self, if_false]
            rw [view_setFlight, if_pos rfl]
            exact .single (.failed hflight fun h => hkept h document arrivals hflight)
  next => cases hstep

/-- Each event moves the view of every identifier by moves of the list. -/
theorem moves_of_step {event : Event} (hanswers : ∀ arrivals ∈ event.arrivals?, answers arrivals)
    (hkept : kept → WatermarkKept s event) (hstep : step P cfg s event = some s')
    (did : String) : ReflTransGen (Move P did answers kept) (view s did) (view s' did) := by
  cases event with
  | resolve did' now =>
      by_cases hdid : did = did'
      · subst hdid
        exact moves_resolve hstep
      · suffices hview : view s' did = view s did from hview ▸ .refl
        simp only [step] at hstep
        split at hstep
        next =>
          obtain rfl := Option.some.inj hstep
          rw [view_deliver, if_neg hdid]
        next =>
          split at hstep
          next =>
            obtain rfl := Option.some.inj hstep
            rw [view_dropExpired, if_neg hdid]
          next =>
            obtain rfl := Option.some.inj hstep
            rw [view_setFlight, if_neg hdid, view_dropExpired, if_neg hdid]
  | settle did' now targets arrivals =>
      by_cases hdid : did = did'
      · subst hdid
        exact moves_settle (hanswers arrivals rfl) hstep
      · suffices hview : view s' did = view s did from hview ▸ .refl
        simp only [step] at hstep
        split at hstep
        next =>
          obtain rfl := Option.some.inj hstep
          unfold settle
          split
          next => rw [view_setFlight, if_neg hdid, view_dropExpired, if_neg hdid]
          next => rw [view_setFlight, if_neg hdid]
        next => cases hstep
  | readWatermark did' succeeds =>
      by_cases hdid : did = did'
      · subst hdid
        exact moves_readWatermark hstep
      · suffices hview : view s' did = view s did from hview ▸ .refl
        simp only [step] at hstep
        split at hstep
        next =>
          obtain rfl := Option.some.inj hstep
          rw [view_setFlight, if_neg hdid]
        next => cases hstep
  | check did' now =>
      by_cases hdid : did = did'
      · subst hdid
        exact moves_check hstep
      · suffices hview : view s' did = view s did from hview ▸ .refl
        simp only [step] at hstep
        split at hstep
        next =>
          obtain rfl := Option.some.inj hstep
          unfold checkFlight
          split
          next => rw [view_setFlight, if_neg hdid]
          next =>
            split
            next => rw [view_setFlight, if_neg hdid]
            next => rw [view_setFlight, if_neg hdid, setCached, view_cache, if_neg hdid]
        next => cases hstep
  | writeWatermark did' succeeds written =>
      by_cases hdid : did = did'
      · subst hdid
        exact moves_writeWatermark hkept hstep
      · suffices hview : view s' did = view s did from hview ▸ .refl
        simp only [step] at hstep
        split at hstep
        next =>
          obtain rfl := Option.some.inj hstep
          cases succeeds <;> cases written <;>
            simp [finishFlight, view_deliver, view_setFlight, view_raiseTo, hdid]
        next => cases hstep
  | invalidateCache did' =>
      obtain rfl := Option.some.inj hstep
      by_cases hdid : did = did'
      · subst hdid
        refine .single ?_
        convert Move.forget (view s did) using 1
        simp [view]
      · suffices hview : view { s with
            cache := Function.update s.cache did' none
            cacheEpoch := Function.update s.cacheEpoch did' (s.cacheEpoch did' + 1) } did =
              view s did by
          rw [hview]
        simp [view, hdid]
  | raiseWatermark did' version =>
      obtain rfl := Option.some.inj hstep
      rw [view_raiseTo]
      split
      next hdid =>
        subst hdid
        exact .single (.raise _ (level_le_raised _ _))
      next => exact .refl

/-! ## Fetched documents -/

theorem toNumber_version {document : Json} (h : IsNumeric document) :
    toNumber P (versionOr 1 document) = .finite (documentVersion document) := by
  rw [h]
  rfl

/-- The version of a cached document is a number that is not negative. -/
theorem cacheVersionOf_nonneg {cached : Option Json}
    (h : ∀ document ∈ cached, IsNumeric document ∧ 0 ≤ documentVersion document) :
    ∃ version, cacheVersionOf P cached = .finite version ∧ 0 ≤ version := by
  cases cached with
  | none => exact ⟨0, rfl, le_rfl⟩
  | some document =>
      obtain ⟨hnumeric, hnonneg⟩ := h document rfl
      simp only [cacheVersionOf, Option.map_some, Option.getD_some]
      simp only [IsNumeric, documentVersion, versionOr] at hnumeric hnonneg ⊢
      cases hversion : field "version" document with
      | none => exact ⟨0, rfl, le_rfl⟩
      | some version =>
          rw [hversion] at hnumeric hnonneg
          cases version with
          | null => exact ⟨0, rfl, le_rfl⟩
          | num value => exact ⟨value, rfl, hnonneg⟩
          | _ => simp at hnumeric

/-- What is known of the document a flight carries. -/
def FlightSound (P : ResolverPorts) (did : String) (answers : List Arrival → Prop)
    (flight : Flight) : Prop :=
  match flight.stage with
  | .fanningOut _ => True
  | .readingWatermark _ document cacheVersion | .checking _ document cacheVersion _ =>
      answers flight.arrivals ∧ Chosen P did flight.arrivals document ∧
        ∃ version, cacheVersion = .finite version ∧ 0 ≤ version
  | .writingWatermark document =>
      answers flight.arrivals ∧ Chosen P did flight.arrivals document ∧
        0 ≤ documentVersion document

/-- Cached, carried and returned documents have versions that are numbers, and those
that were fetched are among the answers that were verified. -/
structure Sound (P : ResolverPorts) (did : String) (answers : List Arrival → Prop) (v : View) :
    Prop where
  cached : ∀ entry ∈ v.cache, IsNumeric entry.document ∧ 0 ≤ documentVersion entry.document
  flight : ∀ flight ∈ v.flight, FlightSound P did answers flight
  returned : ∀ entry ∈ v.returned, ∀ arrivals ∈ entry.fetched, answers arrivals ∧
    Chosen P did arrivals entry.document ∧ 0 ≤ documentVersion entry.document

/-- A document that is no rollback is at the watermark or above. -/
theorem level_le_of_not_rollback {document : Json} {version : ℚ} {persisted : Option ℚ}
    (hnumeric : IsNumeric document) (hversion : 0 ≤ version)
    (h : ¬ isRollback P document (.finite version) persisted) :
    level persisted ≤ documentVersion document := by
  simp only [isRollback, toNumber_version hnumeric, numberMax] at h
  unfold level
  split at h
  next hlt =>
    simp only [numberLt, not_lt] at h hlt
    exact max_le (hversion.trans (hlt.le.trans h)) h
  next hle =>
    simp only [numberLt, not_lt] at h hle
    exact max_le (hversion.trans h) (hle.trans h)

theorem Move.sound {did : String} {v v' : View} (hmove : Move P did answers kept v v')
    (h : Sound P did answers v) : Sound P did answers v' := by
  cases hmove with
  | hit hcache =>
      refine ⟨h.cached, h.flight, ?_⟩
      rintro entry hentry arrivals hfetched
      rcases List.mem_append.mp hentry with hold | hnew
      · exact h.returned entry hold arrivals hfetched
      · rw [List.mem_singleton.mp hnew] at hfetched
        cases hfetched
  | forget => exact ⟨by simp, h.flight, h.returned⟩
  | start startEpoch hflight =>
      refine ⟨h.cached, ?_, h.returned⟩
      rintro flight ⟨⟩
      trivial
  | choose startEpoch' cached hflight hanswers hchosen hcached =>
      refine ⟨h.cached, ?_, h.returned⟩
      rintro flight ⟨⟩
      refine ⟨hanswers, hchosen, cacheVersionOf_nonneg ?_⟩
      intro document hdocument
      obtain ⟨entry, hentry, rfl⟩ := hcached document hdocument
      exact h.cached entry hentry
  | abandon hflight hstage => exact ⟨h.cached, by simp, h.returned⟩
  | read hflight =>
      refine ⟨h.cached, ?_, h.returned⟩
      rintro flight ⟨⟩
      have hsound := h.flight _ hflight
      exact hsound
  | commit expiresAt hflight hversion =>
      obtain ⟨hanswers, hchosen, version, rfl, hnonneg⟩ := h.flight _ hflight
      have hlevel := level_le_of_not_rollback hchosen.numeric hnonneg hversion
      have hpos := (le_max_left _ _).trans hlevel
      refine ⟨?_, ?_, h.returned⟩
      · rintro entry ⟨⟩
        exact ⟨hchosen.numeric, hpos⟩
      · rintro flight ⟨⟩
        exact ⟨hanswers, hchosen, hpos⟩
  | written hflight hraised =>
      refine ⟨h.cached, by simp, ?_⟩
      rintro entry hentry arrivals hfetched
      rcases List.mem_append.mp hentry with hold | hnew
      · exact h.returned entry hold arrivals hfetched
      · obtain rfl := List.mem_singleton.mp hnew
        obtain rfl := Option.some.inj hfetched
        exact h.flight _ hflight
  | failed hflight hkept => exact ⟨h.cached, by simp, h.returned⟩
  | raise hraised => exact ⟨h.cached, h.flight, h.returned⟩

theorem moves_sound {did : String} {v v' : View}
    (hmoves : ReflTransGen (Move P did answers kept) v v') (h : Sound P did answers v) :
    Sound P did answers v' := by
  induction hmoves with
  | refl => exact h
  | tail _ hmove ih => exact hmove.sound ih

theorem sound_initial (watermark : String → Option ℚ) (did : String) :
    Sound P did answers (view (.initial watermark) did) :=
  ⟨by simp [view, ResolverState.initial], by simp [view, ResolverState.initial],
    by simp [view, ResolverState.initial]⟩

/-- In every run the views stay sound. -/
theorem sound_of_run {watermark : String → Option ℚ} {events : List Event}
    (hanswers : ∀ event ∈ events, ∀ arrivals ∈ event.arrivals?, answers arrivals)
    (hrun : run (step P cfg) (.initial watermark) events = some s) (did : String) :
    Sound P did answers (view s did) := by
  have hstep : ∀ s event s', Sound P did answers (view s did) →
      (∀ arrivals ∈ event.arrivals?, answers arrivals) → step P cfg s event = some s' →
        Sound P did answers (view s' did) := by
    intro s event s' hsound hevent hstep
    have hmoves : ReflTransGen (Move P did answers False) (view s did) (view s' did) :=
      moves_of_step hevent False.elim hstep did
    exact moves_sound hmoves hsound
  exact run_invariant (fun s => Sound P did answers (view s did)) hstep
    (sound_initial watermark did) (along_of_forall_mem fun event hevent _ => hanswers event hevent) hrun

/-! ## Binding -/

/-- The identifier is derived from the key of the document. -/
def SelfCertified (P : ResolverPorts) (did : String) (document : Json) : Prop :=
  (textField "publicKey" document).bind (createAgentDID P.toIdentityPorts) = some did

/-- The document is bound to the identifier by its key, or `verifyDIDBinding.verify` was asked
about it and returned true. -/
def BoundBy (P : ResolverPorts) (did : String) (arrivals : List Arrival) (document : Json) :
    Prop :=
  SelfCertified P did document ∨ ∃ arrival ∈ arrivals,
    arrival.answer = .body document ∧ isLater P document ∧ arrival.verified = some true

/-- A document that no binding check looks at: its binding proof verifies, its version is
a number between 0 and 1, and its key is not the one of its identifier. -/
def Unchecked (P : ResolverPorts) (document : Json) : Prop :=
  (∃ version, field "version" document = some (.num version) ∧ 0 < version ∧ version < 1) ∧
    (∃ now, checkBindingProof P document now = .ok ()) ∧
    ∀ did ∈ textField "id" document, ¬ SelfCertified P did document

theorem selfCertified_of_check {did : String} {document : Json}
    (hid : textField "id" document = some did)
    (h : checkSelfCertified P document = .ok ()) : SelfCertified P did document := by
  unfold checkSelfCertified at h
  split at h
  next => cases h
  next did' hdid =>
    rw [require_eq_ok, hid] at h
    exact hdid.trans h.symm

/-- A document of a version that is neither first nor later has one between 0 and 1. -/
theorem between_of_neither {document : Json} (hnumeric : IsNumeric document)
    (hnonneg : 0 ≤ documentVersion document) (hfirst : isFirst document = false)
    (hlater : ¬ isLater P document) :
    ∃ version, field "version" document = some (.num version) ∧ 0 < version ∧ version < 1 := by
  simp only [IsNumeric, documentVersion, versionOr] at hnumeric hnonneg
  simp only [isFirst, isLater] at hfirst hlater
  cases hversion : field "version" document with
  | none => simp [hversion, isTruthy] at hfirst
  | some version =>
      rw [hversion] at hnumeric hnonneg hfirst hlater
      cases version with
      | num value =>
          have hne : value ≠ 0 ∧ value ≠ 1 := by simpa [isTruthy] using hfirst
          have hle : value ≤ 1 := by
            simpa [toNumber, itemNumber, numberLt] using hlater
          exact ⟨value, rfl, lt_of_le_of_ne hnonneg hne.1.symm, lt_of_le_of_ne hle hne.2⟩
      | null => simp [isTruthy] at hfirst
      | _ => simp at hnumeric

theorem boundBy_of_chosen {did : String} {arrivals : List Arrival} {document : Json}
    (hchosen : Chosen P did arrivals document) (hnonneg : 0 ≤ documentVersion document)
    (hchecked : ¬ Unchecked P document) : BoundBy P did arrivals document := by
  obtain ⟨arrival, hmem, hanswer, hverified⟩ := hchosen.arrived
  unfold verifyDocumentSignature at hverified
  split at hverified
  next => simp at hverified
  next hdocument =>
    split at hverified
    next hlater =>
      obtain ⟨verified, hasked, hrequired⟩ := Option.map_eq_some_iff.mp hverified
      obtain rfl : verified = true := require_eq_ok.mp hrequired
      exact .inr ⟨arrival, hmem, hanswer, hlater, hasked⟩
    next hlater =>
      simp only [checkDocument, bind_eq_ok, exists_unit, if_neg hlater] at hdocument
      obtain ⟨hbinding, hdocument⟩ := hdocument
      refine .inl ?_
      cases hfirst : isFirst document with
      | true =>
          rw [hfirst] at hdocument
          exact selfCertified_of_check hchosen.identifier (by simpa using hdocument)
      | false =>
          by_contra hcertified
          refine hchecked ⟨between_of_neither hchosen.numeric hnonneg hfirst hlater,
            ⟨arrival.now, hbinding⟩, ?_⟩
          intro did' hdid
          rw [hchosen.identifier] at hdid
          exact Option.some.inj hdid ▸ hcertified

/-! ## A run for each unchecked document -/

/-- A resolver of a single node. -/
def singleNode : ResolverConfig where
  nodes := ["node"]
  minResponses := 1
  cacheTtlMs := 60000

/-- One call, answered by the node with the document. -/
def fetchEvents (did : String) (arrival : Arrival) : List Event :=
  [.resolve did arrival.now, .settle did arrival.now 1 [arrival], .readWatermark did true,
    .check did arrival.now, .writeWatermark did true true]

theorem validateConfig_singleNode : validateConfig singleNode = .ok () := by
  simp [validateConfig, singleNode, require]

/-- The only candidate is chosen, whatever number its version is. -/
theorem selectByQuorum_single {document : Json} (hnumeric : IsNumeric document) :
    selectByQuorum P [document] 1 = some (some document) := by
  have hgroups : (byVersion P [document]).entries =
      [(.num (documentVersion document), [document])] := by
    have hversion : versionOr 1 document = .num (documentVersion document) := hnumeric
    simp only [byVersion, List.zipIdx_cons, List.zipIdx_nil, OrderedMap.groupBy, List.foldl_cons,
      List.foldl_nil, hversion, versionKey]
    rfl
  have hget : (byVersion P [document]).get? (.num (documentVersion document)) =
      some [document] := (OrderedMap.mem_entries_iff _ _ _).mp (by simp [hgroups])
  have hmax : mathMax [VersionKey.number P (.num (documentVersion document))] =
      .finite (documentVersion document) := rfl
  simp only [selectByQuorum, Nat.one_lt_ofNat, if_true, selectHighestVersionFallback,
    selectAmong, hgroups, List.map_cons, List.map_nil, hmax, winnersAt, hget, Option.map_some]
  simp [agreed]

theorem fetch_unchecked {document : Json} {did : String} {now : Int} {version : ℚ}
    (hversion : field "version" document = some (.num version)) (hpos : 0 < version)
    (hlt : version < 1) (hbinding : checkBindingProof P document now = .ok ())
    (hid : textField "id" document = some did) :
    ∃ s, run (step P singleNode) (.initial fun _ => none)
        (fetchEvents did ⟨"node", .body document, now, none⟩) = some s ∧
      s.returned = [⟨did, document, some [⟨"node", .body document, now, none⟩]⟩] := by
  have hor : ∀ fallback, versionOr fallback document = .num version := by
    intro fallback
    simp [versionOr, hversion]
  have hdocument : documentVersion document = version := by simp [documentVersion, hor]
  have hnumeric : IsNumeric document := by rw [IsNumeric, hdocument, hor]
  have hlater : ¬ isLater P document := by
    simp [isLater, hversion, toNumber, itemNumber, numberLt, hlt.le]
  have hfirst : isFirst document = false := by
    simp [isFirst, hversion, isTruthy, hpos.ne', hlt.ne]
  have hcollect : collect P did [⟨"node", .body document, now, none⟩] = some [document] := by
    simp [collect, acceptsBody, hid, verifyDocumentSignature, checkDocument, hbinding, hlater,
      hfirst, bind, Except.bind, pure, Except.pure]
  have hchoose : choose P singleNode did 1 [⟨"node", .body document, now, none⟩] =
      some (some document) := by
    simp [choose, hcollect, singleNode, selectByQuorum_single hnumeric]
  have hrollback : ¬ isRollback P document (.finite 0) none := by
    simp [isRollback, toNumber_version hnumeric, hdocument, numberMax, numberLt, hpos.le]
  simp only [fetchEvents, run, step, getCached, ResolverState.initial, dropExpired, setFlight,
    settle, hchoose, Function.update_self, Option.map_none, Option.filter_none, if_true,
    cacheVersionOf, Option.getD_none, checkFlight, if_neg hrollback, ne_eq, not_true, if_false,
    setCached, finishFlight, true_or, raiseTo, deliver]
  exact ⟨_, rfl, rfl⟩

/-- Every fetched document is bound to its identifier, in every run over node answers of
the given kind, exactly when no answer of that kind is unchecked. -/
theorem fetched_documents_bound_iff (P : ResolverPorts) (bodies : Set Json) :
    (∀ cfg, validateConfig cfg = .ok () → ∀ watermark events s,
      (∀ event ∈ events, ∀ arrivals ∈ event.arrivals?, ∀ arrival ∈ arrivals,
        ∀ body, arrival.answer = .body body → body ∈ bodies) →
      run (step P cfg) (.initial watermark) events = some s →
      ∀ entry ∈ s.returned, ∀ arrivals ∈ entry.fetched,
        BoundBy P entry.did arrivals entry.document) ↔
      ∀ body ∈ bodies, ¬ Unchecked P body := by
  constructor
  · rintro hbound document hdocument ⟨⟨version, hversion, hpos, hlt⟩, ⟨now, hbinding⟩, hkey⟩
    obtain ⟨did, hid⟩ : ∃ did, textField "id" document = some did := by
      simp only [checkBindingProof, bind_eq_ok, exists_unit, require_eq_ok] at hbinding
      obtain ⟨-, ⟨did, -, hid⟩, -⟩ := hbinding
      exact ⟨did, hid⟩
    obtain ⟨s, hrun, hreturned⟩ := fetch_unchecked hversion hpos hlt hbinding hid
    have hbodies : ∀ event ∈ fetchEvents did ⟨"node", .body document, now, none⟩,
        ∀ arrivals ∈ event.arrivals?, ∀ arrival ∈ arrivals,
          ∀ body, arrival.answer = .body body → body ∈ bodies := by
      simp only [fetchEvents, List.forall_mem_cons, Event.arrivals?]
      simpa using hdocument
    have hentry := hbound singleNode validateConfig_singleNode _ _ s hbodies hrun
      ⟨did, document, _⟩ (hreturned ▸ List.mem_singleton_self _) _ rfl
    rcases hentry with hcertified | ⟨arrival, harrival, -, -, hverified⟩
    · exact hkey did hid hcertified
    · rw [List.mem_singleton.mp harrival] at hverified
      cases hverified
  · intro hchecked cfg _ watermark events s hbodies hrun entry hentry arrivals hfetched
    have hsound := sound_of_run hbodies hrun entry.did
    obtain ⟨hanswers, hchosen, hnonneg⟩ := hsound.returned entry
      (List.mem_filter.mpr ⟨hentry, decide_eq_true rfl⟩) arrivals hfetched
    obtain ⟨arrival, hmem, hanswer, -⟩ := hchosen.arrived
    exact boundBy_of_chosen hchosen hnonneg
      (hchecked _ (hanswers arrival hmem _ hanswer))

/-! An intruder's node answers for an agent with the intruder's own key and principal. -/

namespace IntruderNode

def ports : ResolverPorts where
  toIdentityPorts := Takeover.ports
  numberOfText := fun _ => .nan
  getTime := Calendar.getTime

def rotationProof : Json :=
  .obj [("oldPublicKey", .str Takeover.rotation.oldPublicKey),
    ("newPublicKey", .str Takeover.rotation.newPublicKey),
    ("oldKeySignature", .str Takeover.rotation.oldKeySignature),
    ("newKeySignature", .str Takeover.rotation.newKeySignature),
    ("principalSignature", .str Takeover.rotation.principalSignature),
    ("agentDid", .str Takeover.rotation.agentDid),
    ("rotatedAt", .str Takeover.rotation.rotatedAt)]

def document (version : ℚ) : Json :=
  .obj [("id", .str Takeover.rotation.agentDid), ("specVersion", .str "0.2.0"),
    ("principalDid", .str Takeover.binding.principalDid),
    ("publicKey", .str Takeover.rotation.newPublicKey),
    ("bindingProof", .obj [("principalDid", .str Takeover.binding.principalDid),
      ("agentDid", .str Takeover.binding.agentDid), ("issuedAt", .str Takeover.binding.issuedAt),
      ("expiresAt", .null), ("signature", .str Takeover.binding.signature)]),
    ("createdAt", .str Takeover.rotation.rotatedAt),
    ("updatedAt", .str Takeover.rotation.rotatedAt), ("version", .num version),
    ("previousPublicKey", .str Takeover.rotation.oldPublicKey), ("rotationProof", rotationProof)]

/-- Milliseconds of 2026-06-01. -/
def now : Int := 1780272000000

theorem id_document (version : ℚ) :
    textField "id" (document version) = some Takeover.rotation.agentDid := by
  simp [document, field, textField]

theorem version_document (version : ℚ) :
    field "version" (document version) = some (.num version) := by
  simp [document, field]

/-- The proof in a document of the node, field by field. -/
theorem bindingProof_fields (version : ℚ) :
    ∃ proof, (field "bindingProof" (document version)).getD .null = proof ∧
      textField "principalDid" proof = some Takeover.binding.principalDid ∧
      textField "agentDid" proof = some Takeover.binding.agentDid ∧
      field "issuedAt" proof = some (.str Takeover.binding.issuedAt) ∧
      textField "signature" proof = some Takeover.binding.signature ∧
      notExpired ports (field "expiresAt" proof) now = true := by
  refine ⟨_, rfl, ?_, ?_, ?_, ?_, ?_⟩
  · simp [document, field, textField]
  · simp [document, field, textField]
  · simp [document, field]
  · simp [document, field, textField]
  · simp [document, field, notExpired]

theorem binding_checked (version : ℚ) :
    checkBindingProof ports (document version) now = .ok () := by
  have hbytes : bindingBytes ports Takeover.binding.agentDid (.str Takeover.binding.issuedAt)
      Takeover.binding.principalDid = Takeover.bindingBytes := rfl
  have hverify : ports.verify Takeover.bindingBytes Takeover.binding.signature
      Takeover.principalKey = some true := Takeover.verify_signed (by simp [Takeover.ledger])
  have hprincipal : isDidKey Takeover.binding.principalDid = true := Takeover.intruder.principal
  have hagent : isDidAgent Takeover.binding.agentDid = true := Takeover.intruder.agent
  have hkey : extractPublicKeyFromDIDKey Takeover.binding.principalDid =
      some Takeover.principalKey := Takeover.intruder.principalKey_eq
  have hproof : verifyBindingProof ports
      ((field "bindingProof" (document version)).getD .null) now = true := by
    obtain ⟨proof, heq, hprincipalDid, hagentDid, hissuedAt, hsignature, hexpiry⟩ :=
      bindingProof_fields version
    rw [heq]
    simp only [verifyBindingProof, hprincipalDid, hagentDid, hissuedAt, hsignature, hexpiry,
      hprincipal, hagent, hkey, hbytes, hverify]
    rfl
  simp only [checkBindingProof, bind_eq_ok, exists_unit, require_eq_ok]
  refine ⟨by simp [document, field, isTruthy], ⟨Takeover.binding.agentDid, ?_, ?_⟩, hproof, ?_⟩
  · simp [document, field, textField]
  · simp [document, field, textField, Takeover.binding, Takeover.rotation]
  · simp [document, field, textField]

def halfArrival : Arrival := ⟨"node", .body (document (1 / 2)), now, none⟩

/-- The resolver returns the document of version one half although its key is not the one of
the identifier. -/
theorem half_version_unbound :
    validateConfig singleNode = .ok () ∧
      ∃ s, run (step ports singleNode) (.initial fun _ => none)
          (fetchEvents Takeover.rotation.agentDid halfArrival) = some s ∧
        s.returned = [⟨Takeover.rotation.agentDid, document (1 / 2), some [halfArrival]⟩] ∧
        ¬ BoundBy ports Takeover.rotation.agentDid [halfArrival] (document (1 / 2)) := by
  obtain ⟨s, hrun, hreturned⟩ := fetch_unchecked (version_document (1 / 2)) (by norm_num)
    (by norm_num) (binding_checked (1 / 2)) (id_document (1 / 2))
  refine ⟨validateConfig_singleNode, s, hrun, hreturned, ?_⟩
  rintro (hcertified | ⟨other, hother, -, -, hverified⟩)
  · have hkey : createAgentDID Takeover.ports Takeover.rotation.newPublicKey =
        some Takeover.rotation.agentDid := by
      simpa [SelfCertified, document, field, textField, ports] using hcertified
    exact Takeover.intruder.underived_new hkey
  · rw [List.mem_singleton.mp hother] at hverified
    cases hverified

end IntruderNode

end Coivitas.Identity.Federation
