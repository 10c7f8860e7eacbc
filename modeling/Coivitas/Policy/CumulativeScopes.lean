import Coivitas.Identity.DelegationAttenuation
import Coivitas.Policy.InterleavedTracker
import Coivitas.Policy.RuntimeGuard

/-! # The cumulative scopes of one request

All scopes of a check reserve under one record id, and the tracker answers a
repeated id from the first reservation. Other transactions commit while a check
is under way. Which of the scopes are compared with their own limit follows from
the rows under that id, from what is committed meanwhile and from the rounding of
sums.
-/

namespace Coivitas.Policy

open Foundation Coivitas.Types

def isCumulative : Scope → Prop
  | .cumulativeLimit .. => True
  | _ => False

instance : DecidablePred isCumulative
  | .allowlist .. => instDecidableFalse
  | .numericLimit .. => instDecidableFalse
  | .temporalScope .. => instDecidableFalse
  | .cumulativeLimit .. => instDecidableTrue

def cumulativeScopes (scopes : List Scope) : List Scope :=
  scopes.filter fun scope => isCumulative scope

/-- The request that a cumulative scope makes. -/
def scopeRequest (recordId agentDid : String) (meterField : MeterFieldRef) (max : ℚ)
    (window : Window) (now : Int) (amount : JsNumber) : ReserveRequest :=
  ⟨recordId, agentDid, meterField, computeWindowStart window now, now, max, amount⟩

/-- The agent's cumulative value in the window of a request, over a table. The request's own
reservation is left out. -/
def cumulativeIn (entry : MeterFieldEntry) (request : ReserveRequest) (db : Database) : ℚ :=
  ((db.records.rows.filter fun row =>
    Selected entry request.agentDid request.windowStart request.now (db.clock - pendingTtlMs) row ∧
      ¬ (row.recordId = request.recordId ∧ row.isReservation)).map (rowAmount entry)).sum

/-- The cumulative value in the scope's own window and the request's amount together
stay within the scope's limit. -/
def WithinLimit (recordId agentDid : String) (params : Params) (now : Int) (db : Database) :
    Scope → Prop
  | .cumulativeLimit meterField max window _ =>
      ∃ entry amount, meterFieldRegistry meterField.metric = some entry ∧
        reserveAmount? entry params = some amount ∧
        amount.le (max - cumulativeIn entry
          (scopeRequest recordId agentDid meterField max window now amount) db)
  | _ => True

/-- The limit of a scope was compared with the value at the time of the reservation: the
transaction found no reservation under the record id, nothing has raised the value since it was
aggregated, and no sum was rounded down. -/
structure Compared (entry : MeterFieldEntry) (request : ReserveRequest) (store : SharedStore)
    (db : Database) : Prop where
  fresh : findReservation store.lookup.db.records request.recordId = none
  current : cumulativeIn entry request db ≤ store.countedValue entry request
  sumsUp : (store.aggregate entry request).AtLeast (store.countedValue entry request)
  addsUp : (store.aggregate entry request).AddsUp request.reserveAmount

/-- A scope that is evaluated on the store is compared with its limit. -/
def ScopeCompared (recordId agentDid : String) (params : Params) (now : Int) (store : SharedStore)
    (db : Database) : Scope → Prop
  | .cumulativeLimit meterField max window _ =>
      ∃ entry amount, meterFieldRegistry meterField.metric = some entry ∧
        reserveAmount? entry params = some amount ∧
        Compared entry (scopeRequest recordId agentDid meterField max window now amount) store db
  | _ => True

/-- The scopes, each with the store that it is evaluated on. -/
def evaluations {σ : Type} (evaluator : ScopeEvaluator σ) :
    List Scope → Params → Int → σ → List (Scope × σ)
  | [], _, _, _ => []
  | scope :: scopes, params, now, store =>
      (scope, store) :: evaluations evaluator scopes params now
        (evaluate evaluator scope params now store).2

/-- The database on which the first cumulative scope is decided: it is the one in which the
reservation is made, or in which it was found. -/
def reservationTable (recordId agentDid : String) (now : Int) :
    List (Scope × SharedStore) → Option Database
  | [] => none
  | (.cumulativeLimit meterField _ window _, store) :: _ =>
      match findReservation store.lookup.db.records recordId with
      | some _ => some store.lookup.db
      | none => some (store.deciding
          ⟨agentDid, meterField.metric, computeWindowStart window now⟩).db
  | _ :: rest => reservationTable recordId agentDid now rest

/-- A guard over the Postgres tracker. -/
structure PostgresGuard extends RuntimeGuardDependencies SharedStore where
  tracker_eq : scopeEvaluator.tracker = some postgresCumulativeTracker

/-! ## One scope -/

section Evaluation

variable {evaluator : ScopeEvaluator SharedStore} {params : Params} {now : Int}
  {store store' : SharedStore} {recordId agentDid : String}

theorem reserveAmount?_ne_nan {entry : MeterFieldEntry} {amount : JsNumber}
    (hamount : reserveAmount? entry params = some amount) : amount ≠ .nan := by
  rintro rfl
  unfold reserveAmount? at hamount
  split at hamount
  next => cases hamount
  next =>
    split at hamount
    next => cases hamount
    next raw hnan _ => exact hnan (Option.some.inj hamount)
    next => cases hamount

/-- What the aggregation does not let exceed the limit is within it. -/
theorem le_sub_of_not_exceeds {counted value max : ℚ} {cumulative amount : JsNumber}
    (hvalue : value ≤ counted) (hsums : cumulative.AtLeast counted)
    (hadds : cumulative.AddsUp amount) (hnan : amount ≠ .nan)
    (hmax : ¬ exceeds cumulative amount max) : amount.le (max - value) := by
  have hbounded : ∀ bound, amount.AtLeast bound → amount.le (max - value) := by
    intro bound hbound
    obtain ⟨finite, rfl, -, hle⟩ := exists_finite_of_not_exceeds hsums hbound hadds hmax
    show finite ≤ max - value
    linarith
  cases amount with
  | nan => exact absurd rfl hnan
  | negInf => exact trivial
  | finite finite => exact hbounded finite (le_refl finite)
  | posInf => exact hbounded 0 trivial

/-- A cumulative scope that passes found a reservation under its record id, or its sum was not
over the limit. -/
theorem evaluateCumulativeLimit_ok {meterField : MeterFieldRef} {max : ℚ} {window : Window}
    (hparams : textOr "" (params "__recordId") = recordId ∧ textOr "" (params "__agentDid") = agentDid)
    (heval : evaluateCumulativeLimit (some postgresCumulativeTracker) meterField max window params
      now store = (.ok (), store')) :
    ∃ entry amount, meterFieldRegistry meterField.metric = some entry ∧
      reserveAmount? entry params = some amount ∧
      (findReservation store.lookup.db.records recordId = none →
        ¬ exceeds (store.aggregate entry
          (scopeRequest recordId agentDid meterField max window now amount)) amount max) := by
  obtain ⟨rfl, rfl⟩ := hparams
  unfold evaluateCumulativeLimit at heval
  simp only at heval
  split at heval
  next => cases heval
  next =>
    split at heval
    next => cases heval
    next entry hentry =>
      split at heval
      next => cases heval
      next amount hamount =>
        refine ⟨entry, amount, hentry, hamount, fun hfind hexceeds => ?_⟩
        simp only [postgresCumulativeTracker, SharedStore.checkAndReserve, hentry, hfind, reserve]
          at heval
        simp only [scopeRequest] at hexceeds
        rw [if_pos hexceeds] at heval
        simp at heval

/-- Every scope of a list that passes is passed on the store it is evaluated on. -/
theorem evaluations_ok {scopes : List Scope}
    (heval : evaluateAll evaluator scopes params now store = (.ok (), store')) :
    ∀ evaluation ∈ evaluations evaluator scopes params now store,
      ∃ after, evaluate evaluator evaluation.1 params now evaluation.2 = (.ok (), after) := by
  induction scopes generalizing store with
  | nil => simp [evaluations]
  | cons scope scopes ih =>
      simp only [evaluateAll] at heval
      split at heval
      next => cases heval
      next after hscope =>
        refine List.forall_mem_cons.mpr ⟨⟨after, hscope⟩, ?_⟩
        rw [hscope]
        exact ih heval

@[simp] theorem map_fst_evaluations (scopes : List Scope) (store : SharedStore) :
    (evaluations evaluator scopes params now store).map Prod.fst = scopes := by
  induction scopes generalizing store with
  | nil => rfl
  | cons scope scopes ih => simp [evaluations, ih]

/-- A scope that passes and is compared with its limit is within it. -/
theorem withinLimit_of_compared {scope : Scope} {db : Database}
    (htracker : evaluator.tracker = some postgresCumulativeTracker)
    (hparams : textOr "" (params "__recordId") = recordId ∧ textOr "" (params "__agentDid") = agentDid)
    (heval : evaluate evaluator scope params now store = (.ok (), store'))
    (hcompared : ScopeCompared recordId agentDid params now store db scope) :
    WithinLimit recordId agentDid params now db scope := by
  cases scope with
  | cumulativeLimit meterField max window currency =>
      simp only [evaluate, htracker] at heval
      obtain ⟨entry, amount, hentry, hamount, hmax⟩ := evaluateCumulativeLimit_ok hparams heval
      obtain ⟨entry', amount', hentry', hamount', hcompared⟩ := hcompared
      obtain rfl := Option.some.inj (hentry.symm.trans hentry')
      obtain rfl := Option.some.inj (hamount.symm.trans hamount')
      exact ⟨entry, amount, hentry, hamount, le_sub_of_not_exceeds hcompared.current
        hcompared.sumsUp hcompared.addsUp (reserveAmount?_ne_nan hamount) (hmax hcompared.fresh)⟩
  | _ => trivial

end Evaluation

/-! ## The guard -/

section Guard

variable (G : PostgresGuard) (action : String) (params : Params) (agentDid : String)
  (requestedTokenId : Option String) (store : SharedStore)

/-- The reserved amount does not depend on what the guard adds to the parameters. -/
theorem reserveAmount?_paramsWithAgent {metric recordId : String} {entry : MeterFieldEntry}
    (hentry : meterFieldRegistry metric = some entry) :
    reserveAmount? entry (paramsWithAgent agentDid recordId params) =
      reserveAmount? entry params := by
  have hname : fieldName entry.requestField = "amount" ∨
      fieldName entry.requestField = "undefined" := by
    unfold meterFieldRegistry at hentry
    split_ifs at hentry <;> cases hentry <;> simp [fieldName, inheritedEntry]
  have hother : paramsWithAgent agentDid recordId params (fieldName entry.requestField) =
      params (fieldName entry.requestField) := by
    rcases hname with hname | hname <;> rw [hname] <;> simp [paramsWithAgent]
  unfold reserveAmount?
  rw [hother]

/-- The record id of the turn of a token. -/
def turnRecordId (turn : Turn SharedStore) : String :=
  guardRecordId G.toRuntimeGuardDependencies turn.index params

def turnNow (turn : Turn SharedStore) : Int := (G.now (3 * turn.index + 2)).time

/-- The scopes of the turn of an accepted token, each with its store. -/
def turnEvaluations (turn : Turn SharedStore) : List (Scope × SharedStore) :=
  evaluations G.scopeEvaluator (matchingScopes action turn.token)
    (paramsWithAgent agentDid (turnRecordId G params turn) params) (turnNow G turn) turn.store

/-- A scope is within its limit at the time of the reservation. -/
def TurnWithinLimit (turn : Turn SharedStore) (scope : Scope) : Prop :=
  ∀ db ∈ reservationTable (turnRecordId G params turn) agentDid (turnNow G turn)
    (turnEvaluations G action params agentDid turn),
    WithinLimit (turnRecordId G params turn) agentDid params (turnNow G turn) db scope

/-- A scope is compared with its limit as it is at the time of the reservation. -/
def TurnCompared (turn : Turn SharedStore) (evaluation : Scope × SharedStore) : Prop :=
  ∀ db ∈ reservationTable (turnRecordId G params turn) agentDid (turnNow G turn)
    (turnEvaluations G action params agentDid turn),
    ScopeCompared (turnRecordId G params turn) agentDid params (turnNow G turn) evaluation.2 db
      evaluation.1

variable {G action params agentDid requestedTokenId store}

theorem withinLimit_paramsWithAgent {recordId : String} {now : Int} {scope : Scope}
    {db : Database} :
    WithinLimit recordId agentDid (paramsWithAgent agentDid recordId params) now db scope ↔
      WithinLimit recordId agentDid params now db scope := by
  cases scope with
  | cumulativeLimit meterField max window currency =>
      refine exists_congr fun entry => exists_congr fun amount => ?_
      refine and_congr_right fun hentry => ?_
      rw [reserveAmount?_paramsWithAgent params agentDid hentry]
  | _ => exact Iff.rfl

theorem scopeCompared_paramsWithAgent {recordId : String} {now : Int} {scope : Scope}
    {db : Database} :
    ScopeCompared recordId agentDid (paramsWithAgent agentDid recordId params) now store db scope ↔
      ScopeCompared recordId agentDid params now store db scope := by
  cases scope with
  | cumulativeLimit meterField max window currency =>
      refine exists_congr fun entry => exists_congr fun amount => ?_
      refine and_congr_right fun hentry => ?_
      rw [reserveAmount?_paramsWithAgent params agentDid hentry]
  | _ => exact Iff.rfl

/-- A scope of an accepted token that is compared with its limit is within it. -/
theorem TurnCompared.within {turn : Turn SharedStore}
    (hturn : acceptedTurn G.toRuntimeGuardDependencies action params agentDid requestedTokenId
      store = some turn) {evaluation : Scope × SharedStore}
    (hevaluation : evaluation ∈ turnEvaluations G action params agentDid turn)
    (hcompared : TurnCompared G action params agentDid turn evaluation) :
    TurnWithinLimit G action params agentDid turn evaluation.1 := by
  intro db hdb
  obtain ⟨store', hallowed⟩ := acceptingTurn_allowed hturn
  obtain ⟨after, heval⟩ := evaluations_ok hallowed.evaluated evaluation hevaluation
  have hwithin : WithinLimit (turnRecordId G params turn) agentDid
      (paramsWithAgent agentDid (turnRecordId G params turn) params) (turnNow G turn) db
      evaluation.1 := by
    refine withinLimit_of_compared G.tracker_eq ⟨?_, ?_⟩ heval
      (scopeCompared_paramsWithAgent.mpr (hcompared db hdb))
    · simp [paramsWithAgent, textOr]
    · simp [paramsWithAgent, textOr]
  exact withinLimit_paramsWithAgent.mp hwithin

variable (G action params agentDid requestedTokenId store)

/-- Whatever other transactions commit meanwhile, every cumulative scope of an allowed request is
within its own limit at the time of the reservation exactly when those are that were not compared
with it. -/
theorem check_enforces_iff :
    (∀ result store', check G.toRuntimeGuardDependencies action params agentDid requestedTokenId
        store = (some result, store') → result.allowed = true →
      ∃ turn, acceptedTurn G.toRuntimeGuardDependencies action params agentDid requestedTokenId
        store = some turn ∧ ∀ scope ∈ cumulativeScopes (matchingScopes action turn.token),
          TurnWithinLimit G action params agentDid turn scope) ↔
      ∀ turn, acceptedTurn G.toRuntimeGuardDependencies action params agentDid requestedTokenId
        store = some turn → ∀ evaluation ∈ turnEvaluations G action params agentDid turn,
          isCumulative evaluation.1 → ¬ TurnCompared G action params agentDid turn evaluation →
            TurnWithinLimit G action params agentDid turn evaluation.1 := by
  constructor
  · intro henforced turn hturn evaluation hevaluation hcumulative _
    obtain ⟨result, store', hcheck, hallowed⟩ := check_allowed_iff.mpr ⟨turn, hturn⟩
    obtain ⟨turn', hturn', hwithin⟩ := henforced result store' hcheck hallowed
    obtain rfl := Option.some.inj (hturn.symm.trans hturn')
    have hscope : evaluation.1 ∈ (turnEvaluations G action params agentDid turn).map Prod.fst :=
      List.mem_map_of_mem hevaluation
    rw [turnEvaluations, map_fst_evaluations] at hscope
    exact hwithin evaluation.1 (List.mem_filter.mpr ⟨hscope, by simpa using hcumulative⟩)
  · intro huncompared result store' hcheck hallowed
    obtain ⟨turn, hturn⟩ := check_allowed_iff.mp ⟨result, store', hcheck, hallowed⟩
    refine ⟨turn, hturn, fun scope hscope => ?_⟩
    obtain ⟨hmem, hcumulative⟩ := List.mem_filter.mp hscope
    obtain ⟨evaluation, hevaluation, rfl⟩ : ∃ evaluation ∈
        turnEvaluations G action params agentDid turn, evaluation.1 = scope := by
      rw [← List.mem_map, turnEvaluations, map_fst_evaluations]
      exact hmem
    by_cases hcompared : TurnCompared G action params agentDid turn evaluation
    · exact hcompared.within hturn hevaluation
    · exact huncompared turn hturn evaluation hevaluation (by simpa using hcumulative) hcompared

end Guard

/-! A payer may spend 100 a day and 150 a month, and has spent 140 this month. -/

namespace Payer

open Identity Relay

def meterField : MeterFieldRef :=
  ⟨.actionRecord, "transaction_amount", none, none, MeterKey.all, List.Perm.refl _⟩

def paymentToken (id value : String) (limits : List (ℚ × Window)) : CapabilityToken where
  id := id
  specVersion := "0.2.0"
  issuerDid := owner
  principalDid := owner
  issuedTo := editor
  issuedAt := "2026-01-01T00:00:00.000Z"
  expiresAt := "2027-01-01T00:00:00.000Z"
  capabilities := limits.map fun limit =>
    ⟨"CONFIRM", .cumulativeLimit meterField limit.1 limit.2 none⟩
  revocationUrl := "https://revoke.example/\x7bid\x7d"
  proof := ⟨"2026-01-01T00:00:00.000Z", owner ++ "#key-1", value⟩
  delegationChain := none

def noon : ClockReading := ⟨"2026-06-20T12:00:00.000Z", 1781956800000, by decide +kernel⟩

theorem paymentToken_isValid {id value : String} {limits : List (ℚ × Window)}
    (hid : isCapabilityTokenId id = true) (hvalue : isSignature value = true)
    (hlimits : capabilitiesValid (paymentToken id value limits).capabilities = true) :
    (paymentToken id value limits).isValid = true := by
  have hissued : Calendar.isIsoText "2026-01-01T00:00:00.000Z" = true :=
    (isIsoText_ofList _).trans (by decide)
  have hexpires : Calendar.isIsoText "2027-01-01T00:00:00.000Z" = true :=
    (isIsoText_ofList _).trans (by decide)
  have hversion : isSpecVersion "0.2.0" = true := by decide
  have heditor : isDidAgentText editor.toList = true := editor_isDidAgent
  have howner := isDidKeyText_of_isDidKey owner_isDidKey
  have hmethod := isVerificationMethod_key (hash_not_mem_of_isDidKey owner_isDidKey) (.inl howner)
  rw [paymentToken] at hlimits ⊢
  simp only [CapabilityToken.isValid, TokenProof.isValid, hid, hvalue, hissued, hexpires, hversion,
    heditor, howner, hmethod, hlimits, revocationUrl_isValid, Option.all_none, Bool.and_self]

theorem paymentToken_verified {ledger : List SignedBytes} {id value : String}
    {limits : List (ℚ × Window)} (hschema : (paymentToken id value limits).isValid = true)
    (hsigned : signedToken owner (paymentToken id value limits) ∈ ledger) :
    VerifiedRoot (ports ledger [] []).toSignaturePorts (paymentToken id value limits) noon.text where
  schema := hschema
  issuer := owner_isDidKey
  signer := by
    rw [paymentToken, didOfVerificationMethod_key (hash_not_mem_of_isDidKey owner_isDidKey)]
    exact isDidAgent_eq_false_of_isDidKey owner_isDidKey
  issued := show ¬ issuedInFuture "2026-01-01T00:00:00.000Z" "2026-06-20T12:00:00.000Z" by
    decide +kernel
  unexpired := show ¬ isTimestampExpired "2027-01-01T00:00:00.000Z" "2026-06-20T12:00:00.000Z" by
    decide +kernel
  undelegated := by simp [isDelegated, paymentToken]
  scopes := by simp [paymentToken]
  signature := by
    refine ⟨_, owner_key, ?_⟩
    rw [← payload_signedToken owner]
    show verifyIn ledger _ _ _ = some true
    exact verifyIn_of_mem hsigned

/-- A guard at noon over a signed token. -/
def guard (token : CapabilityToken) : PostgresGuard where
  signatures := (ports [signedToken owner token] [] []).toSignaturePorts
  getTokensForAgent _ := [token]
  getToken := none
  revocationChecker _ := false
  scopeEvaluator := ⟨fun _ => none, some postgresCumulativeTracker⟩
  now _ := noon
  delegationChainValidator := none
  resolvePublicKeys := none
  randomUUID _ := "9f0c1b1e-33f4-4b1d-8a53-0d1f6e3f2c11"
  tracker_eq := rfl

def payment (amount : ℚ) : Params := fun name =>
  if name = "amount" then .number (.finite amount) else .undefined

def dailyAndMonthly : CapabilityToken :=
  paymentToken "urn:cap:0f8fad5b-d9cb-469f-a165-70867728950e"
    "px4O8nvfF6r7d5hapL6HkW_fTc-83lD0a77ImAmGldGuxi1lHGx8m06Eb7cIq2nhzUqETNBQbthLujPVH09ICw"
    [(100, .day), (150, .month)]

/-- An action record of ten days ago. -/
def earlier : ActionRecordRow where
  recordId := "0b7f1c2e-8f5e-4b77-9d0a-3c1f0d9f5a10"
  agentDid := editor
  principalDid := owner
  actionType := "CONFIRM"
  parametersSummary := .null
  authorizationRef := .null
  resultSummary := some ((OrderedMap.empty
    |>.set "status" (.str "SUCCESS"))
    |>.set "amount" (.num 140))
  recordHash := ""
  previousRecordHash := ""
  actorSignature := ""
  ledgerSignature := ""
  delegationDepth := none
  sessionId := none
  createdAt := 1781092800000

def spentEarlier : SharedStore := ⟨⟨⟨[earlier], List.nodup_singleton _⟩, noon.time,
  fun _ => "1f0e2c44-5b0d-4a7c-9b2e-6d1a3f4c5e66"⟩, []⟩

theorem guard_verifyToken {id value : String} {limits : List (ℚ × Window)}
    (hschema : (paymentToken id value limits).isValid = true) :
    verifyToken (guard (paymentToken id value limits)).toRuntimeGuardDependencies 0
      (paymentToken id value limits) = .ok 0 := by
  have hverified := paymentToken_verified hschema
    (List.mem_singleton_self (signedToken owner (paymentToken id value limits)))
  have hok := (verifyCapabilityToken_eq_ok _).mpr hverified
  have hundelegated := hverified.undelegated
  simp only [verifyToken, hundelegated, not_false_eq_true, if_true]
  simp only [guard] at hok ⊢
  rw [hok]

/-- The only token of the guard is accepted when it passes its scopes. -/
theorem guard_accepts {id value : String} {limits : List (ℚ × Window)} {amount : ℚ}
    {store : SharedStore} (hschema : (paymentToken id value limits).isValid = true)
    (hlimits : limits ≠ [])
    (hpasses : (evaluateAll (guard (paymentToken id value limits)).scopeEvaluator
      (matchingScopes "CONFIRM" (paymentToken id value limits))
      (paramsWithAgent editor "9f0c1b1e-33f4-4b1d-8a53-0d1f6e3f2c11" (payment amount)) noon.time
      store).1 = .ok ()) :
    acceptedTurn (guard (paymentToken id value limits)).toRuntimeGuardDependencies "CONFIRM"
      (payment amount) editor none store = some ⟨0, paymentToken id value limits, store⟩ := by
  have hmatched : matchingScopes "CONFIRM" (paymentToken id value limits) ≠ [] := by
    obtain ⟨limit, rest, rfl⟩ := List.exists_cons_of_ne_nil hlimits
    simp [matchingScopes, paymentToken]
  have hallowed : Allowed (guard (paymentToken id value limits)).toRuntimeGuardDependencies
      "CONFIRM" (payment amount) editor ⟨0, paymentToken id value limits, store⟩ _ :=
    ⟨⟨0, guard_verifyToken hschema⟩, hmatched, Prod.ext hpasses rfl, rfl⟩
  exact acceptedTurn_of_allowed none rfl hallowed

/-- An amount of sixty that is not within a limit. -/
theorem not_withinLimit {recordId : String} {max : ℚ} {window : Window} {db : Database}
    (hover : max < 60 + cumulativeIn ⟨.sum, some "amount", some "amount", .success⟩
      (scopeRequest recordId editor meterField max window noon.time (.finite 60)) db) :
    ¬ WithinLimit recordId editor (payment 60) noon.time db
      (.cumulativeLimit meterField max window none) := by
  rintro ⟨entry, amount, hentry, hamount, hle⟩
  obtain rfl := Option.some.inj hentry
  obtain rfl := Option.some.inj hamount
  have hwithin : (60 : ℚ) ≤ max - cumulativeIn ⟨.sum, some "amount", some "amount", .success⟩
      (scopeRequest recordId editor meterField max window noon.time (.finite 60)) db := hle
  linarith

/-- The daily scope reserves, and the monthly scope is answered from that. -/
theorem monthly_limit_ignored : ∃ result store' turn,
    check (guard dailyAndMonthly).toRuntimeGuardDependencies "CONFIRM" (payment 60) editor none
      spentEarlier = (some result, store') ∧ result.allowed = true ∧
    acceptedTurn (guard dailyAndMonthly).toRuntimeGuardDependencies "CONFIRM" (payment 60) editor
      none spentEarlier = some turn ∧
    ∃ scope ∈ cumulativeScopes (matchingScopes "CONFIRM" turn.token),
      ¬ TurnWithinLimit (guard dailyAndMonthly) "CONFIRM" (payment 60) editor turn scope := by
  have hturn := guard_accepts (paymentToken_isValid ((isCapabilityTokenId_ofList _).trans (by decide))
      ((isSignature_ofList _).trans (by decide)) (by decide +kernel)) (by simp)
    (by decide +kernel : (evaluateAll (guard dailyAndMonthly).scopeEvaluator
      (matchingScopes "CONFIRM" dailyAndMonthly)
      (paramsWithAgent editor "9f0c1b1e-33f4-4b1d-8a53-0d1f6e3f2c11" (payment 60)) noon.time
      spentEarlier).1 = .ok ())
  obtain ⟨result, store', hcheck, hresult⟩ := check_allowed_iff.mpr ⟨_, hturn⟩
  refine ⟨result, store', _, hcheck, hresult, hturn, _,
    List.mem_cons_of_mem _ List.mem_cons_self, fun hwithin => ?_⟩
  exact not_withinLimit (by decide +kernel) (hwithin spentEarlier.db rfl)

/-! A payment under the daily limit overtakes one under the monthly limit. -/

def monthly : CapabilityToken :=
  paymentToken "urn:cap:7c9e6679-7425-40de-944b-e07fc1f90ae7"
    "px4O8nvfF6r7d5hapL6HkW_fTc-83lD0a77ImAmGldGuxi1lHGx8m06Eb7cIq2nhzUqETNBQbthLujPVH09ICw"
    [(100, .month)]

/-- A reservation of sixty through the window of the day. -/
def daily : ReserveRequest :=
  scopeRequest "3f2504e0-4f89-41d3-9a0c-0305e82c3301" editor meterField 100 .day noon.time
    (.finite 60)

/-- The reservation is committed when the other transaction has aggregated. -/
def overtaken : SharedStore := ⟨⟨Table.empty, noon.time,
  fun _ => "1f0e2c44-5b0d-4a7c-9b2e-6d1a3f4c5e66"⟩, [[], [], [], [.reserve daily (.finite 0)]]⟩

/-- Both of the payments are admitted, and together they exceed the limit of the month. -/
theorem monthly_limit_overtaken : ∃ result store' turn,
    check (guard monthly).toRuntimeGuardDependencies "CONFIRM" (payment 60) editor none
      overtaken = (some result, store') ∧ result.allowed = true ∧
    acceptedTurn (guard monthly).toRuntimeGuardDependencies "CONFIRM" (payment 60) editor
      none overtaken = some turn ∧
    ∃ scope ∈ cumulativeScopes (matchingScopes "CONFIRM" turn.token),
      ¬ TurnWithinLimit (guard monthly) "CONFIRM" (payment 60) editor turn scope := by
  have hturn := guard_accepts (paymentToken_isValid ((isCapabilityTokenId_ofList _).trans (by decide))
      ((isSignature_ofList _).trans (by decide)) (by decide +kernel)) (by simp)
    (by decide +kernel : (evaluateAll (guard monthly).scopeEvaluator
      (matchingScopes "CONFIRM" monthly)
      (paramsWithAgent editor "9f0c1b1e-33f4-4b1d-8a53-0d1f6e3f2c11" (payment 60)) noon.time
      overtaken).1 = .ok ())
  obtain ⟨result, store', hcheck, hresult⟩ := check_allowed_iff.mpr ⟨_, hturn⟩
  refine ⟨result, store', _, hcheck, hresult, hturn, _, List.mem_cons_self, fun hwithin => ?_⟩
  exact not_withinLimit (by decide +kernel) (hwithin _ rfl)

end Payer

end Coivitas.Policy
