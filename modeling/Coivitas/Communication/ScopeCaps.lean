import Coivitas.Communication.ScopeAccounting
import Coivitas.Foundation.Run
import Mathlib.Data.Finset.Card

/-! # Caps of the scope validator over runs

Runs of calls under the claims of their tokens, with the list of the accepted
calls. The upserts compare an updated counter with its cap but insert a first one
unseen, and a recorded key is accepted without being counted. The caps hold along
the runs in which neither lets a call through that the cap would refuse.
-/

namespace Coivitas.Communication.Bridge

open Foundation Coivitas.Types

/-! ## Runs -/

/-- A call under the claims of its token, with what the database does to it. -/
structure ScopeCall where
  tokenId : String
  requestIdempotencyKey : String
  arguments : MCPCallArguments
  today : String
  working : Tables
  replies : List (Option Fault)

/-- An accepted call, and whether its key had been recorded for its currency before. -/
structure AcceptedCall where
  token : String
  key : String
  day : String
  value : Option ℚ
  currency : Option String
  replayed : Bool
deriving DecidableEq

structure BridgeState where
  tables : Tables
  accepted : List AcceptedCall

def BridgeState.initial : BridgeState := ⟨Tables.empty, []⟩

section Runs

variable (claims : String → List ScopeClaim)

def ScopeCall.input (call : ScopeCall) : ValidateScopeInput where
  arguments := call.arguments
  disclosedClaims := claims (uuid call.tokenId)
  tokenId := call.tokenId
  requestIdempotencyKey := call.requestIdempotencyKey

def ScopeCall.acceptedFrom (call : ScopeCall) (tables : Tables) : AcceptedCall where
  token := uuid call.tokenId
  key := call.requestIdempotencyKey
  day := call.today
  value := call.arguments.value
  currency := call.arguments.currency
  replayed := (tables.valueIdempotency (call.requestIdempotencyKey, uuid call.tokenId,
    call.arguments.currency.getD "")).isSome

def ScopeCall.execution (call : ScopeCall) (tables : Tables) :
    Execution Database Empty Fault ValidateScopeResult :=
  (validateScope (call.input claims) call.today).run ⟨tables, call.working, call.replies⟩

def callStep (s : BridgeState) (call : ScopeCall) : Option BridgeState :=
  let execution := call.execution claims s.tables
  some
    { tables := execution.world.committed
      accepted :=
        if execution.result = .ok .ok then call.acceptedFrom s.tables :: s.accepted
        else s.accepted }

/-! ## Caps -/

/-- The values of the accepted calls of a token in a currency. -/
def acceptedValues (token currency : String) (accepted : List AcceptedCall) : List ℚ :=
  accepted.filterMap fun call =>
    if call.token = token ∧ call.currency = some currency then call.value else none

/-- The distinct keys of the accepted calls of a token on a day. -/
def acceptedKeys (token day : String) (accepted : List AcceptedCall) : Finset String :=
  ((accepted.filter fun call => call.token = token ∧ call.day = day).map AcceptedCall.key).toFinset

/-- The calls that were accepted under a key that was new to them. -/
def firstCalls (accepted : List AcceptedCall) : List AcceptedCall :=
  accepted.filter fun call => !call.replayed

/-- The values accepted for a token and a currency keep within `max_total_value`. -/
def ValueCapped (accepted : List AcceptedCall) : Prop :=
  ∀ token currency claim, findClaim "max_total_value" (claims token) = some claim →
    claim.currency = some currency → acceptedValues token currency accepted ≠ [] →
      (acceptedValues token currency accepted).sum ≤ claim.value

/-- The keys accepted for a token on a day keep within `max_per_day`. -/
def CountCapped (accepted : List AcceptedCall) : Prop :=
  ∀ token day claim, findClaim "max_per_day" (claims token) = some claim →
    acceptedKeys token day accepted ≠ ∅ →
      ((acceptedKeys token day accepted).card : ℚ) ≤ claim.value

/-! ## Conditions on a call -/

/-- A value under a new key is not rounded down, and the first one of its token and
currency is within the cap by itself. -/
def ValueWithin (s : BridgeState) (call : ScopeCall) : Prop :=
  let token := uuid call.tokenId
  preCheck (call.input claims) = .ok () →
    ∀ claim ∈ findClaim "max_total_value" (claims token), ∀ value ∈ call.arguments.value,
      let currency := claim.currency.getD ""
      let total := s.tables.valueCounter (token, currency)
      s.tables.valueIdempotency (call.requestIdempotencyKey, token, currency) = none →
        total.getD 0 + value ≤ roundCents (total.getD 0 + value) ∧
          (total = none → value ≤ claim.value)

/-- A recorded key comes with no further value. -/
def ReplayWithin (s : BridgeState) (call : ScopeCall) : Prop :=
  let token := uuid call.tokenId
  preCheck (call.input claims) = .ok () →
    ∀ claim ∈ findClaim "max_total_value" (claims token), ∀ value ∈ call.arguments.value,
      s.tables.valueIdempotency
          (call.requestIdempotencyKey, token, claim.currency.getD "") ≠ none →
        value ≤ 0

/-- The first call of a day finds a cap of at least one, and a recorded key was
accepted on the same day. -/
def CountWithin (s : BridgeState) (call : ScopeCall) : Prop :=
  let token := uuid call.tokenId
  preCheck (call.input claims) = .ok () →
    ∀ claim ∈ findClaim "max_per_day" (claims token),
      if s.tables.quotaIdempotency (call.requestIdempotencyKey, token) = none then
        s.tables.quotaCounter (token, call.today) = none → 1 ≤ claim.value
      else call.requestIdempotencyKey ∈ acceptedKeys token call.today s.accepted

instance (s : BridgeState) (call : ScopeCall) : Decidable (ValueWithin claims s call) := by
  unfold ValueWithin
  infer_instance

instance (s : BridgeState) (call : ScopeCall) : Decidable (ReplayWithin claims s call) := by
  unfold ReplayWithin
  infer_instance

instance (s : BridgeState) (call : ScopeCall) : Decidable (CountWithin claims s call) := by
  unfold CountWithin
  infer_instance

end Runs

/-! ## What a step does -/

section Steps

variable {claims : String → List ScopeClaim} {s s' : BridgeState} {call : ScopeCall}

theorem preCheck_of_accepted {input : ValidateScopeInput} {today : String} {db : Database}
    (h : ((validateScope input today).run db).result = .ok .ok) : preCheck input = .ok () := by
  unfold validateScope at h
  cases hcheck : preCheck input with
  | error rejection =>
      rw [hcheck] at h
      cases h
  | ok => rfl

/-- A value is accepted in the currency of the claim on it. -/
theorem currency_of_preCheck {input : ValidateScopeInput} {claim : ScopeClaim}
    (hcheck : preCheck input = .ok ()) (hclaim : input.totalClaim = some claim) :
    input.arguments.currency ≠ none ∧ input.arguments.currency = claim.currency := by
  simp only [preCheck, checkCurrency, bind_eq_ok, exists_unit, require_eq_ok] at hcheck
  obtain ⟨-, -, hcurrency, -⟩ := hcheck
  cases hperCall : input.perCallClaim with
  | none =>
      simp only [hperCall, hclaim, Option.none_or, bind_eq_ok, exists_unit,
        require_eq_ok] at hcurrency
      exact ⟨hcurrency.1, hcurrency.2.1⟩
  | some perCall =>
      simp only [hperCall, hclaim, Option.some_or, bind_eq_ok, exists_unit,
        require_eq_ok] at hcurrency
      obtain ⟨hsome, hsame, hconsistent⟩ := hcurrency
      exact ⟨hsome, hsame.trans (hconsistent perCall rfl claim rfl)⟩

theorem callStep_cases (hok : AllOk s.tables) (h : callStep claims s call = some s') :
    (preCheck (call.input claims) = .ok () ∧
      Accounted (txBodyInput (call.input claims) call.today) s.tables s'.tables ∧
        s'.accepted = call.acceptedFrom s.tables :: s.accepted) ∨ s' = s := by
  unfold callStep at h
  have hsettles : Settles (txBodyInput (call.input claims) call.today) s.tables
      (call.execution claims s.tables) :=
    settles_validateScope (call.input claims) call.today
      (show AllOk (⟨s.tables, call.working, call.replies⟩ : Database).committed from hok)
  obtain rfl := Option.some.inj h
  rcases hsettles with ⟨hresult, haccounted⟩ | ⟨hresult, hsame⟩
  · refine Or.inl ⟨preCheck_of_accepted hresult, haccounted, ?_⟩
    rw [if_pos hresult]
  · refine Or.inr ?_
    rw [if_neg hresult, hsame]

theorem callStep_allOk (hok : AllOk s.tables) (h : callStep claims s call = some s') :
    AllOk s'.tables := by
  rcases callStep_cases hok h with ⟨-, haccounted, -⟩ | rfl
  · exact hok.accounted haccounted
  · exact hok

end Steps

/-! ## Values -/

section Values

variable {claims : String → List ScopeClaim} {s s' : BridgeState} {call : ScopeCall}
  {token currency : String} {claim : ScopeClaim}

theorem acceptedValues_cons_of_value {accepted : List AcceptedCall} {entry : AcceptedCall}
    {value : ℚ} (htoken : entry.token = token) (hcurrency : entry.currency = some currency)
    (hvalue : entry.value = some value) :
    acceptedValues token currency (entry :: accepted) =
      value :: acceptedValues token currency accepted := by
  simp [acceptedValues, htoken, hcurrency, hvalue]

theorem acceptedValues_cons_of_skip {accepted : List AcceptedCall} {entry : AcceptedCall}
    (hskip : entry.token ≠ token ∨ entry.value = none) :
    acceptedValues token currency (entry :: accepted) =
      acceptedValues token currency accepted := by
  rcases hskip with htoken | hvalue
  · simp [acceptedValues, htoken]
  · simp [acceptedValues, hvalue]

theorem acceptedValues_firstCalls_cons_of_skip {accepted : List AcceptedCall}
    {entry : AcceptedCall} (hskip : entry.token ≠ token ∨ entry.value = none) :
    acceptedValues token currency (firstCalls (entry :: accepted)) =
      acceptedValues token currency (firstCalls accepted) := by
  unfold firstCalls
  rw [List.filter_cons]
  split
  next => exact acceptedValues_cons_of_skip hskip
  next => rfl

/-- The part of the value tables that belongs to a token and a currency is as before. -/
structure SameValues (token currency : String) (tables tables' : Tables) : Prop where
  counter : tables'.valueCounter (token, currency) = tables.valueCounter (token, currency)
  rows : ∀ key, tables'.valueIdempotency (key, token, currency) =
    tables.valueIdempotency (key, token, currency)

/-- What a step does to the values of a token in a currency. -/
inductive ValueMove (claims : String → List ScopeClaim) (token currency : String) (cap : ℚ)
    (call : ScopeCall) (s s' : BridgeState) : Prop where
  | kept (hsame : SameValues token currency s.tables s'.tables)
      (hvalues : acceptedValues token currency s'.accepted =
        acceptedValues token currency s.accepted)
      (hfirst : acceptedValues token currency (firstCalls s'.accepted) =
        acceptedValues token currency (firstCalls s.accepted))
  | replayed {value : ℚ} (htoken : uuid call.tokenId = token)
      (hcheck : preCheck (call.input claims) = .ok ())
      (hvalue : call.arguments.value = some value)
      (hrow : s.tables.valueIdempotency (call.requestIdempotencyKey, token, currency) ≠ none)
      (hsame : SameValues token currency s.tables s'.tables)
      (hvalues : acceptedValues token currency s'.accepted =
        value :: acceptedValues token currency s.accepted)
      (hfirst : acceptedValues token currency (firstCalls s'.accepted) =
        acceptedValues token currency (firstCalls s.accepted))
  | counted {value : ℚ} (htoken : uuid call.tokenId = token)
      (hcheck : preCheck (call.input claims) = .ok ())
      (hvalue : call.arguments.value = some value)
      (hrow : s.tables.valueIdempotency (call.requestIdempotencyKey, token, currency) = none)
      (hguard : ∀ total ∈ s.tables.valueCounter (token, currency), total + value ≤ cap)
      (hcounter : s'.tables.valueCounter (token, currency) =
        some (roundCents ((s.tables.valueCounter (token, currency)).getD 0 + value)))
      (hvalues : acceptedValues token currency s'.accepted =
        value :: acceptedValues token currency s.accepted)
      (hfirst : acceptedValues token currency (firstCalls s'.accepted) =
        value :: acceptedValues token currency (firstCalls s.accepted))

theorem QuotaStep.sameValues {input : ScopeTxBodyInput} {tables tables' : Tables}
    (hstep : QuotaStep input tables tables') (token currency : String) :
    SameValues token currency tables tables' := by
  cases hstep with
  | unclaimed => exact ⟨rfl, fun _ => rfl⟩
  | recorded => exact ⟨rfl, fun _ => rfl⟩
  | counted => exact ⟨rfl, fun _ => rfl⟩

theorem ValueStep.sameValues_of_ne {input : ScopeTxBodyInput} {tables tables' : Tables}
    (hstep : ValueStep input tables tables') (hne : input.token ≠ token) :
    SameValues token currency tables tables' := by
  cases hstep with
  | unclaimed => exact ⟨rfl, fun _ => rfl⟩
  | recorded => exact ⟨rfl, fun _ => rfl⟩
  | counted =>
      refine ⟨Function.update_of_ne ?_ _ _, fun key => Function.update_of_ne ?_ _ _⟩
      · simp [hne.symm]
      · simp [hne.symm]

theorem SameValues.trans {tables tables' tables'' : Tables}
    (h : SameValues token currency tables tables')
    (h' : SameValues token currency tables' tables'') :
    SameValues token currency tables tables'' :=
  ⟨h'.counter.trans h.counter, fun key => (h'.rows key).trans (h.rows key)⟩

/-- An accepted call of the token itself. -/
theorem valueMove_of_accepted
    (hclaim : findClaim "max_total_value" (claims (uuid call.tokenId)) = some claim)
    (hcurrency : claim.currency = some currency)
    (hcheck : preCheck (call.input claims) = .ok ())
    (haccounted : Accounted (txBodyInput (call.input claims) call.today) s.tables s'.tables)
    (haccepted : s'.accepted = call.acceptedFrom s.tables :: s.accepted) :
    ValueMove claims (uuid call.tokenId) currency claim.value call s s' := by
  obtain ⟨tables', accepted'⟩ := s'
  obtain ⟨middle, hquota, hstep⟩ := haccounted
  dsimp only at hstep haccepted
  have hmiddle := hquota.sameValues (uuid call.tokenId) currency
  cases hvalue : call.arguments.value with
  | none =>
      have hsame : tables' = middle := by
        cases hstep with
        | unclaimed => rfl
        | recorded => rfl
        | counted _ hsome => exact absurd (hsome.symm.trans hvalue) (by simp)
      have hskip : (call.acceptedFrom s.tables).token ≠ uuid call.tokenId ∨
          (call.acceptedFrom s.tables).value = none := Or.inr hvalue
      subst hsame
      refine .kept hmiddle ?_ ?_
      · rw [haccepted, acceptedValues_cons_of_skip hskip]
      · rw [haccepted, acceptedValues_firstCalls_cons_of_skip hskip]
  | some value =>
      have htotal : (call.input claims).totalClaim = some claim := by
        rw [ValidateScopeInput.totalClaim, if_pos (by simp [ScopeCall.input, hvalue])]
        exact hclaim
      have hentry : call.arguments.currency = some currency :=
        (currency_of_preCheck hcheck htotal).2.trans hcurrency
      have hvalues : acceptedValues (uuid call.tokenId) currency accepted' =
          value :: acceptedValues (uuid call.tokenId) currency s.accepted := by
        rw [haccepted]
        exact acceptedValues_cons_of_value rfl hentry hvalue
      have hreplayed : (call.acceptedFrom s.tables).replayed =
          (s.tables.valueIdempotency
            (call.requestIdempotencyKey, uuid call.tokenId, currency)).isSome := by
        simp [ScopeCall.acceptedFrom, hentry]
      cases hstep with
      | unclaimed hnone => exact absurd (hnone.symm.trans htotal) (by simp)
      | @recorded claim' row hsome hrow =>
          obtain rfl : claim' = claim := Option.some.inj (hsome.symm.trans htotal)
          rw [hcurrency] at hrow
          have hrow' : s.tables.valueIdempotency
              (call.requestIdempotencyKey, uuid call.tokenId, currency) = some row :=
            (hmiddle.rows call.requestIdempotencyKey).symm.trans hrow
          refine .replayed rfl hcheck hvalue (by simp [hrow']) hmiddle hvalues ?_
          rw [haccepted, firstCalls, List.filter_cons_of_neg (by simp [hreplayed, hrow'])]
          rfl
      | @counted claim' value' hsome hvalue' hnew hguard =>
          obtain rfl : claim' = claim := Option.some.inj (hsome.symm.trans htotal)
          obtain rfl : value' = value := Option.some.inj (hvalue'.symm.trans hvalue)
          rw [hcurrency] at hnew hguard
          have hnew' : s.tables.valueIdempotency
              (call.requestIdempotencyKey, uuid call.tokenId, currency) = none :=
            (hmiddle.rows call.requestIdempotencyKey).symm.trans hnew
          refine .counted rfl hcheck hvalue hnew' ?_ ?_ hvalues ?_
          · rw [← hmiddle.counter]
            exact hguard
          · rw [← hmiddle.counter, hcurrency]
            exact Function.update_self _ _ _
          · rw [haccepted, firstCalls, List.filter_cons_of_pos (by simp [hreplayed, hnew'])]
            exact acceptedValues_cons_of_value rfl hentry hvalue

theorem callStep_valueMove (hclaim : findClaim "max_total_value" (claims token) = some claim)
    (hcurrency : claim.currency = some currency) (hok : AllOk s.tables)
    (h : callStep claims s call = some s') :
    ValueMove claims token currency claim.value call s s' := by
  rcases callStep_cases hok h with ⟨hcheck, haccounted, haccepted⟩ | rfl
  · by_cases htoken : uuid call.tokenId = token
    · subst htoken
      exact valueMove_of_accepted hclaim hcurrency hcheck haccounted haccepted
    · obtain ⟨middle, hquota, hvalue⟩ := haccounted
      have hskip : (call.acceptedFrom s.tables).token ≠ token ∨
          (call.acceptedFrom s.tables).value = none := Or.inl htoken
      refine .kept ((hquota.sameValues _ _).trans (hvalue.sameValues_of_ne htoken)) ?_ ?_
      · rw [haccepted, acceptedValues_cons_of_skip hskip]
      · rw [haccepted, acceptedValues_firstCalls_cons_of_skip hskip]
  · exact .kept ⟨rfl, fun _ => rfl⟩ rfl rfl

/-- The counter of a token and a currency bounds the values first accepted for them. -/
structure ValueInv (token currency : String) (cap : ℚ) (s : BridgeState) : Prop where
  allOk : AllOk s.tables
  recorded : ∀ key, s.tables.valueIdempotency (key, token, currency) ≠ none →
    s.tables.valueCounter (token, currency) ≠ none
  absent : s.tables.valueCounter (token, currency) = none →
    acceptedValues token currency s.accepted = [] ∧
      acceptedValues token currency (firstCalls s.accepted) = []
  present : ∀ total, s.tables.valueCounter (token, currency) = some total →
    (acceptedValues token currency (firstCalls s.accepted)).sum ≤ total ∧
      (acceptedValues token currency (firstCalls s.accepted)).sum ≤ cap

theorem ValueInv.step (hclaim : findClaim "max_total_value" (claims token) = some claim)
    (hcurrency : claim.currency = some currency) (hinv : ValueInv token currency claim.value s)
    (hwithin : ValueWithin claims s call) (h : callStep claims s call = some s') :
    ValueInv token currency claim.value s' := by
  have hok := callStep_allOk hinv.allOk h
  cases callStep_valueMove hclaim hcurrency hinv.allOk h with
  | kept hsame hvalues hfirst =>
      refine ⟨hok, ?_, ?_, ?_⟩
      · intro key hrow
        rw [hsame.counter]
        exact hinv.recorded key (by rwa [hsame.rows] at hrow)
      · rw [hsame.counter, hvalues, hfirst]
        exact hinv.absent
      · rw [hsame.counter, hfirst]
        exact hinv.present
  | replayed _ _ _ hrow hsame _ hfirst =>
      have hsome := hinv.recorded _ hrow
      refine ⟨hok, ?_, ?_, ?_⟩
      · rw [hsame.counter]
        exact fun _ _ => hsome
      · rw [hsame.counter]
        exact fun hnone => absurd hnone hsome
      · rw [hsame.counter, hfirst]
        exact hinv.present
  | @counted value htoken hcheck hvalue hrow hguard hcounter _ hfirst =>
      subst htoken
      obtain ⟨hround, hinsert⟩ := hwithin hcheck claim hclaim value hvalue
        (by rw [hcurrency]; exact hrow)
      rw [hcurrency, Option.getD_some] at hround hinsert
      refine ⟨hok, by simp [hcounter], by simp [hcounter], ?_⟩
      intro stored hstored
      obtain rfl := Option.some.inj (hcounter.symm.trans hstored)
      rw [hfirst, List.sum_cons]
      cases htotal : s.tables.valueCounter (uuid call.tokenId, currency) with
      | none =>
          rw [htotal] at hround
          rw [(hinv.absent htotal).2, List.sum_nil, add_zero]
          exact ⟨by simpa using hround, hinsert htotal⟩
      | some total =>
          rw [htotal] at hround
          have hbound := (hinv.present total htotal).1
          have hcap := hguard total htotal
          simp only [Option.getD_some] at hround ⊢
          constructor <;> linarith

/-- The values accepted under recorded keys add nothing to those first accepted. -/
structure ReplayInv (token currency : String) (s : BridgeState) : Prop where
  allOk : AllOk s.tables
  sum_le : (acceptedValues token currency s.accepted).sum ≤
    (acceptedValues token currency (firstCalls s.accepted)).sum

theorem ReplayInv.step (hclaim : findClaim "max_total_value" (claims token) = some claim)
    (hcurrency : claim.currency = some currency) (hinv : ReplayInv token currency s)
    (hwithin : ReplayWithin claims s call) (h : callStep claims s call = some s') :
    ReplayInv token currency s' := by
  refine ⟨callStep_allOk hinv.allOk h, ?_⟩
  have hsum := hinv.sum_le
  cases callStep_valueMove hclaim hcurrency hinv.allOk h with
  | kept _ hvalues hfirst => rwa [hvalues, hfirst]
  | @replayed value htoken hcheck hvalue hrow _ hvalues hfirst =>
      subst htoken
      have hnone : value ≤ 0 := hwithin hcheck claim hclaim value hvalue
        (by rw [hcurrency]; exact hrow)
      rw [hvalues, hfirst, List.sum_cons]
      linarith
  | counted _ _ _ _ _ _ hvalues hfirst =>
      rw [hvalues, hfirst, List.sum_cons, List.sum_cons]
      linarith

end Values

/-! ## Calls of a day -/

section Calls

variable {claims : String → List ScopeClaim} {s s' : BridgeState} {call : ScopeCall}
  {token day : String} {claim : ScopeClaim}

theorem acceptedKeys_cons_of_eq {accepted : List AcceptedCall} {entry : AcceptedCall}
    (htoken : entry.token = token) (hday : entry.day = day) :
    acceptedKeys token day (entry :: accepted) =
      insert entry.key (acceptedKeys token day accepted) := by
  unfold acceptedKeys
  rw [List.filter_cons_of_pos (by simp [htoken, hday]), List.map_cons, List.toFinset_cons]

theorem acceptedKeys_cons_of_ne {accepted : List AcceptedCall} {entry : AcceptedCall}
    (hne : ¬ (entry.token = token ∧ entry.day = day)) :
    acceptedKeys token day (entry :: accepted) = acceptedKeys token day accepted := by
  unfold acceptedKeys
  rw [List.filter_cons_of_neg (by simpa using hne)]

/-- What a step does to the calls of a token on a day. -/
inductive CountMove (claims : String → List ScopeClaim) (token day : String) (cap : ℚ)
    (call : ScopeCall) (s s' : BridgeState) : Prop where
  | kept (hcounter : s'.tables.quotaCounter (token, day) = s.tables.quotaCounter (token, day))
      (hkeys : acceptedKeys token day s'.accepted = acceptedKeys token day s.accepted)
  | replayed (htoken : uuid call.tokenId = token) (hday : call.today = day)
      (hcheck : preCheck (call.input claims) = .ok ())
      (hrow : s.tables.quotaIdempotency (call.requestIdempotencyKey, token) ≠ none)
      (hcounter : s'.tables.quotaCounter (token, day) = s.tables.quotaCounter (token, day))
      (hkeys : acceptedKeys token day s'.accepted =
        insert call.requestIdempotencyKey (acceptedKeys token day s.accepted))
  | counted (htoken : uuid call.tokenId = token) (hday : call.today = day)
      (hcheck : preCheck (call.input claims) = .ok ())
      (hrow : s.tables.quotaIdempotency (call.requestIdempotencyKey, token) = none)
      (hguard : ∀ callsCount ∈ s.tables.quotaCounter (token, day),
        ((callsCount + 1 : ℤ) : ℚ) ≤ cap)
      (hcounter : s'.tables.quotaCounter (token, day) =
        some ((s.tables.quotaCounter (token, day)).getD 0 + 1))
      (hkeys : acceptedKeys token day s'.accepted =
        insert call.requestIdempotencyKey (acceptedKeys token day s.accepted))

theorem ValueStep.quotaCounter {input : ScopeTxBodyInput} {tables tables' : Tables}
    (hstep : ValueStep input tables tables') : tables'.quotaCounter = tables.quotaCounter := by
  cases hstep with
  | unclaimed => rfl
  | recorded => rfl
  | counted => rfl

theorem QuotaStep.quotaCounter_of_ne {input : ScopeTxBodyInput} {tables tables' : Tables}
    (hstep : QuotaStep input tables tables') (hne : ¬ (input.token = token ∧ input.today = day)) :
    tables'.quotaCounter (token, day) = tables.quotaCounter (token, day) := by
  cases hstep with
  | unclaimed => rfl
  | recorded => rfl
  | counted =>
      refine Function.update_of_ne ?_ _ _
      intro heq
      obtain ⟨rfl, rfl⟩ := Prod.mk.inj heq
      exact hne ⟨rfl, rfl⟩

theorem callStep_countMove (hclaim : findClaim "max_per_day" (claims token) = some claim)
    (hok : AllOk s.tables) (h : callStep claims s call = some s') :
    CountMove claims token day claim.value call s s' := by
  rcases callStep_cases hok h with ⟨hcheck, haccounted, haccepted⟩ | rfl
  · obtain ⟨middle, hquota, hvalue⟩ := haccounted
    have hcounter := congrFun hvalue.quotaCounter (token, day)
    by_cases hhere : uuid call.tokenId = token ∧ call.today = day
    · obtain ⟨rfl, rfl⟩ := hhere
      have hkeys : acceptedKeys (uuid call.tokenId) call.today s'.accepted =
          insert call.requestIdempotencyKey
            (acceptedKeys (uuid call.tokenId) call.today s.accepted) := by
        rw [haccepted]
        exact acceptedKeys_cons_of_eq rfl rfl
      cases hquota with
      | unclaimed hnone => exact absurd (hnone.symm.trans hclaim) (by simp)
      | @recorded claim' row _ hrow =>
          exact .replayed rfl rfl hcheck (fun hnone => by cases hrow.symm.trans hnone) hcounter
            hkeys
      | @counted claim' hsome hnew hguard =>
          obtain rfl : claim' = claim := Option.some.inj (hsome.symm.trans hclaim)
          refine .counted rfl rfl hcheck hnew hguard ?_ hkeys
          rw [hcounter]
          exact Function.update_self _ _ _
    · refine .kept (hcounter.trans (hquota.quotaCounter_of_ne hhere)) ?_
      rw [haccepted]
      exact acceptedKeys_cons_of_ne hhere
  · exact .kept rfl rfl

/-- The counter of a token and a day bounds the keys accepted on it. -/
structure CountInv (token day : String) (cap : ℚ) (s : BridgeState) : Prop where
  allOk : AllOk s.tables
  absent : s.tables.quotaCounter (token, day) = none → acceptedKeys token day s.accepted = ∅
  present : ∀ callsCount, s.tables.quotaCounter (token, day) = some callsCount →
    ((acceptedKeys token day s.accepted).card : ℤ) ≤ callsCount ∧ (callsCount : ℚ) ≤ cap

theorem CountInv.step (hclaim : findClaim "max_per_day" (claims token) = some claim)
    (hinv : CountInv token day claim.value s) (hwithin : CountWithin claims s call)
    (h : callStep claims s call = some s') : CountInv token day claim.value s' := by
  have hok := callStep_allOk hinv.allOk h
  cases (callStep_countMove hclaim hinv.allOk h : CountMove claims token day _ call s s') with
  | kept hcounter hkeys =>
      refine ⟨hok, ?_, ?_⟩
      · rw [hcounter, hkeys]
        exact hinv.absent
      · rw [hcounter, hkeys]
        exact hinv.present
  | replayed htoken hday hcheck hrow hcounter hkeys =>
      subst htoken hday
      have hmem := hwithin hcheck claim hclaim
      rw [if_neg hrow] at hmem
      rw [Finset.insert_eq_of_mem hmem] at hkeys
      refine ⟨hok, ?_, ?_⟩
      · rw [hcounter, hkeys]
        exact hinv.absent
      · rw [hcounter, hkeys]
        exact hinv.present
  | counted htoken hday hcheck hrow hguard hcounter hkeys =>
      subst htoken hday
      have hfirst := hwithin hcheck claim hclaim
      rw [if_pos hrow] at hfirst
      have hcard := Finset.card_insert_le call.requestIdempotencyKey
        (acceptedKeys (uuid call.tokenId) call.today s.accepted)
      refine ⟨hok, by simp [hcounter], ?_⟩
      intro callsCount hcount
      obtain rfl := Option.some.inj (hcounter.symm.trans hcount)
      rw [hkeys]
      cases hcurrent : s.tables.quotaCounter (uuid call.tokenId, call.today) with
      | none =>
          rw [hinv.absent hcurrent] at hcard ⊢
          refine ⟨?_, ?_⟩
          · simp
          · simpa using hfirst hcurrent
      | some current =>
          have hbound := (hinv.present current hcurrent).1
          refine ⟨?_, hguard current hcurrent⟩
          simp only [Option.getD_some]
          omega

end Calls

/-! ## The caps -/

section Caps

variable {claims : String → List ScopeClaim} {calls : List ScopeCall} {s : BridgeState}

theorem ValueInv.initial (token currency : String) (cap : ℚ) :
    ValueInv token currency cap BridgeState.initial where
  allOk := ⟨nofun, nofun⟩
  recorded := fun _ hrow => absurd rfl hrow
  absent := fun _ => ⟨rfl, rfl⟩
  present := nofun

theorem ReplayInv.initial (token currency : String) :
    ReplayInv token currency BridgeState.initial where
  allOk := ⟨nofun, nofun⟩
  sum_le := le_refl _

theorem CountInv.initial (token day : String) (cap : ℚ) :
    CountInv token day cap BridgeState.initial where
  allOk := ⟨nofun, nofun⟩
  absent := fun _ => rfl
  present := nofun

theorem ValueInv.capped {token currency : String} {cap : ℚ} (hinv : ValueInv token currency cap s)
    (hvalues : acceptedValues token currency s.accepted ≠ []) :
    (acceptedValues token currency (firstCalls s.accepted)).sum ≤ cap := by
  cases htotal : s.tables.valueCounter (token, currency) with
  | none => exact absurd (hinv.absent htotal).1 hvalues
  | some total => exact (hinv.present total htotal).2

theorem CountInv.capped {token day : String} {cap : ℚ} (hinv : CountInv token day cap s)
    (hkeys : acceptedKeys token day s.accepted ≠ ∅) :
    ((acceptedKeys token day s.accepted).card : ℚ) ≤ cap := by
  cases hcount : s.tables.quotaCounter (token, day) with
  | none => exact absurd (hinv.absent hcount) hkeys
  | some callsCount =>
      obtain ⟨hcard, hcap⟩ := hinv.present callsCount hcount
      have hcard' : ((acceptedKeys token day s.accepted).card : ℚ) ≤ callsCount := by
        exact_mod_cast hcard
      exact hcard'.trans hcap

/-- A value of the first calls is a value of the accepted calls. -/
theorem acceptedValues_ne_nil_of_first {token currency : String}
    (hfirst : acceptedValues token currency (firstCalls s.accepted) ≠ []) :
    acceptedValues token currency s.accepted ≠ [] := by
  have hsub : (acceptedValues token currency (firstCalls s.accepted)).Sublist
      (acceptedValues token currency s.accepted) := List.filter_sublist.filterMap _
  intro hnil
  rw [hnil] at hsub
  exact hfirst (List.sublist_nil.mp hsub)

/-- Along the runs whose calls keep the conditions, the values accepted for a token and
a currency never exceed `max_total_value`, and neither do those of the first calls when
replays carry values; the keys accepted on a day never exceed `max_per_day`. -/
theorem accepted_calls_capped (hrun : run (callStep claims) BridgeState.initial calls = some s) :
    (Along (callStep claims) (ValueWithin claims) BridgeState.initial calls →
      ValueCapped claims (firstCalls s.accepted) ∧
        (Along (callStep claims) (ReplayWithin claims) BridgeState.initial calls →
          ValueCapped claims s.accepted)) ∧
    (Along (callStep claims) (CountWithin claims) BridgeState.initial calls →
      CountCapped claims s.accepted) := by
  refine ⟨fun hvalue => ?_, fun hcount => ?_⟩
  · have hinv : ∀ token currency claim,
        findClaim "max_total_value" (claims token) = some claim →
        claim.currency = some currency → ValueInv token currency claim.value s := by
      intro token currency claim hclaim hcurrency
      exact run_invariant (ValueInv token currency claim.value)
        (fun _ _ _ hinv hwithin hstep => hinv.step hclaim hcurrency hwithin hstep)
        (ValueInv.initial token currency claim.value) hvalue hrun
    refine ⟨?_, fun hreplay => ?_⟩
    · intro token currency claim hclaim hcurrency hfirst
      exact (hinv token currency claim hclaim hcurrency).capped
        (acceptedValues_ne_nil_of_first hfirst)
    · intro token currency claim hclaim hcurrency hvalues
      have hsum : ReplayInv token currency s := run_invariant (ReplayInv token currency)
        (fun _ _ _ hinv hwithin hstep => hinv.step hclaim hcurrency hwithin hstep)
        (ReplayInv.initial token currency) hreplay hrun
      exact hsum.sum_le.trans ((hinv token currency claim hclaim hcurrency).capped hvalues)
  · intro token day claim hclaim hkeys
    have hinv := run_invariant (CountInv token day claim.value)
      (fun _ _ _ hinv hwithin hstep => hinv.step hclaim hwithin hstep)
      (CountInv.initial token day claim.value) hcount hrun
    exact hinv.capped hkeys

end Caps

/-! ## A first call beyond the caps -/

namespace TravelBudget

def token : String := "550e8400-e29b-41d4-a716-446655440001"

def usd (cap : ℚ) : ScopeClaim := ⟨"max_total_value", cap, some "USD"⟩

def payment (key : String) (value : ℚ) : ScopeCall where
  tokenId := token
  requestIdempotencyKey := key
  arguments := ⟨none, some value, some "USD"⟩
  today := "2026-05-04"
  working := Tables.empty
  replies := []

/-- A cap of 100 on the values and of no call at all per day. -/
def closedClaims (_ : String) : List ScopeClaim := [⟨"max_per_day", 0, none⟩, usd 100]

theorem first_payment_accepted :
    ((callStep closedClaims BridgeState.initial (payment "req-1" 150)).map BridgeState.accepted) =
      some [(payment "req-1" 150).acceptedFrom Tables.empty] := by
  decide +kernel

/-- A first payment of 150 is accepted under a cap of 100, on a day without calls. -/
theorem caps_exceeded :
    (¬ ∀ (claims : String → List ScopeClaim) (calls : List ScopeCall) (s : BridgeState),
      run (callStep claims) BridgeState.initial calls = some s → ValueCapped claims s.accepted) ∧
    ¬ ∀ (claims : String → List ScopeClaim) (calls : List ScopeCall) (s : BridgeState),
      run (callStep claims) BridgeState.initial calls = some s → CountCapped claims s.accepted := by
  obtain ⟨s, hstep, haccepted⟩ := Option.map_eq_some_iff.mp first_payment_accepted
  have hrun : run (callStep closedClaims) BridgeState.initial [payment "req-1" 150] = some s := by
    rw [run_cons hstep]
    rfl
  refine ⟨fun h => ?_, fun h => ?_⟩
  · have hsum := h closedClaims _ s hrun token "USD" (usd 100) (by decide +kernel) rfl
    rw [haccepted] at hsum
    exact absurd (hsum (by decide +kernel)) (by decide +kernel)
  · have hcard := h closedClaims _ s hrun token "2026-05-04" ⟨"max_per_day", 0, none⟩
      (by decide +kernel)
    rw [haccepted] at hcard
    exact absurd (hcard (by decide +kernel)) (by decide +kernel)

/-- Two calls per day and a total of 100. -/
def openClaims (_ : String) : List ScopeClaim := [⟨"max_per_day", 2, none⟩, usd 100]

def payments : List ScopeCall := [payment "req-1" 60, payment "req-2" 40, payment "req-3" 10]

theorem payments_accepted :
    ((run (callStep openClaims) BridgeState.initial payments).map fun s =>
      s.accepted.map AcceptedCall.value) = some [some 40, some 60] := by
  decide +kernel

/-- Payments of 60 and 40 are accepted, a third one is not, and the caps hold. -/
theorem payments_capped : ∃ s,
    run (callStep openClaims) BridgeState.initial payments = some s ∧
      s.accepted.map AcceptedCall.value = [some 40, some 60] ∧
      ValueCapped openClaims s.accepted ∧ CountCapped openClaims s.accepted := by
  obtain ⟨s, hrun, haccepted⟩ := Option.map_eq_some_iff.mp payments_accepted
  obtain ⟨hvalue, hcount⟩ := accepted_calls_capped hrun
  obtain ⟨-, hreplay⟩ := hvalue (by decide +kernel)
  exact ⟨s, hrun, haccepted, hreplay (by decide +kernel), hcount (by decide +kernel)⟩

end TravelBudget

end Coivitas.Communication.Bridge
