import Coivitas.Identity.DelegationAttenuation
import Coivitas.Policy.ValueAttenuation

/-! # The two scope checks

`checkTokenForAction` reads the value scopes of a token without the evaluator of the runtime
guard. The two readings differ on entries that match by suffix, on `null` and on NaN. On a list
of scopes the differences count only where no other scope refuses the request.
-/

namespace Coivitas.Policy

open Foundation Coivitas.Types Identity

/-! ## The check without an evaluator -/

inductive TokenActionCode where
  | tokenNotForThisAgent
  | invalidAction
  | scopeExceeded
  | scopeTypeUnknown
  deriving DecidableEq

structure TokenActionRefusal where
  code : TokenActionCode
  message : String
  deriving DecidableEq

def checkScope (params : Params) : Scope → Except TokenActionRefusal Unit
  | .allowlist field values =>
      let refusal := ⟨.scopeExceeded, "Field " ++ field ++ " is outside the allowlist."⟩
      match params field with
      | .string fieldValue => require (fieldValue ∈ values) refusal
      | _ => throw refusal
  | .numericLimit field max _ =>
      let refusal := ⟨.scopeExceeded, "Field " ++ field ++ " exceeds the numeric limit."⟩
      match params field with
      | .undefined => pure ()
      | .number fieldValue => require (¬ fieldValue.gt max) refusal
      | _ => throw refusal
  | scope => throw ⟨.scopeTypeUnknown, "Unsupported scope type: " ++ scope.type⟩

def checkTokenForAction (token : CapabilityToken) (action : String) (params : Params)
    (agentDid : String) : Except TokenActionRefusal Unit := do
  require (token.issuedTo = agentDid) ⟨.tokenNotForThisAgent,
    "Capability token was issued to " ++ token.issuedTo ++ ", not " ++ agentDid ++ "."⟩
  let scopes := scopesOf token.capabilities action
  require (scopes ≠ []) ⟨.invalidAction,
    "Capability token does not authorize action " ++ action ++ "."⟩
  forEach scopes (checkScope params)

/-! ## What the readings share -/

/-- A request that meets a value scope under both readings. -/
def Meets (params : Params) : Scope → Prop
  | .allowlist field values => ∃ v ∈ values, params field = .string v
  | .numericLimit field max _ =>
      params field = .undefined ∨ ∃ n, params field = .number n ∧ n.le max
  | _ => False

/-- A numeric limit on a value that is not a number: no comparison with it is true. -/
def Incomparable (params : Params) : Scope → Prop
  | .numericLimit field _ _ => params field = .number .nan
  | _ => False

/-- A value matched by suffix only, or a limit on `null`. -/
def Lenient (params : Params) : Scope → Prop
  | .allowlist field values => ∃ v ∉ values, params field = .string v ∧
      ∃ suffix ≠ [], String.ofList ('*' :: suffix) ∈ values ∧ suffix <:+ v.toList
  | .numericLimit field _ _ => params field = .null
  | _ => False

section Readings

variable {params : Params} {scope : Scope}

theorem not_meets_of_incomparable (h : Incomparable params scope) : ¬ Meets params scope := by
  cases scope with
  | numericLimit field max currency =>
      rintro (hundefined | ⟨n, hn, hle⟩)
      · cases h.symm.trans hundefined
      · obtain rfl := JsValue.number.inj (h.symm.trans hn)
        exact hle
  | _ => cases h

theorem not_meets_of_lenient (h : Lenient params scope) : ¬ Meets params scope := by
  cases scope with
  | allowlist field values =>
      obtain ⟨v, hv, hparam, -⟩ := h
      rintro ⟨w, hw, hparam'⟩
      obtain rfl := JsValue.string.inj (hparam.symm.trans hparam')
      exact hv hw
  | numericLimit field max currency =>
      rintro (hundefined | ⟨n, hn, -⟩)
      · cases h.symm.trans hundefined
      · cases h.symm.trans hn
  | _ => cases h

theorem not_lenient_of_incomparable (h : Incomparable params scope) : ¬ Lenient params scope := by
  cases scope with
  | numericLimit field max currency =>
      intro hnull
      cases h.symm.trans hnull
  | _ => cases h

/-- The comparisons of the two readings agree on numbers. -/
theorem JsNumber.not_gt_iff (n : JsNumber) (max : ℚ) : ¬ n.gt max ↔ n.le max ∨ n = .nan := by
  cases n <;> simp [JsNumber.gt, JsNumber.le]

/-- An entry that starts with a star matches itself too. -/
theorem matchAllowlistValue_iff {actualValue candidate : String} :
    matchAllowlistValue actualValue candidate ↔ actualValue = candidate ∨
      ∃ suffix ≠ [], candidate = String.ofList ('*' :: suffix) ∧
        suffix <:+ actualValue.toList := by
  unfold matchAllowlistValue
  split
  next c rest hcandidate =>
    have hspelled : candidate = String.ofList ('*' :: c :: rest) := by
      rw [← hcandidate, String.ofList_toList]
    constructor
    · exact fun hsuffix => Or.inr ⟨c :: rest, List.cons_ne_nil _ _, hspelled, hsuffix⟩
    · rintro (rfl | ⟨suffix, -, hsuffix, hends⟩)
      · rw [hcandidate]
        exact List.suffix_cons _ _
      · have hchars := hcandidate.symm.trans (congrArg String.toList hsuffix)
        rw [String.toList_ofList] at hchars
        obtain ⟨-, rfl⟩ := List.cons.inj hchars
        exact hends
  next hplain =>
    refine ⟨Or.inl, ?_⟩
    rintro (heq | ⟨suffix, hne, rfl, -⟩)
    · exact heq
    · obtain ⟨c, rest, rfl⟩ := List.exists_cons_of_ne_nil hne
      exact absurd String.toList_ofList (hplain c rest)

theorem checkScope_eq_ok (hvalue : IsValueScope scope) :
    checkScope params scope = .ok () ↔ Meets params scope ∨ Incomparable params scope := by
  cases scope with
  | allowlist field values =>
      simp only [checkScope, Meets, Incomparable, or_false]
      cases hparam : params field <;> simp
  | numericLimit field max currency =>
      simp only [checkScope, Meets, Incomparable]
      cases hparam : params field <;> simp [JsNumber.not_gt_iff]
  | _ => exact hvalue.elim

theorem evaluate_eq_ok {σ : Type} (evaluator : ScopeEvaluator σ) (now : Int) (store : σ)
    (hvalue : IsValueScope scope) :
    (evaluate evaluator scope params now store).1 = .ok () ↔
      Meets params scope ∨ Lenient params scope := by
  cases scope with
  | allowlist field values =>
      rw [evaluate, evaluateAllowlist_eq_ok, Meets, Lenient]
      constructor
      · rintro ⟨v, hparam, candidate, hcandidate, hmatch⟩
        by_cases hv : v ∈ values
        · exact Or.inl ⟨v, hv, hparam⟩
        rcases matchAllowlistValue_iff.mp hmatch with rfl | ⟨suffix, hne, rfl, hends⟩
        · exact absurd hcandidate hv
        · exact Or.inr ⟨v, hv, hparam, suffix, hne, hcandidate, hends⟩
      · rintro (⟨v, hv, hparam⟩ | ⟨v, -, hparam, suffix, hne, hmem, hends⟩)
        · exact ⟨v, hparam, v, hv, matchAllowlistValue_iff.mpr (Or.inl rfl)⟩
        · exact ⟨v, hparam, _, hmem, matchAllowlistValue_iff.mpr
            (Or.inr ⟨suffix, hne, rfl, hends⟩)⟩
  | numericLimit field max currency =>
      rw [evaluate, evaluateNumericLimit, Meets, Lenient]
      cases hparam : params field with
      | number n =>
          cases n with
          | finite value =>
              by_cases hle : value ≤ max
              · simp [JsNumber.le, hle]
              · simp [JsNumber.le, hle]
          | _ => simp [JsNumber.le]
      | _ => simp
  | _ => exact hvalue.elim

end Readings

/-! ## Lists of scopes -/

/-- Where a limit is on a value that is not a number, or a scope is met leniently, another scope
decides against the request under that reading. -/
structure DifferencesMasked (params : Params) (scopes : List Scope) : Prop where
  incomparable : (∃ s ∈ scopes, Incomparable params s) →
    ∃ s ∈ scopes, ¬ Meets params s ∧ ¬ Incomparable params s
  lenient : (∃ s ∈ scopes, Lenient params s) →
    ∃ s ∈ scopes, ¬ Meets params s ∧ ¬ Lenient params s

/-- Two readings that add different elements to a common one agree on a list when neither addition
tips it. -/
theorem forall_or_iff_forall_or {α : Type} {p q r : α → Prop} {items : List α}
    (hq : ∀ a, q a → ¬ p a ∧ ¬ r a) (hr : ∀ a, r a → ¬ p a ∧ ¬ q a) :
    ((∀ a ∈ items, p a ∨ q a) ↔ ∀ a ∈ items, p a ∨ r a) ↔
      ((∃ a ∈ items, q a) → ∃ a ∈ items, ¬ p a ∧ ¬ q a) ∧
        ((∃ a ∈ items, r a) → ∃ a ∈ items, ¬ p a ∧ ¬ r a) := by
  constructor
  · intro h
    constructor
    · rintro ⟨a, ha, hqa⟩
      by_contra hnone
      push Not at hnone
      have hall : ∀ b ∈ items, p b ∨ q b := fun b hb => or_iff_not_imp_left.mpr (hnone b hb)
      exact (h.mp hall a ha).elim (hq a hqa).1 (hq a hqa).2
    · rintro ⟨a, ha, hra⟩
      by_contra hnone
      push Not at hnone
      have hall : ∀ b ∈ items, p b ∨ r b := fun b hb => or_iff_not_imp_left.mpr (hnone b hb)
      exact (h.mpr hall a ha).elim (hr a hra).1 (hr a hra).2
  · rintro ⟨hleft, hright⟩
    constructor
    · intro hall a ha
      refine (hall a ha).imp_right fun hqa => ?_
      obtain ⟨b, hb, hpb, hqb⟩ := hleft ⟨a, ha, hqa⟩
      exact ((hall b hb).elim hpb hqb).elim
    · intro hall a ha
      refine (hall a ha).imp_right fun hra => ?_
      obtain ⟨b, hb, hpb, hrb⟩ := hright ⟨a, ha, hra⟩
      exact ((hall b hb).elim hpb hrb).elim

/-- The two checks agree on a listed action exactly when no difference tips the list of its
scopes. -/
theorem checkTokenForAction_agrees_iff {σ : Type} (evaluator : ScopeEvaluator σ)
    (token : CapabilityToken) (hvalue : ∀ c ∈ token.capabilities, IsValueScope c.scope)
    (action : String) (hlisted : ∃ c ∈ token.capabilities, c.action = action) (params : Params)
    (now : Int) (store : σ) :
    (checkTokenForAction token action params token.issuedTo = .ok () ↔
      (evaluateAll evaluator (scopesOf token.capabilities action) params now store).1 = .ok ()) ↔
      DifferencesMasked params (scopesOf token.capabilities action) := by
  have hscopes : ∀ s ∈ scopesOf token.capabilities action, IsValueScope s := by
    intro s hs
    obtain ⟨c, hc, -, rfl⟩ := mem_scopesOf.mp hs
    exact hvalue c hc
  have hne : scopesOf token.capabilities action ≠ [] := by
    obtain ⟨c, hc, haction⟩ := hlisted
    exact List.ne_nil_of_mem (mem_scopesOf.mpr ⟨c, hc, haction, rfl⟩)
  have hcheck : checkTokenForAction token action params token.issuedTo = .ok () ↔
      ∀ s ∈ scopesOf token.capabilities action, Meets params s ∨ Incomparable params s := by
    simp only [checkTokenForAction, bind_eq_ok, exists_unit, require_eq_ok, forEach_eq_ok, hne,
      ne_eq, not_false_eq_true, true_and]
    exact forall₂_congr fun s hs => checkScope_eq_ok (hscopes s hs)
  have hevaluate : (evaluateAll evaluator (scopesOf token.capabilities action) params now
      store).1 = .ok () ↔
      ∀ s ∈ scopesOf token.capabilities action, Meets params s ∨ Lenient params s := by
    rw [evaluateAll_eq_ok evaluator fun s hs => stateless_of_isValueScope (hscopes s hs)]
    exact forall₂_congr fun s hs => evaluate_eq_ok evaluator now store (hscopes s hs)
  rw [hcheck, hevaluate, forall_or_iff_forall_or
    (fun s hs => ⟨not_meets_of_incomparable hs, not_lenient_of_incomparable hs⟩)
    fun s hs => ⟨not_meets_of_lenient hs, fun h => not_lenient_of_incomparable h hs⟩]
  exact ⟨fun h => ⟨h.1, h.2⟩, fun h => ⟨h.incomparable, h.lenient⟩⟩

/-! A publisher that may write to every channel of a domain. -/

def domainToken : CapabilityToken :=
  { Relay.rootToken "urn:cap:0b7e0f0a-5c0f-4c59-9c5a-3f5b6f2f9b61"
      "EMTVnIwws6NnAIGWCuDzrkjMt_miziSyzJUr656h9KEI0dkpfET5xGgjdjrWHum7sZWDDbazmnm4xbZX67uzAA" with
    capabilities := [⟨"PUBLISH", .allowlist "channel" ["*.acme.com"]⟩,
      ⟨"PUBLISH", .numericLimit "amount" 100 none⟩] }

def domainRequest (amount : JsValue) : Params := fun field =>
  if field = "channel" then .string "news.acme.com"
  else if field = "amount" then amount
  else .undefined

theorem checkTokenForAction_agrees_overLimit :
    (∀ c ∈ domainToken.capabilities, IsValueScope c.scope) ∧
      (∃ c ∈ domainToken.capabilities, c.action = "PUBLISH") ∧
      ((checkTokenForAction domainToken "PUBLISH" (domainRequest (.number (.finite 200)))
          domainToken.issuedTo = .ok () ↔
        (evaluateAll (⟨fun _ => none, none⟩ : ScopeEvaluator Unit)
          (scopesOf domainToken.capabilities "PUBLISH") (domainRequest (.number (.finite 200))) 0
          ()).1 = .ok ()) ↔
        DifferencesMasked (domainRequest (.number (.finite 200)))
          (scopesOf domainToken.capabilities "PUBLISH")) := by
  have hvalue : ∀ c ∈ domainToken.capabilities, IsValueScope c.scope := by
    simp [domainToken, IsValueScope]
  have hlisted : ∃ c ∈ domainToken.capabilities, c.action = "PUBLISH" :=
    ⟨_, List.mem_cons_self, rfl⟩
  exact ⟨hvalue, hlisted, checkTokenForAction_agrees_iff ⟨fun _ => none, none⟩ domainToken hvalue
    "PUBLISH" hlisted _ 0 ()⟩

/-- The evaluator allows a channel of the domain, the check does not. -/
theorem checkTokenForAction_disagrees_suffix :
    ¬ ∀ (token : CapabilityToken), (∀ c ∈ token.capabilities, IsValueScope c.scope) →
      ∀ (action : String), (∃ c ∈ token.capabilities, c.action = action) → ∀ (params : Params),
        (checkTokenForAction token action params token.issuedTo = .ok () ↔
          (evaluateAll (⟨fun _ => none, none⟩ : ScopeEvaluator Unit)
            (scopesOf token.capabilities action) params 0 ()).1 = .ok ()) := by
  intro hagree
  have hrefused : checkTokenForAction domainToken "PUBLISH" (domainRequest .undefined)
      domainToken.issuedTo ≠ .ok () := by decide +kernel
  have hallowed : (evaluateAll (⟨fun _ => none, none⟩ : ScopeEvaluator Unit)
      (scopesOf domainToken.capabilities "PUBLISH") (domainRequest .undefined) 0 ()).1 =
        .ok () := by decide +kernel
  exact hrefused ((hagree domainToken (by simp [domainToken, IsValueScope]) "PUBLISH"
    ⟨_, List.mem_cons_self, rfl⟩ (domainRequest .undefined)).mpr hallowed)

end Coivitas.Policy
