import Coivitas.Identity.AttenuationOrder
import Coivitas.Policy.ScopeEvaluator

/-! # Attenuated values are allowed values

The subset check compares match keys and literal value sets; the evaluator
matches suffixes and requires every scope of an action. For allowlists and
numeric limits the check is sound for the evaluator: what the child allows, the
parent allows.
-/

namespace Coivitas.Policy

open Foundation Coivitas.Types Identity

variable {σ : Type} (evaluator : ScopeEvaluator σ)

/-! ## Scopes that leave the store alone -/

def Stateless (scope : Scope) : Prop :=
  ∀ meterField max window currency, scope ≠ .cumulativeLimit meterField max window currency

theorem evaluate_store {scope : Scope} (hstateless : Stateless scope) (params : Params)
    (now : Int) (store : σ) : (evaluate evaluator scope params now store).2 = store := by
  cases scope with
  | cumulativeLimit meterField max window currency => exact absurd rfl (hstateless _ _ _ _)
  | _ => rfl

/-- Stateless scopes are all evaluated against the store the loop starts with. -/
theorem evaluateAll_eq_ok {scopes : List Scope} (hstateless : ∀ s ∈ scopes, Stateless s)
    (params : Params) (now : Int) (store : σ) :
    (evaluateAll evaluator scopes params now store).1 = .ok () ↔
      ∀ s ∈ scopes, (evaluate evaluator s params now store).1 = .ok () := by
  induction scopes with
  | nil => simp [evaluateAll]
  | cons scope scopes ih =>
      obtain ⟨hscope, hscopes⟩ := List.forall_mem_cons.mp hstateless
      have hstore := evaluate_store evaluator hscope params now store
      rw [List.forall_mem_cons, ← ih hscopes]
      rw [evaluateAll]
      split
      next denial store' heval => simp [heval]
      next store' heval =>
        obtain rfl : store' = store := by rw [← hstore, heval]
        simp [heval]

/-! ## Allowlists and numeric limits -/

def IsValueScope : Scope → Prop
  | .allowlist .. => True
  | .numericLimit .. => True
  | _ => False

theorem stateless_of_isValueScope {scope : Scope} (h : IsValueScope scope) : Stateless scope := by
  rintro meterField max window currency rfl
  exact h

theorem evaluateAllowlist_eq_ok {field : String} {values : List String} {params : Params} :
    evaluateAllowlist field values params = .ok () ↔
      ∃ actualValue, params field = .string actualValue ∧
        ∃ candidate ∈ values, matchAllowlistValue actualValue candidate := by
  unfold evaluateAllowlist
  cases values with
  | nil => simp
  | cons value values =>
      rw [if_neg (by simp)]
      split
      next actualValue hparam =>
        rw [hparam]
        simp only [JsValue.string.injEq, exists_eq_left']
        split <;> simp_all
      next hparam =>
        simp only [reduceCtorEq, false_iff]
        rintro ⟨actualValue, hstring, -⟩
        exact hparam actualValue hstring

theorem JsNumber.le_mono {a : JsNumber} {b c : ℚ} (hab : a.le b) (hbc : b ≤ c) : a.le c := by
  cases a with
  | finite value => exact le_trans hab hbc
  | _ => exact hab

theorem evaluateNumericLimit_mono {field : String} {max parentMax : ℚ} {params : Params}
    (hmax : max ≤ parentMax) (hallowed : evaluateNumericLimit field max params = .ok ()) :
    evaluateNumericLimit field parentMax params = .ok () := by
  unfold evaluateNumericLimit at hallowed ⊢
  split at hallowed
  next hparam => rfl
  next hparam => rfl
  next => exact hallowed
  next actualValue hnan hparam =>
    split at hallowed
    next hle => exact if_pos (JsNumber.le_mono hle hmax)
    next => cases hallowed
  next => exact hallowed

/-- One dimension: a narrower value scope allows fewer requests. -/
theorem evaluate_of_narrows {F : NumberFormat} {child parent : Scope}
    (hnarrows : ScopeNarrows F child parent) (hvalue : IsValueScope parent) {params : Params}
    {now : Int} {store : σ} (hallowed : (evaluate evaluator child params now store).1 = .ok ()) :
    (evaluate evaluator parent params now store).1 = .ok () := by
  cases hnarrows with
  | allowlist hvalues =>
      obtain ⟨actualValue, hparam, candidate, hcandidate, hmatch⟩ :=
        evaluateAllowlist_eq_ok.mp hallowed
      exact evaluateAllowlist_eq_ok.mpr
        ⟨actualValue, hparam, candidate, hvalues candidate hcandidate, hmatch⟩
  | numericLimit hmax => exact evaluateNumericLimit_mono hmax hallowed
  | temporalScope => exact hvalue.elim
  | cumulativeLimit => exact hvalue.elim

/-- Value attenuation is sound: under an action the child keeps, a request that
all child scopes allow is allowed by all parent scopes, and there are some. -/
theorem validateAttenuation_sound (F : NumberFormat) (versions : Option SpecVersions)
    (parent child : List Capability) (hparent : ∀ p ∈ parent, IsValueScope p.scope)
    (hchild : ∀ c ∈ child, IsValueScope c.scope)
    (haccepted : validateAttenuation F versions parent child = .ok ()) (action : String)
    (params : Params) (now : Int) (store : σ) (hscopes : scopesOf child action ≠ [])
    (hallowed : (evaluateAll evaluator (scopesOf child action) params now store).1 = .ok ()) :
    scopesOf parent action ≠ [] ∧
      (evaluateAll evaluator (scopesOf parent action) params now store).1 = .ok () := by
  have hatten := (validateAttenuation_eq_ok F).mp haccepted
  have hstateless : ∀ {capabilities : List Capability},
      (∀ c ∈ capabilities, IsValueScope c.scope) →
        ∀ s ∈ scopesOf capabilities action, Stateless s := by
    intro capabilities hvalue s hs
    obtain ⟨c, hc, -, rfl⟩ := mem_scopesOf.mp hs
    exact stateless_of_isValueScope (hvalue c hc)
  obtain ⟨s, hs⟩ := List.exists_mem_of_ne_nil _ hscopes
  obtain ⟨c, hc, hca, rfl⟩ := mem_scopesOf.mp hs
  constructor
  · obtain ⟨p, hp, hdim⟩ := hatten.covered c hc
    have hpa : p.action = action := (congrArg Prod.fst hdim).trans hca
    exact List.ne_nil_of_mem (mem_scopesOf.mpr ⟨p, hp, hpa, rfl⟩)
  · rw [evaluateAll_eq_ok evaluator (hstateless hparent)]
    rw [evaluateAll_eq_ok evaluator (hstateless hchild)] at hallowed
    intro s hs
    obtain ⟨p, hp, hpa, rfl⟩ := mem_scopesOf.mp hs
    obtain ⟨c', hc', hdim, hnarrows⟩ := hatten.narrowed p hp ⟨c, hc, hca.trans hpa.symm⟩
    have hc'a : c'.action = action := (congrArg Prod.fst hdim).trans hpa
    exact evaluate_of_narrows evaluator hnarrows (hparent p hp)
      (hallowed c'.scope (mem_scopesOf.mpr ⟨c', hc', hc'a, rfl⟩))

/-! A publisher narrowed from two categories to one suffix entry, and a request
under it. -/

def publishParent : List Capability :=
  [⟨"PUBLISH", .allowlist "category" ["*books", "toys"]⟩,
    ⟨"PUBLISH", .numericLimit "amount" 100 none⟩]

def publishChild : List Capability :=
  [⟨"PUBLISH", .numericLimit "amount" 50 none⟩, ⟨"PUBLISH", .allowlist "category" ["*books"]⟩]

def publishRequest : Params := fun field =>
  if field = "category" then .string "cookbooks"
  else if field = "amount" then .number (.finite 20)
  else .undefined

theorem publish_request_allowed :
    scopesOf publishParent "PUBLISH" ≠ [] ∧
      (evaluateAll (⟨fun _ => none, none⟩ : ScopeEvaluator Unit)
        (scopesOf publishParent "PUBLISH") publishRequest 0 ()).1 = .ok () :=
  validateAttenuation_sound ⟨fun _ => none, none⟩ NumberFormat.decimal none publishParent
    publishChild (by simp [publishParent, IsValueScope]) (by simp [publishChild, IsValueScope])
    (by decide +kernel) "PUBLISH" publishRequest 0 () (by decide +kernel) (by decide +kernel)

end Coivitas.Policy
