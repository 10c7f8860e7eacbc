import Coivitas.Foundation.Outcome
import Coivitas.Types.CanonicalForm

/-! # Attenuation of capabilities

The subset check the issuer and the chain validator share. A capability list is
read as a set of dimensions, one scope for each action and match key. The check
succeeds exactly when the child has the dimensions the parent has under the
actions it keeps, each with a narrower scope.
-/

namespace Coivitas.Identity

open Foundation Coivitas.Types

/-! ## Failure details -/

inductive Side where
  | parent
  | child
  deriving DecidableEq

inductive TemporalReason where
  | notBefore
  | notAfter
  | recurringWindow
  deriving DecidableEq

inductive CumulativeReason where
  | max
  | window
  | meterField
  | currency
  deriving DecidableEq

inductive MismatchPlace where
  | parentCapabilities
  | continuity
  | leaf
  deriving DecidableEq

inductive AttenuationDetail where
  | missingDimension (dimension : String)
  | introducedDimension (dimension : String)
  | temporalSubset (reason : TemporalReason)
  | cumulativeSubset (reason : CumulativeReason)
  | scopeTypeUnknown (scopeType : String)
  | allowlistViolation (field : String)
  | numericLimitViolation (field : String)
  | capabilitiesMismatch (place : MismatchPlace)
  | duplicateDimension (side : Side) (action dimension : String)
  | emptyAllowlist (side : Side) (action field : String)
  deriving DecidableEq

structure AttenuationFailure where
  mixedVersion : Bool
  detail : AttenuationDetail
  deriving DecidableEq

/-! ## Scopes -/

def scopeMatchKey : Scope → String
  | .allowlist field _ => "allowlist:" ++ field
  | .numericLimit field _ _ => "numeric_limit:" ++ field
  | .temporalScope .. => "temporal_scope"
  | .cumulativeLimit meterField _ window _ =>
      "cumulative_limit:" ++ meterField.metric ++ ":" ++ window.text

/-- `Number(text)` on decimal numerals and the empty text; `none` is NaN. -/
def toNumber (text : List Char) : Option Nat :=
  if text.all Char.isDigit then some (text.foldl (fun n c => n * 10 + (c.toNat - 48)) 0) else none

/-- Minutes of an `HH:MM` text; `none` is NaN. -/
def parseHHMM (t : String) : Option Nat :=
  match t.toList.splitOn ':' with
  | [] => some 0
  | [h] => (toNumber h).map (· * 60)
  | h :: m :: _ => do
      let hours ← toNumber h
      let minutes ← toNumber m
      return hours * 60 + minutes

/-- The minutes of `[start, end)`, past midnight when the start is later. A
comparison with NaN is false, so it takes the second branch and ends its loop. -/
def expandToMinuteSet : Option Nat → Option Nat → List Nat
  | some startMin, some endMin =>
      if startMin ≤ endMin then List.range' startMin (endMin - startMin)
      else List.range' startMin (1440 - startMin) ++ List.range endMin
  | some startMin, none => List.range' startMin (1440 - startMin)
  | none, some endMin => List.range endMin
  | none, none => []

def isTimeRangeSubset (childStart childEnd parentStart parentEnd : Option Nat) : Prop :=
  ∀ m ∈ expandToMinuteSet childStart childEnd, m ∈ expandToMinuteSet parentStart parentEnd

instance (cs ce ps pe : Option Nat) : Decidable (isTimeRangeSubset cs ce ps pe) :=
  inferInstanceAs (Decidable (∀ m ∈ expandToMinuteSet cs ce, m ∈ expandToMinuteSet ps pe))

variable (F : NumberFormat)

/-- Equality of the plain JSON texts. -/
def deepEquals (a b : MeterFieldRef) : Prop :=
  Json.stringify F a.toJson = Json.stringify F b.toJson

instance (a b : MeterFieldRef) : Decidable (deepEquals F a b) :=
  inferInstanceAs (Decidable (_ = _))

/-- A child without `daysOfWeek` is open every day. -/
def isDaysSubset : Option (List ℚ) → Option (List ℚ) → Prop
  | none, some _ => False
  | some childDays, some parentDays => ∀ d ∈ childDays, d ∈ parentDays
  | _, none => True

instance : (child parent : Option (List ℚ)) → Decidable (isDaysSubset child parent)
  | none, some _ => instDecidableFalse
  | some childDays, some parentDays =>
      inferInstanceAs (Decidable (∀ d ∈ childDays, d ∈ parentDays))
  | none, none => instDecidableTrue
  | some _, none => instDecidableTrue

/-- The window checks of a child and a parent that both have one. -/
def isWindowSubset (child parent : RecurringWindow) : Except AttenuationDetail Unit := do
  require (child.timezone = parent.timezone) (.temporalSubset .recurringWindow)
  require (isDaysSubset child.daysOfWeek parent.daysOfWeek) (.temporalSubset .recurringWindow)
  require (isTimeRangeSubset (parseHHMM child.startTime) (parseHHMM child.endTime)
    (parseHHMM parent.startTime) (parseHHMM parent.endTime)) (.temporalSubset .recurringWindow)

/-- A parent without a window does not restrict the child's. -/
def isRecurringSubset : Option RecurringWindow → Option RecurringWindow →
    Except AttenuationDetail Unit
  | none, some _ => throw (.temporalSubset .recurringWindow)
  | some child, some parent => isWindowSubset child parent
  | _, none => pure ()

/-- Whether the child scope is a subset of the parent scope. -/
def isScopeSubset : Scope → Scope → Except AttenuationDetail Unit
  | .allowlist field values, .allowlist parentField parentValues => do
      require (field = parentField) (.allowlistViolation field)
      require (∀ v ∈ values, v ∈ parentValues) (.allowlistViolation field)
  | .numericLimit field max _, .numericLimit parentField parentMax _ => do
      require (field = parentField) (.numericLimitViolation field)
      require (¬ parentMax < max) (.numericLimitViolation field)
  | .temporalScope notBefore notAfter window,
      .temporalScope parentNotBefore parentNotAfter parentWindow => do
      require (¬ TextLt notBefore parentNotBefore) (.temporalSubset .notBefore)
      require (¬ TextLt parentNotAfter notAfter) (.temporalSubset .notAfter)
      isRecurringSubset window parentWindow
  | .cumulativeLimit meterField max window currency,
      .cumulativeLimit parentMeterField parentMax parentWindow parentCurrency => do
      require (deepEquals F meterField parentMeterField) (.cumulativeSubset .meterField)
      require (¬ parentMax < max) (.cumulativeSubset .max)
      require (window = parentWindow) (.cumulativeSubset .window)
      require (currency = parentCurrency) (.cumulativeSubset .currency)
  | child, _ => throw (.scopeTypeUnknown child.type)

/-- What a successful subset check says of the two scopes. -/
inductive ScopeNarrows : Scope → Scope → Prop
  | allowlist {field : String} {values parentValues : List String}
      (hvalues : ∀ v ∈ values, v ∈ parentValues) :
      ScopeNarrows (.allowlist field values) (.allowlist field parentValues)
  | numericLimit {field : String} {max parentMax : ℚ} {currency parentCurrency : Option String}
      (hmax : max ≤ parentMax) :
      ScopeNarrows (.numericLimit field max currency) (.numericLimit field parentMax parentCurrency)
  | temporalScope {notBefore notAfter parentNotBefore parentNotAfter : String}
      {window parentWindow : Option RecurringWindow} (hbefore : TextLe parentNotBefore notBefore)
      (hafter : TextLe notAfter parentNotAfter)
      (hwindow : isRecurringSubset window parentWindow = .ok ()) :
      ScopeNarrows (.temporalScope notBefore notAfter window)
        (.temporalScope parentNotBefore parentNotAfter parentWindow)
  | cumulativeLimit {meterField parentMeterField : MeterFieldRef} {max parentMax : ℚ}
      {window : Window} {currency : Option String}
      (hmeter : deepEquals F meterField parentMeterField) (hmax : max ≤ parentMax) :
      ScopeNarrows (.cumulativeLimit meterField max window currency)
        (.cumulativeLimit parentMeterField parentMax window currency)

theorem isScopeSubset_eq_ok {child parent : Scope} :
    isScopeSubset F child parent = .ok () ↔ ScopeNarrows F child parent := by
  constructor
  · intro h
    unfold isScopeSubset at h
    split at h <;>
      simp only [bind_eq_ok, exists_unit, require_eq_ok, throw_ne_ok, not_lt,
        ← textLe_iff_not_lt] at h
    · obtain ⟨rfl, hvalues⟩ := h
      exact .allowlist hvalues
    · obtain ⟨rfl, hmax⟩ := h
      exact .numericLimit hmax
    · exact .temporalScope h.1 h.2.1 h.2.2
    · obtain ⟨hmeter, hmax, rfl, rfl⟩ := h
      exact .cumulativeLimit hmeter hmax
  · intro h
    cases h <;>
      simp only [isScopeSubset, bind_eq_ok, exists_unit, require_eq_ok, not_lt,
        ← textLe_iff_not_lt]
    case allowlist hvalues => exact ⟨trivial, hvalues⟩
    case numericLimit hmax => exact ⟨trivial, hmax⟩
    case temporalScope hbefore hafter hwindow => exact ⟨hbefore, hafter, hwindow⟩
    case cumulativeLimit hmeter hmax => exact ⟨hmeter, hmax, trivial, trivial⟩

theorem isWindowSubset_eq_ok {child parent : RecurringWindow} :
    isWindowSubset child parent = .ok () ↔ child.timezone = parent.timezone ∧
      isDaysSubset child.daysOfWeek parent.daysOfWeek ∧
      isTimeRangeSubset (parseHHMM child.startTime) (parseHHMM child.endTime)
        (parseHHMM parent.startTime) (parseHHMM parent.endTime) := by
  simp only [isWindowSubset, bind_eq_ok, exists_unit, require_eq_ok]

/-! ## Capability lists -/

def isPhase2ScopeType (type : String) : Bool :=
  type = "temporal_scope" ∨ type = "cumulative_limit"

structure SpecVersions where
  parentSpecVersion : String
  childSpecVersion : String

def emptyAllowlistDetail (side : Side) (capabilities : List Capability) :
    Option AttenuationDetail :=
  capabilities.findSome? fun cap =>
    match cap.scope with
    | .allowlist field values =>
        if values.length = 0 then some (.emptyAllowlist side cap.action field) else none
    | _ => none

/-- The loop over the capabilities, with the match keys seen under each action. -/
def duplicateDimensionFrom (side : Side) :
    List Capability → OrderedMap String (List String) → Option AttenuationDetail
  | [], _ => none
  | cap :: rest, seenByAction =>
      let key := scopeMatchKey cap.scope
      match seenByAction.get? cap.action with
      | none => duplicateDimensionFrom side rest (seenByAction.set cap.action [key])
      | some seen =>
          if key ∈ seen then some (.duplicateDimension side cap.action key)
          else duplicateDimensionFrom side rest (seenByAction.set cap.action (seen ++ [key]))

def duplicateDimensionDetail (side : Side) (capabilities : List Capability) :
    Option AttenuationDetail :=
  duplicateDimensionFrom side capabilities OrderedMap.empty

/-- A dimension of a 0.2.0 scope type that only one of the two versions knows. -/
def isMixed (versions : Option SpecVersions) (parentVersion childVersion type : String) : Bool :=
  match versions with
  | none => false
  | some v =>
      v.parentSpecVersion = parentVersion ∧ v.childSpecVersion = childVersion ∧
        isPhase2ScopeType type = true

/-- Rules 2a and 2b for one dimension of the parent. -/
def validateDimension (versions : Option SpecVersions) (childDimMap : OrderedMap String Scope)
    (key : String) (parentScope : Scope) : Except AttenuationFailure Unit :=
  match childDimMap.get? key with
  | none => throw ⟨isMixed versions "0.2.0" "0.1.0" parentScope.type, .missingDimension key⟩
  | some childScope => (isScopeSubset F childScope parentScope).mapError (⟨false, ·⟩)

/-- Rules 2a to 2c for the scopes of one action. -/
def validateDimensions (versions : Option SpecVersions)
    (parentDimMap childDimMap : OrderedMap String Scope) : Except AttenuationFailure Unit := do
  forEach parentDimMap.entries fun entry =>
    validateDimension F versions childDimMap entry.1 entry.2
  forEach childDimMap.entries fun entry =>
    require (parentDimMap.has entry.1 = true)
      ⟨isMixed versions "0.1.0" "0.2.0" entry.2.type, .introducedDimension entry.1⟩

def validateAction (versions : Option SpecVersions)
    (parentActionMap : OrderedMap String (List Scope)) (action : String)
    (childScopes : List Scope) : Except AttenuationFailure Unit :=
  match parentActionMap.get? action with
  | none => pure ()
  | some parentScopes =>
      validateDimensions F versions (OrderedMap.ofList scopeMatchKey parentScopes)
        (OrderedMap.ofList scopeMatchKey childScopes)

/-- Whether the child capabilities attenuate those of the parent. The overload
without versions only reports whether the check succeeds. -/
def validateAttenuation (versions : Option SpecVersions)
    (parentCapabilities childCapabilities : List Capability) : Except AttenuationFailure Unit := do
  refuse (emptyAllowlistDetail .parent parentCapabilities) (⟨false, ·⟩)
  refuse (emptyAllowlistDetail .child childCapabilities) (⟨false, ·⟩)
  refuse (duplicateDimensionDetail .parent parentCapabilities) (⟨false, ·⟩)
  refuse (duplicateDimensionDetail .child childCapabilities) (⟨false, ·⟩)
  let parentActionMap :=
    OrderedMap.groupBy Capability.action Capability.scope parentCapabilities
  forEach childCapabilities fun child =>
    require (parentActionMap.has child.action = true) ⟨false, .missingDimension child.action⟩
  let childActionMap := OrderedMap.groupBy Capability.action Capability.scope childCapabilities
  forEach childActionMap.entries fun entry =>
    validateAction F versions parentActionMap entry.1 entry.2

/-! ## What the check decides -/

def Capability.NonemptyAllowlist (cap : Capability) : Prop :=
  ∀ field, cap.scope ≠ .allowlist field []

/-- The action and the match key of a capability. -/
def dimension (cap : Capability) : String × String := (cap.action, scopeMatchKey cap.scope)

theorem emptyAllowlistDetail_eq_none {side : Side} {capabilities : List Capability} :
    emptyAllowlistDetail side capabilities = none ↔
      ∀ cap ∈ capabilities, Capability.NonemptyAllowlist cap := by
  unfold emptyAllowlistDetail Capability.NonemptyAllowlist
  rw [List.findSome?_eq_none_iff]
  refine forall₂_congr fun cap _ => ?_
  obtain ⟨action, scope⟩ := cap
  cases scope <;> simp

theorem duplicateDimensionFrom_eq_none {side : Side} (capabilities : List Capability)
    (seenByAction : OrderedMap String (List String)) :
    duplicateDimensionFrom side capabilities seenByAction = none ↔
      (capabilities.map dimension).Nodup ∧
        ∀ cap ∈ capabilities,
          scopeMatchKey cap.scope ∉ (seenByAction.get? cap.action).getD [] := by
  induction capabilities generalizing seenByAction with
  | nil => simp [duplicateDimensionFrom]
  | cons cap rest ih =>
      -- Either branch records the key under the action and goes on.
      have hstep : ∀ seen : List String, (seenByAction.get? cap.action).getD [] = seen →
          scopeMatchKey cap.scope ∉ seen →
          (duplicateDimensionFrom side rest
              (seenByAction.set cap.action (seen ++ [scopeMatchKey cap.scope])) = none ↔
            ((cap :: rest).map dimension).Nodup ∧ ∀ c ∈ cap :: rest,
              scopeMatchKey c.scope ∉ (seenByAction.get? c.action).getD []) := by
        intro seen hseen hfresh
        rw [ih, List.map_cons, List.nodup_cons, List.forall_mem_cons, hseen]
        have hhead : (∀ c ∈ rest, scopeMatchKey c.scope ∉
            ((seenByAction.set cap.action (seen ++ [scopeMatchKey cap.scope])).get?
              c.action).getD []) ↔ dimension cap ∉ rest.map dimension ∧
              ∀ c ∈ rest, scopeMatchKey c.scope ∉ (seenByAction.get? c.action).getD [] := by
          rw [List.mem_map, not_exists, ← forall_and]
          refine forall_congr' fun c => ?_
          rw [OrderedMap.get?_set]
          by_cases haction : cap.action = c.action
          · rw [if_pos haction, ← haction, hseen]
            simp only [dimension, Prod.mk.injEq, haction, true_and, Option.getD_some,
              List.mem_append, List.mem_singleton, not_or, not_and]
            tauto
          · have hne : dimension c ≠ dimension cap := fun h => haction (congrArg Prod.fst h).symm
            rw [if_neg haction]
            tauto
        rw [hhead]
        tauto
      simp only [duplicateDimensionFrom]
      split
      next hnone => exact hstep [] (by rw [hnone]; rfl) List.not_mem_nil
      next seen hsome =>
        have hseen : (seenByAction.get? cap.action).getD [] = seen := by rw [hsome]; rfl
        split
        next hmem =>
          simp only [reduceCtorEq, false_iff, not_and]
          intro _ hall
          exact hall cap List.mem_cons_self (hseen ▸ hmem)
        next hfresh => exact hstep seen hseen hfresh

theorem duplicateDimensionDetail_eq_none {side : Side} {capabilities : List Capability} :
    duplicateDimensionDetail side capabilities = none ↔
      (capabilities.map dimension).Nodup := by
  simp [duplicateDimensionDetail, duplicateDimensionFrom_eq_none]

/-- The child keeps the dimensions of the actions it keeps and narrows each. -/
structure Attenuates (parent child : List Capability) : Prop where
  parentNonempty : ∀ p ∈ parent, Capability.NonemptyAllowlist p
  childNonempty : ∀ c ∈ child, Capability.NonemptyAllowlist c
  parentDistinct : (parent.map dimension).Nodup
  childDistinct : (child.map dimension).Nodup
  covered : ∀ c ∈ child, ∃ p ∈ parent, dimension p = dimension c
  narrowed : ∀ p ∈ parent, (∃ c ∈ child, c.action = p.action) →
    ∃ c ∈ child, dimension c = dimension p ∧ ScopeNarrows F c.scope p.scope

theorem has_ofList {scopes : List Scope} (hnodup : (scopes.map scopeMatchKey).Nodup)
    (key : String) : (OrderedMap.ofList scopeMatchKey scopes).has key = true ↔
      ∃ s ∈ scopes, scopeMatchKey s = key := by
  simp only [OrderedMap.has, Option.isSome_iff_exists, OrderedMap.get?_ofList _ hnodup]

theorem validateDimensions_eq_ok {versions : Option SpecVersions} {parent child : List Scope}
    (hparent : (parent.map scopeMatchKey).Nodup) (hchild : (child.map scopeMatchKey).Nodup) :
    validateDimensions F versions (OrderedMap.ofList scopeMatchKey parent)
        (OrderedMap.ofList scopeMatchKey child) = .ok () ↔
      (∀ p ∈ parent, ∃ c ∈ child, scopeMatchKey c = scopeMatchKey p ∧
        ScopeNarrows F c p) ∧
      ∀ c ∈ child, ∃ p ∈ parent, scopeMatchKey p = scopeMatchKey c := by
  simp only [validateDimensions, bind_eq_ok, exists_unit, forEach_eq_ok, require_eq_ok,
    has_ofList hparent]
  rw [OrderedMap.forall_entries_ofList _ hparent
      (Q := fun key p => validateDimension F versions _ key p = .ok ()),
    OrderedMap.forall_entries_ofList _ hchild
      (Q := fun key _ => ∃ s ∈ parent, scopeMatchKey s = key)]
  refine and_congr (forall₂_congr fun p _ => ?_) Iff.rfl
  unfold validateDimension
  split
  next hnone =>
    simp only [throw_ne_ok, false_iff]
    rintro ⟨c, hc, hkey, -⟩
    have hsome := (OrderedMap.get?_ofList _ hchild _ _).mpr ⟨hc, hkey⟩
    rw [hnone] at hsome
    cases hsome
  next c hsome =>
    obtain ⟨hc, hkey⟩ := (OrderedMap.get?_ofList _ hchild _ _).mp hsome
    rw [mapError_eq_ok, isScopeSubset_eq_ok]
    constructor
    · intro hsubset
      exact ⟨c, hc, hkey, hsubset⟩
    · rintro ⟨c', hc', hkey', hsubset⟩
      obtain rfl : c' = c :=
        List.inj_on_of_nodup_map hchild hc' hc (hkey'.trans hkey.symm)
      exact hsubset

/-- The scopes a capability list has under an action. -/
def scopesOf (capabilities : List Capability) (action : String) : List Scope :=
  (capabilities.filter fun c => c.action = action).map Capability.scope

theorem mem_scopesOf {capabilities : List Capability} {action : String} {s : Scope} :
    s ∈ scopesOf capabilities action ↔ ∃ c ∈ capabilities, c.action = action ∧ c.scope = s := by
  simp [scopesOf, and_assoc]

/-- The scopes of one action keep their match keys apart. -/
theorem scopesOf_nodup {capabilities : List Capability}
    (hdistinct : (capabilities.map dimension).Nodup) (action : String) :
    ((scopesOf capabilities action).map scopeMatchKey).Nodup := by
  have hsub : ((capabilities.filter fun c => c.action = action).map dimension).Nodup :=
    hdistinct.sublist (List.filter_sublist.map dimension)
  have heq : (capabilities.filter fun c => c.action = action).map dimension =
      ((scopesOf capabilities action).map scopeMatchKey).map fun key => (action, key) := by
    rw [scopesOf, List.map_map, List.map_map]
    refine List.map_congr_left fun c hc => ?_
    simp only [List.mem_filter, decide_eq_true_eq] at hc
    simp [dimension, hc.2]
  rw [heq] at hsub
  exact hsub.of_map _

theorem validateAction_eq_ok {versions : Option SpecVersions} {parent child : List Capability}
    (hparent : (parent.map dimension).Nodup) (hchild : (child.map dimension).Nodup)
    {action : String} (haction : ∃ p ∈ parent, p.action = action) :
    validateAction F versions (OrderedMap.groupBy Capability.action Capability.scope parent)
        action (scopesOf child action) = .ok () ↔
      (∀ p ∈ parent, p.action = action → ∃ c ∈ child, dimension c = dimension p ∧
        ScopeNarrows F c.scope p.scope) ∧
      ∀ c ∈ child, c.action = action → ∃ p ∈ parent, dimension p = dimension c := by
  have hget := (OrderedMap.get?_groupBy_eq_some Capability.action Capability.scope parent action
    (scopesOf parent action)).mpr ⟨haction, rfl⟩
  simp only [validateAction, hget]
  rw [validateDimensions_eq_ok F (scopesOf_nodup hparent action) (scopesOf_nodup hchild action)]
  have hmatch : ∀ a b : Capability, a.action = action →
      (dimension b = dimension a ↔
        b.action = action ∧ scopeMatchKey b.scope = scopeMatchKey a.scope) := by
    intro a b ha
    simp [dimension, ha]
  constructor
  · rintro ⟨hnarrowed, hcovered⟩
    constructor
    · intro p hp hpa
      obtain ⟨s, hs, hkey, hsubset⟩ := hnarrowed p.scope (mem_scopesOf.mpr ⟨p, hp, hpa, rfl⟩)
      obtain ⟨c, hc, hca, rfl⟩ := mem_scopesOf.mp hs
      exact ⟨c, hc, (hmatch p c hpa).mpr ⟨hca, hkey⟩, hsubset⟩
    · intro c hc hca
      obtain ⟨s, hs, hkey⟩ := hcovered c.scope (mem_scopesOf.mpr ⟨c, hc, hca, rfl⟩)
      obtain ⟨p, hp, hpa, rfl⟩ := mem_scopesOf.mp hs
      exact ⟨p, hp, (hmatch c p hca).mpr ⟨hpa, hkey⟩⟩
  · rintro ⟨hnarrowed, hcovered⟩
    constructor
    · intro s hs
      obtain ⟨p, hp, hpa, rfl⟩ := mem_scopesOf.mp hs
      obtain ⟨c, hc, hdim, hsubset⟩ := hnarrowed p hp hpa
      obtain ⟨hca, hkey⟩ := (hmatch p c hpa).mp hdim
      exact ⟨c.scope, mem_scopesOf.mpr ⟨c, hc, hca, rfl⟩, hkey, hsubset⟩
    · intro s hs
      obtain ⟨c, hc, hca, rfl⟩ := mem_scopesOf.mp hs
      obtain ⟨p, hp, hdim⟩ := hcovered c hc hca
      obtain ⟨hpa, hkey⟩ := (hmatch c p hca).mp hdim
      exact ⟨p.scope, mem_scopesOf.mpr ⟨p, hp, hpa, rfl⟩, hkey⟩

/-- The check succeeds exactly when the child attenuates the parent. -/
theorem validateAttenuation_eq_ok {versions : Option SpecVersions}
    {parent child : List Capability} :
    validateAttenuation F versions parent child = .ok () ↔ Attenuates F parent child := by
  simp only [validateAttenuation, bind_eq_ok, exists_unit, refuse_eq_ok, forEach_eq_ok,
    require_eq_ok, emptyAllowlistDetail_eq_none, duplicateDimensionDetail_eq_none,
    OrderedMap.has, OrderedMap.get?_groupBy_isSome]
  rw [OrderedMap.forall_entries_groupBy (Q := fun action scopes =>
    validateAction F versions _ action scopes = .ok ())]
  constructor
  · rintro ⟨hpe, hce, hpd, hcd, hactions, hdims⟩
    have hrules := fun c hc => (validateAction_eq_ok F hpd hcd (hactions c hc)).mp (hdims c hc)
    refine ⟨hpe, hce, hpd, hcd, ?_, ?_⟩
    · intro c hc
      exact (hrules c hc).2 c hc rfl
    · rintro p hp ⟨c, hc, haction⟩
      exact (hrules c hc).1 p hp haction.symm
  · rintro ⟨hpe, hce, hpd, hcd, hcovered, hnarrowed⟩
    have hactions : ∀ c ∈ child, ∃ p ∈ parent, p.action = c.action := by
      intro c hc
      obtain ⟨p, hp, hdim⟩ := hcovered c hc
      exact ⟨p, hp, congrArg Prod.fst hdim⟩
    refine ⟨hpe, hce, hpd, hcd, hactions, ?_⟩
    intro c hc
    refine (validateAction_eq_ok F hpd hcd (hactions c hc)).mpr ⟨?_, ?_⟩
    · intro p hp hpa
      exact hnarrowed p hp ⟨c, hc, hpa.symm⟩
    · intro c' hc' _
      exact hcovered c' hc'

end Coivitas.Identity
