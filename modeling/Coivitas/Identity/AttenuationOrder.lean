import Coivitas.Identity.Attenuation

/-! # Attenuation is an order up to representation

Narrowing composes through every kind of scope, so attenuation composes along a
chain. It depends neither on the order of the capabilities nor, once meter
fields list their keys in one order, on the order of object keys.
-/

namespace Coivitas.Identity

open Foundation Coivitas.Types

variable {F : NumberFormat}

/-! ## Scopes -/

theorem isDaysSubset_trans {child middle parent : Option (List ℚ)}
    (hcm : isDaysSubset child middle) (hmp : isDaysSubset middle parent) :
    isDaysSubset child parent := by
  cases parent with
  | none => cases child <;> trivial
  | some parentDays =>
      cases middle with
      | none => exact hmp.elim
      | some middleDays =>
          cases child with
          | none => exact hcm.elim
          | some childDays => exact fun d hd => hmp d (hcm d hd)

theorem isRecurringSubset_trans {child middle parent : Option RecurringWindow}
    (hcm : isRecurringSubset child middle = .ok ())
    (hmp : isRecurringSubset middle parent = .ok ()) :
    isRecurringSubset child parent = .ok () := by
  cases parent with
  | none => cases child <;> rfl
  | some parent =>
      cases middle with
      | none => cases hmp
      | some middle =>
          cases child with
          | none => cases hcm
          | some child =>
              obtain ⟨hzone, hdays, hrange⟩ := isWindowSubset_eq_ok.mp hcm
              obtain ⟨hzone', hdays', hrange'⟩ := isWindowSubset_eq_ok.mp hmp
              exact isWindowSubset_eq_ok.mpr ⟨hzone.trans hzone',
                isDaysSubset_trans hdays hdays', fun m hm => hrange' m (hrange m hm)⟩

theorem ScopeNarrows.trans {child middle parent : Scope} (hcm : ScopeNarrows F child middle)
    (hmp : ScopeNarrows F middle parent) : ScopeNarrows F child parent := by
  cases hcm with
  | allowlist hvalues =>
      cases hmp with
      | allowlist hvalues' => exact .allowlist fun v hv => hvalues' v (hvalues v hv)
  | numericLimit hmax =>
      cases hmp with
      | numericLimit hmax' => exact .numericLimit (le_trans hmax hmax')
  | temporalScope hbefore hafter hwindow =>
      cases hmp with
      | temporalScope hbefore' hafter' hwindow' =>
          exact .temporalScope (hbefore'.trans hbefore) (hafter.trans hafter')
            (isRecurringSubset_trans hwindow hwindow')
  | cumulativeLimit hmeter hmax =>
      cases hmp with
      | cumulativeLimit hmeter' hmax' =>
          exact .cumulativeLimit (Eq.trans hmeter hmeter') (le_trans hmax hmax')

@[simp] theorem scopeMatchKey_sortKeys (s : Scope) : scopeMatchKey s.sortKeys = scopeMatchKey s := by
  cases s <;> rfl

theorem ScopeNarrows.sortKeys {child parent : Scope} (h : ScopeNarrows F child parent) :
    ScopeNarrows F child.sortKeys parent.sortKeys := by
  cases h with
  | allowlist hvalues => exact .allowlist hvalues
  | numericLimit hmax => exact .numericLimit hmax
  | temporalScope hbefore hafter hwindow => exact .temporalScope hbefore hafter hwindow
  | cumulativeLimit hmeter hmax =>
      refine .cumulativeLimit ?_ hmax
      have hjson := Json.stringify_injective F hmeter
      rw [deepEquals, MeterFieldRef.sortKeys_eq_of_json (congrArg Json.sortKeys hjson)]

/-! ## Capability lists -/

namespace Attenuates

variable {parent middle child parent' child' : List Capability}

theorem trans (hpm : Attenuates F parent middle) (hmc : Attenuates F middle child) :
    Attenuates F parent child where
  parentNonempty := hpm.parentNonempty
  childNonempty := hmc.childNonempty
  parentDistinct := hpm.parentDistinct
  childDistinct := hmc.childDistinct
  covered := by
    intro c hc
    obtain ⟨m, hm, hmc'⟩ := hmc.covered c hc
    obtain ⟨p, hp, hpm'⟩ := hpm.covered m hm
    exact ⟨p, hp, hpm'.trans hmc'⟩
  narrowed := by
    rintro p hp ⟨c, hc, haction⟩
    -- The action of `c` is kept by the middle list too, so both narrow `p` in turn.
    obtain ⟨m, hm, hdim⟩ := hmc.covered c hc
    obtain ⟨m', hm', hmp, hsubset⟩ :=
      hpm.narrowed p hp ⟨m, hm, (congrArg Prod.fst hdim).trans haction⟩
    have hm'p : m'.action = p.action := congrArg Prod.fst hmp
    obtain ⟨c', hc', hcm, hsubset'⟩ := hmc.narrowed m' hm' ⟨c, hc, haction.trans hm'p.symm⟩
    exact ⟨c', hc', hcm.trans hmp, hsubset'.trans hsubset⟩

theorem perm (h : Attenuates F parent child) (hparent : parent.Perm parent')
    (hchild : child.Perm child') : Attenuates F parent' child' where
  parentNonempty p hp := h.parentNonempty p (hparent.mem_iff.mpr hp)
  childNonempty c hc := h.childNonempty c (hchild.mem_iff.mpr hc)
  parentDistinct := ((hparent.map dimension).nodup_iff).mp h.parentDistinct
  childDistinct := ((hchild.map dimension).nodup_iff).mp h.childDistinct
  covered := by
    intro c hc
    obtain ⟨p, hp, hdim⟩ := h.covered c (hchild.mem_iff.mpr hc)
    exact ⟨p, hparent.mem_iff.mp hp, hdim⟩
  narrowed := by
    rintro p hp ⟨c, hc, haction⟩
    obtain ⟨c', hc', hnarrow⟩ :=
      h.narrowed p (hparent.mem_iff.mpr hp) ⟨c, hchild.mem_iff.mpr hc, haction⟩
    exact ⟨c', hchild.mem_iff.mp hc', hnarrow⟩

@[simp] theorem dimension_sortKeys (c : Capability) : dimension c.sortKeys = dimension c := by
  simp [dimension, Capability.sortKeys]

theorem nonemptyAllowlist_sortKeys {c : Capability} (h : Capability.NonemptyAllowlist c) :
    Capability.NonemptyAllowlist c.sortKeys := by
  intro field hscope
  obtain ⟨action, scope⟩ := c
  cases scope <;> simp [Capability.sortKeys, Scope.sortKeys] at hscope
  exact h field (by rw [hscope.1, hscope.2])

theorem sortKeys (h : Attenuates F parent child) :
    Attenuates F (parent.map Capability.sortKeys) (child.map Capability.sortKeys) where
  parentNonempty := by
    simpa using fun p hp => nonemptyAllowlist_sortKeys (h.parentNonempty p hp)
  childNonempty := by
    simpa using fun c hc => nonemptyAllowlist_sortKeys (h.childNonempty c hc)
  parentDistinct := by
    simpa [List.map_map, Function.comp_def] using h.parentDistinct
  childDistinct := by
    simpa [List.map_map, Function.comp_def] using h.childDistinct
  covered := by
    simpa using h.covered
  narrowed := by
    rw [List.forall_mem_map]
    rintro p hp ⟨_, hmem, haction⟩
    obtain ⟨c, hc, rfl⟩ := List.mem_map.mp hmem
    obtain ⟨c', hc', hdim, hsubset⟩ := h.narrowed p hp ⟨c, hc, haction⟩
    refine ⟨c'.sortKeys, List.mem_map_of_mem hc', ?_, hsubset.sortKeys⟩
    rw [dimension_sortKeys, dimension_sortKeys, hdim]

end Attenuates

end Coivitas.Identity
