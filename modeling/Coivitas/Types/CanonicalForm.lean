import Coivitas.Types.Authorization

/-! # Capabilities up to the order of object keys

The canonical text of a capability determines everything but the order in which
a meter field enumerates its keys. `Capability.sortKeys` fixes that order, so two
capabilities have one canonical text exactly when their sorted forms are equal.
-/

namespace Coivitas.Types

open Foundation OrderedMap Json

/-- The same meter field with its keys in code unit order. -/
def MeterFieldRef.sortKeys (m : MeterFieldRef) : MeterFieldRef :=
  { m with keyOrder := MeterKey.all, keyOrder_perm := List.Perm.refl _ }

def Scope.sortKeys : Scope → Scope
  | .cumulativeLimit meterField max window currency =>
      .cumulativeLimit meterField.sortKeys max window currency
  | scope => scope

def Capability.sortKeys (c : Capability) : Capability := { c with scope := c.scope.sortKeys }

theorem MeterKey.all_nodup : MeterKey.all.Nodup := by decide

theorem MeterFieldRefSource.text_injective : Function.Injective MeterFieldRefSource.text := by
  intro a b
  cases a <;> cases b <;> simp [text]

theorem Window.text_injective : Function.Injective Window.text := by
  intro a b
  cases a <;> cases b <;> simp [text]

def MeterKey.text : MeterKey → String
  | .source => "source"
  | .metric => "metric"
  | .unit => "unit"
  | .precision => "precision"

theorem MeterKey.text_injective : Function.Injective MeterKey.text := by
  intro a b
  cases a <;> cases b <;> simp [text]

theorem MeterFieldRef.member_name {m : MeterFieldRef} {key : MeterKey} {member : String × Json}
    (h : m.member key = some member) : member.1 = key.text := by
  cases key with
  | source => cases h; rfl
  | metric => cases h; rfl
  | unit =>
      obtain ⟨_, _, rfl⟩ := Option.map_eq_some_iff.mp h
      rfl
  | precision =>
      obtain ⟨_, _, rfl⟩ := Option.map_eq_some_iff.mp h
      rfl

theorem MeterFieldRef.names_nodup (m : MeterFieldRef) :
    ((m.keyOrder.filterMap m.member).map Prod.fst).Nodup := by
  have hkeys : m.keyOrder.Nodup := m.keyOrder_perm.nodup_iff.mpr MeterKey.all_nodup
  generalize m.keyOrder = order at hkeys ⊢
  induction order with
  | nil => exact List.nodup_nil
  | cons key keys ih =>
      obtain ⟨hkey, hkeys⟩ := List.nodup_cons.mp hkeys
      cases hmember : m.member key with
      | none =>
          rw [List.filterMap_cons_none hmember]
          exact ih hkeys
      | some member =>
          rw [List.filterMap_cons_some hmember, List.map_cons, List.nodup_cons]
          refine ⟨?_, ih hkeys⟩
          intro hmem
          obtain ⟨other, hother, hname⟩ := List.mem_map.mp hmem
          obtain ⟨key', hkey', hmember'⟩ := List.mem_filterMap.mp hother
          rw [member_name hmember, member_name hmember'] at hname
          exact hkey (MeterKey.text_injective hname ▸ hkey')

/-- A member is found under its name wherever it stands. -/
theorem MeterFieldRef.lookup_member (m : MeterFieldRef) (key : MeterKey) :
    lookupList key.text (m.keyOrder.filterMap m.member) = (m.member key).map Prod.snd := by
  apply Option.ext
  intro value
  rw [← mem_iff_lookupList m.names_nodup, List.mem_filterMap, Option.map_eq_some_iff]
  constructor
  · rintro ⟨key', -, hmember⟩
    obtain rfl : key = key' := MeterKey.text_injective (member_name hmember)
    exact ⟨_, hmember, rfl⟩
  · rintro ⟨⟨name, value'⟩, hmember, rfl⟩
    have hname : name = key.text := member_name hmember
    refine ⟨key, m.keyOrder_perm.mem_iff.mpr ?_, hname ▸ hmember⟩
    cases key <;> decide

theorem MeterFieldRef.sortKeys_eq_of_json {m m' : MeterFieldRef}
    (h : Json.sortKeys m.toJson = Json.sortKeys m'.toJson) : m.sortKeys = m'.sortKeys := by
  have hlookup := fun key : MeterKey =>
    lookup_of_sortKeys_eq m.names_nodup m'.names_nodup h key.text
  simp only [lookup_member] at hlookup
  have hsource : m.source = m'.source := by
    have hkey := hlookup .source
    simp only [member, Option.map_some, Json.sortKeys, Option.some.injEq, Json.str.injEq] at hkey
    exact MeterFieldRefSource.text_injective hkey
  have hmetric : m.metric = m'.metric := by
    simpa [member, Json.sortKeys] using hlookup .metric
  have hunit : m.unit = m'.unit := by
    have hkey := hlookup .unit
    simp only [member, Option.map_map] at hkey
    exact Option.map_injective (fun _ _ h => Json.str.inj h) hkey
  have hprecision : m.precision = m'.precision := by
    have hkey := hlookup .precision
    simp only [member, Option.map_map] at hkey
    exact Option.map_injective (fun _ _ h => Json.num.inj h) hkey
  simp only [sortKeys, hsource, hmetric, hunit, hprecision]

theorem lookupList_optionalMember {name : String} {members : List (String × Json)}
    (hname : name ∉ members.map Prod.fst) (value : Option Json) :
    lookupList name (members ++ optionalMember name value) = value := by
  induction members with
  | nil => cases value <;> simp [optionalMember, lookupList]
  | cons member members ih =>
      obtain ⟨hne, hrest⟩ := not_or.mp (mt List.mem_cons.mpr hname)
      rw [List.cons_append, lookupList, if_neg (fun h => hne h.symm), ih hrest]

theorem map_sortKeys_inj {α : Type} {f : α → Json} (hf : Function.Injective f)
    (hsort : ∀ a, Json.sortKeys (f a) = f a) {a a' : Option α}
    (h : (a.map f).map Json.sortKeys = (a'.map f).map Json.sortKeys) : a = a' := by
  have hid : Json.sortKeys ∘ f = f := funext hsort
  rw [Option.map_map, Option.map_map, hid] at h
  exact Option.map_injective hf h

theorem str_injective : Function.Injective Json.str := fun _ _ h => Json.str.inj h

theorem num_injective : Function.Injective Json.num := fun _ _ h => Json.num.inj h

theorem RecurringWindow.names_nodup (w : RecurringWindow) :
    (([("startTime", .str w.startTime), ("endTime", .str w.endTime)] ++
      optionalMember "daysOfWeek" (w.daysOfWeek.map fun days => .arr (days.map .num)) ++
      [("timezone", .str w.timezone)] : List (String × Json)).map Prod.fst).Nodup := by
  cases w.daysOfWeek <;> simp [optionalMember]

theorem sortKeys_arr_map {α : Type} {f : α → Json} (hf : ∀ a, Json.sortKeys (f a) = f a)
    (l : List α) : Json.sortKeys (.arr (l.map f)) = .arr (l.map f) := by
  rw [Json.sortKeys, sortKeysItems_eq, List.map_map]
  congr 1
  exact List.map_congr_left fun a _ => hf a

theorem RecurringWindow.toJson_inj {w w' : RecurringWindow}
    (h : Json.sortKeys w.toJson = Json.sortKeys w'.toJson) : w = w' := by
  have hlookup := lookup_of_sortKeys_eq w.names_nodup w'.names_nodup h
  obtain ⟨start, stop, days, zone⟩ := w
  obtain ⟨start', stop', days', zone'⟩ := w'
  have hstart : start = start' := by
    simpa [lookupList, Json.sortKeys] using hlookup "startTime"
  have hstop : stop = stop' := by
    simpa [lookupList, Json.sortKeys] using hlookup "endTime"
  have hzone : zone = zone' := by
    have hkey := hlookup "timezone"
    cases days <;> cases days' <;>
      simpa only [lookupList, optionalMember, Option.map_none, Option.map_some, Option.toList_none,
        Option.toList_some, List.cons_append, List.nil_append, String.reduceEq, if_false, if_true,
        Json.sortKeys, Option.some.injEq, Json.str.injEq] using hkey
  have hdays : days = days' := by
    have hkey := hlookup "daysOfWeek"
    have harr := sortKeys_arr_map (f := Json.num) fun _ => rfl
    cases days <;> cases days' <;>
      simp only [lookupList, optionalMember, Option.map_none, Option.map_some, Option.toList_none,
        Option.toList_some, List.cons_append, List.nil_append, List.append_nil, String.reduceEq,
        if_false, if_true, harr, Option.some.injEq, Json.arr.injEq, reduceCtorEq,
        List.map_inj_right num_injective] at hkey ⊢
    exact hkey
  rw [hstart, hstop, hzone, hdays]

/-! ## Scopes and capabilities -/

theorem Scope.names_nodup (s : Scope) :
    ((("type", Json.str s.type) :: s.members).map Prod.fst).Nodup := by
  cases s with
  | allowlist field values => simp [members]
  | numericLimit field max currency => cases currency <;> simp [members, optionalMember]
  | temporalScope notBefore notAfter window => cases window <;> simp [members, optionalMember]
  | cumulativeLimit meterField max window currency =>
      cases currency <;> simp [members, optionalMember]

theorem Scope.sortKeys_eq_of_json {s s' : Scope}
    (h : Json.sortKeys s.toJson = Json.sortKeys s'.toJson) : s.sortKeys = s'.sortKeys := by
  have hlookup := lookup_of_sortKeys_eq s.names_nodup s'.names_nodup h
  have htype : s.type = s'.type := by
    simpa [lookupList, Json.sortKeys] using hlookup "type"
  cases s with
  | allowlist field values =>
      cases s' with
      | allowlist field' values' =>
          have hfield := hlookup "field"
          have hvalues := hlookup "values"
          have harr := sortKeys_arr_map (f := Json.str) fun _ => rfl
          simp only [members, lookupList, String.reduceEq, if_false, if_true, Option.map_some,
            harr, Option.some.injEq, Json.arr.injEq, List.map_inj_right str_injective] at hvalues
          simp only [members, lookupList, String.reduceEq, if_false, if_true, Option.map_some,
            Json.sortKeys, Option.some.injEq, Json.str.injEq] at hfield
          rw [hfield, hvalues]
      | _ => simp [type] at htype
  | numericLimit field max currency =>
      cases s' with
      | numericLimit field' max' currency' =>
          have hfield : field = field' := by
            simpa [members, lookupList, Json.sortKeys] using hlookup "field"
          have hmax : max = max' := by
            simpa [members, lookupList, Json.sortKeys] using hlookup "max"
          have hcurrency : currency = currency' := by
            have hkey := hlookup "currency"
            simp only [members, ← List.cons_append] at hkey
            rw [lookupList_optionalMember (by simp), lookupList_optionalMember (by simp)] at hkey
            exact map_sortKeys_inj str_injective (fun _ => rfl) hkey
          rw [hfield, hmax, hcurrency]
      | _ => simp [type] at htype
  | temporalScope notBefore notAfter window =>
      cases s' with
      | temporalScope notBefore' notAfter' window' =>
          have hbefore : notBefore = notBefore' := by
            simpa [members, lookupList, Json.sortKeys] using hlookup "notBefore"
          have hafter : notAfter = notAfter' := by
            simpa [members, lookupList, Json.sortKeys] using hlookup "notAfter"
          have hwindow : window = window' := by
            have hkey := hlookup "recurringWindow"
            simp only [members, ← List.cons_append] at hkey
            rw [lookupList_optionalMember (by simp), lookupList_optionalMember (by simp),
              Option.map_map, Option.map_map] at hkey
            exact Option.map_injective (fun _ _ => RecurringWindow.toJson_inj) hkey
          rw [hbefore, hafter, hwindow]
      | _ => simp [type] at htype
  | cumulativeLimit meterField max window currency =>
      cases s' with
      | cumulativeLimit meterField' max' window' currency' =>
          have hmeter : meterField.sortKeys = meterField'.sortKeys := by
            have hkey := hlookup "meterField"
            simp only [members, lookupList, List.cons_append, String.reduceEq, if_false, if_true,
              Option.map_some, Option.some.injEq] at hkey
            exact MeterFieldRef.sortKeys_eq_of_json hkey
          have hmax : max = max' := by
            simpa [members, lookupList, Json.sortKeys] using hlookup "max"
          have hwindow : window = window' := by
            apply Window.text_injective
            simpa [members, lookupList, Json.sortKeys] using hlookup "window"
          have hcurrency : currency = currency' := by
            have hkey := hlookup "currency"
            simp only [members, ← List.cons_append] at hkey
            rw [lookupList_optionalMember (by simp), lookupList_optionalMember (by simp)] at hkey
            exact map_sortKeys_inj str_injective (fun _ => rfl) hkey
          simp only [sortKeys, hmeter, hmax, hwindow, hcurrency]
      | _ => simp [type] at htype

theorem MeterKey.text_antisymm (a b : MeterKey) (hab : TextLe a.text b.text)
    (hba : TextLe b.text a.text) : a.text = b.text := by
  revert hab hba
  cases a <;> cases b <;> decide

theorem MeterFieldRef.toJson_sortKeys (m : MeterFieldRef) :
    Json.sortKeys m.sortKeys.toJson = Json.sortKeys m.toJson := by
  have hnames : ∀ name ∈ (m.keyOrder.filterMap m.member).map Prod.fst,
      ∃ key : MeterKey, name = key.text := by
    intro name hname
    obtain ⟨member, hmember, rfl⟩ := List.mem_map.mp hname
    obtain ⟨key, -, hkey⟩ := List.mem_filterMap.mp hmember
    exact ⟨key, member_name hkey⟩
  refine (sortKeys_obj_of_perm (m.keyOrder_perm.filterMap m.member) m.names_nodup ?_).symm
  intro a ha b hb
  obtain ⟨key, rfl⟩ := hnames a ha
  obtain ⟨key', rfl⟩ := hnames b hb
  exact MeterKey.text_antisymm key key'

/-- Sorting the keys of a capability keeps its canonical text. -/
theorem Capability.canonicalize_sortKeys (F : NumberFormat) (c : Capability) :
    canonicalize F c.sortKeys.toJson = canonicalize F c.toJson := by
  rw [canonicalize_eq_iff]
  obtain ⟨action, scope⟩ := c
  cases scope with
  | cumulativeLimit meterField max window currency =>
      simp only [sortKeys, Scope.sortKeys, toJson, Scope.toJson, Scope.members, Scope.type,
        Json.sortKeys, sortKeysMembers, List.cons_append, MeterFieldRef.toJson_sortKeys]
  | _ => rfl

/-- Equal canonical texts come from capabilities that differ in key order only. -/
theorem Capability.sortKeys_eq_of_canonicalize (F : NumberFormat) {c c' : Capability}
    (h : canonicalize F c.toJson = canonicalize F c'.toJson) : c.sortKeys = c'.sortKeys := by
  have hlookup := lookup_of_sortKeys_eq (by simp) (by simp) ((canonicalize_eq_iff F).mp h)
  have haction : c.action = c'.action := by
    simpa [lookupList, Json.sortKeys] using hlookup "action"
  have hscope := hlookup "scope"
  simp only [lookupList, String.reduceEq, if_false, if_true, Option.map_some,
    Option.some.injEq] at hscope
  simp only [sortKeys, haction, Scope.sortKeys_eq_of_json hscope]

end Coivitas.Types
