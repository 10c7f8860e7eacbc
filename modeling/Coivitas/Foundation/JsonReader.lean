import Coivitas.Foundation.Json

/-! # Readers of JSON values

A reader turns a JSON value of the shape it asks for into a typed value. An object
reader looks members up by name and refuses names it does not know. Readers built
from the parts below are stable: they do not see the order of members, so two values
with one canonical form are read alike.
-/

namespace Foundation

open OrderedMap

/-- A typed value, if the JSON value has the right shape. -/
abbrev JsonReader (α : Type) : Type := Json → Option α

namespace JsonReader

variable {α β : Type}

/-- A reader of texts. -/
def choice (read : String → Option α) : JsonReader α
  | .str s => read s
  | _ => none

/-- The texts with a property. -/
def text (accepts : String → Bool) : JsonReader String :=
  choice fun s => if accepts s then some s else none

def flag : JsonReader Bool
  | .bool value => some value
  | _ => none

def items (read : JsonReader α) : List Json → Option (List α)
  | [] => some []
  | value :: values => (read value).bind fun a => (items read values).map (a :: ·)

def list (read : JsonReader α) : JsonReader (List α)
  | .arr values => items read values
  | _ => none

/-- A value that may be missing. -/
def optionally (read : JsonReader α) : Option Json → Option (Option α)
  | none => some none
  | some value => (read value).map some

/-- A reader of the members of an object, given by their look-up function. -/
structure Fields (α : Type) where
  run : (String → Option Json) → Option α

namespace Fields

instance : Monad Fields where
  pure a := ⟨fun _ => some a⟩
  bind x f := ⟨fun get => (x.run get).bind fun a => (f a).run get⟩

def required (name : String) (read : JsonReader α) : Fields α := ⟨fun get => (get name).bind read⟩

def optional (name : String) (read : JsonReader α) : Fields (Option α) :=
  ⟨fun get => optionally read (get name)⟩

/-- A condition on the fields read so far. -/
def check (condition : Bool) : Fields Unit := ⟨fun _ => if condition then some () else none⟩

variable {x : Fields α} {f : α → Fields β} {get : String → Option Json}

@[simp] theorem run_pure_eq_some {a b : α} : (pure a : Fields α).run get = some b ↔ a = b := by
  simp [pure]

@[simp] theorem run_bind_eq_some {b : β} :
    (x >>= f).run get = some b ↔ ∃ a, x.run get = some a ∧ (f a).run get = some b := by
  simp only [bind]
  exact Option.bind_eq_some_iff

@[simp] theorem run_required (name : String) (read : JsonReader α) :
    (required name read).run get = (get name).bind read := rfl

@[simp] theorem run_optional (name : String) (read : JsonReader α) :
    (optional name read).run get = optionally read (get name) := rfl

@[simp] theorem run_check_eq_some {condition : Bool} {u : Unit} :
    (check condition).run get = some u ↔ condition = true := by
  unfold check
  dsimp only
  split <;> simp_all

end Fields

/-- An object with these names only. A member list in which a name comes twice is
no object. -/
def object (names : List String) (fields : Fields α) : JsonReader α
  | .obj members =>
      if (members.map Prod.fst).Nodup ∧ ∀ name ∈ members.map Prod.fst, name ∈ names then
        fields.run fun name => lookupList name members
      else none
  | _ => none

/-! ## Reading known values -/

/-- Not proved by `rfl`: the simplifier would try to compute the comparison of names. -/
theorem lookup_cons (name name' : String) (value : Json) (rest : List (String × Json)) :
    lookupList name ((name', value) :: rest) =
      if name' = name then some value else lookupList name rest := by
  rw [lookupList]

theorem lookup_nil (name : String) : lookupList name ([] : List (String × Json)) = none := by
  rw [lookupList]

/-- The reader undoes the writer, on exactly the values with a property. -/
def Inverts (read : JsonReader α) (write : α → Json) (wellFormed : α → Prop) : Prop :=
  ∀ a b, read (write a) = some b ↔ wellFormed a ∧ b = a

theorem inverts_choice {read : String → Option α} {write : α → String} {wellFormed : α → Prop}
    (h : ∀ a b, read (write a) = some b ↔ wellFormed a ∧ b = a) :
    Inverts (choice read) (fun a => .str (write a)) wellFormed := h

theorem inverts_text (accepts : String → Bool) :
    Inverts (text accepts) Json.str (accepts · = true) := by
  intro s t
  simp only [text, choice]
  split
  next haccepts =>
    rw [Option.some.injEq]
    exact ⟨fun h => ⟨haccepts, h.symm⟩, fun h => h.2.symm⟩
  next hrefused => simp [hrefused]

theorem inverts_flag : Inverts flag Json.bool fun _ => True := by
  intro a b
  simp only [flag, Option.some.injEq, true_and]
  exact eq_comm

theorem optionally_none (read : JsonReader α) : optionally read none = some none := rfl

theorem optionally_map_eq_some {read : JsonReader α} {write : α → Json} {wellFormed : α → Prop}
    (h : Inverts read write wellFormed) {value : Option α} {result : Option α} :
    optionally read (value.map write) = some result ↔
      (∀ a ∈ value, wellFormed a) ∧ result = value := by
  cases value with
  | none =>
      simp only [optionally, Option.map_none, Option.some.injEq]
      exact ⟨fun h => ⟨by simp, h.symm⟩, fun h => h.2.symm⟩
  | some a =>
      simp only [optionally, Option.map_some, Option.map_eq_some_iff, h a, Option.mem_some_iff,
        forall_eq']
      constructor
      · rintro ⟨b, ⟨ha, rfl⟩, rfl⟩
        exact ⟨ha, rfl⟩
      · rintro ⟨ha, rfl⟩
        exact ⟨a, ⟨ha, rfl⟩, rfl⟩

theorem items_cons_eq_some {read : JsonReader α} {value : Json} {values : List Json}
    {result : List α} :
    items read (value :: values) = some result ↔
      ∃ a rest, read value = some a ∧ items read values = some rest ∧ result = a :: rest := by
  rw [items, Option.bind_eq_some_iff]
  constructor
  · rintro ⟨a, ha, hrest⟩
    obtain ⟨rest, hvalues, rfl⟩ := Option.map_eq_some_iff.mp hrest
    exact ⟨a, rest, ha, hvalues, rfl⟩
  · rintro ⟨a, rest, ha, hvalues, rfl⟩
    exact ⟨a, ha, Option.map_eq_some_iff.mpr ⟨rest, hvalues, rfl⟩⟩

theorem inverts_list {read : JsonReader α} {write : α → Json} {wellFormed : α → Prop}
    (h : Inverts read write wellFormed) :
    Inverts (list read) (fun values => .arr (values.map write))
      fun values => ∀ a ∈ values, wellFormed a := by
  intro values
  show ∀ result, items read (values.map write) = some result ↔
    (∀ a ∈ values, wellFormed a) ∧ result = values
  induction values with
  | nil =>
      intro result
      rw [List.map_nil, items, Option.some.injEq]
      exact ⟨fun h => ⟨by simp, h.symm⟩, fun h => h.2.symm⟩
  | cons a values ih =>
      intro result
      rw [List.map_cons, items_cons_eq_some, List.forall_mem_cons]
      constructor
      · rintro ⟨b, rest, hread, hrest, rfl⟩
        obtain ⟨ha, rfl⟩ := (h a b).mp hread
        obtain ⟨hvalues, rfl⟩ := (ih rest).mp hrest
        exact ⟨⟨ha, hvalues⟩, rfl⟩
      · rintro ⟨⟨ha, hvalues⟩, rfl⟩
        exact ⟨a, values, (h a a).mpr ⟨ha, rfl⟩, (ih values).mpr ⟨hvalues, rfl⟩, rfl⟩

theorem object_obj {names : List String} {fields : Fields α} {members : List (String × Json)}
    (hnodup : (members.map Prod.fst).Nodup)
    (hnames : ∀ name ∈ members.map Prod.fst, name ∈ names) :
    object names fields (.obj members) = fields.run fun name => lookupList name members :=
  if_pos ⟨hnodup, hnames⟩

/-- Members that may be left out do not spoil an object. -/
theorem object_of_sublist {names written : List String} {fields : Fields α}
    {members : List (String × Json)} (hsub : (members.map Prod.fst).Sublist written)
    (hnodup : written.Nodup) (hnames : ∀ name ∈ written, name ∈ names) :
    object names fields (.obj members) = fields.run fun name => lookupList name members :=
  object_obj (hnodup.sublist hsub) fun name hname => hnames name (hsub.subset hname)

/-! ## Stability -/

/-- Values with one canonical form are read alike. -/
def Stable (read : JsonReader α) : Prop :=
  ∀ v w : Json, v.sortKeys = w.sortKeys → read v = read w

/-- Member functions that agree up to member order are read alike. -/
def Fields.Stable (fields : Fields α) : Prop :=
  ∀ get get' : String → Option Json,
    (∀ name, (get name).map Json.sortKeys = (get' name).map Json.sortKeys) →
      fields.run get = fields.run get'

theorem stable_choice (read : String → Option α) : Stable (choice read) := by
  intro v w h
  cases v <;> cases w <;> simp_all [Json.sortKeys, choice]

theorem stable_text (accepts : String → Bool) : Stable (text accepts) := stable_choice _

theorem stable_flag : Stable flag := by
  intro v w h
  cases v <;> cases w <;> simp_all [Json.sortKeys, flag]

theorem items_eq_of_sortKeys {read : JsonReader α} (hread : Stable read)
    {values values' : List Json} (h : values.map Json.sortKeys = values'.map Json.sortKeys) :
    items read values = items read values' := by
  induction values generalizing values' with
  | nil =>
      obtain rfl : values' = [] := by simpa using h.symm
      rfl
  | cons value values ih =>
      cases values' with
      | nil => simp at h
      | cons value' values' =>
          rw [List.map_cons, List.map_cons, List.cons.injEq] at h
          rw [items, items, hread _ _ h.1, ih h.2]

theorem stable_list {read : JsonReader α} (hread : Stable read) : Stable (list read) := by
  intro v w h
  cases v with
  | arr values =>
      cases w with
      | arr values' =>
          rw [Json.sortKeys, Json.sortKeys, Json.arr.injEq, Json.sortKeysItems_eq,
            Json.sortKeysItems_eq] at h
          exact items_eq_of_sortKeys hread h
      | null => simp [Json.sortKeys] at h
      | bool value => simp [Json.sortKeys] at h
      | num value => simp [Json.sortKeys] at h
      | str s => simp [Json.sortKeys] at h
      | obj members => simp [Json.sortKeys] at h
  | null => cases w <;> simp_all [Json.sortKeys, list]
  | bool value => cases w <;> simp_all [Json.sortKeys, list]
  | num value => cases w <;> simp_all [Json.sortKeys, list]
  | str s => cases w <;> simp_all [Json.sortKeys, list]
  | obj members => cases w <;> simp_all [Json.sortKeys, list]

namespace Fields

theorem stable_pure (a : α) : Stable (pure a : Fields α) := fun _ _ _ => rfl

theorem stable_check (condition : Bool) : Stable (check condition) := fun _ _ _ => rfl

theorem Stable.bind {x : Fields α} {f : α → Fields β} (hx : Stable x) (hf : ∀ a, Stable (f a)) :
    Stable (x >>= f) := by
  intro get get' h
  show (x.run get).bind _ = (x.run get').bind _
  rw [hx get get' h]
  exact congrArg _ (funext fun a => hf a get get' h)

theorem stable_required (name : String) {read : JsonReader α} (hread : JsonReader.Stable read) :
    Stable (required name read) := by
  intro get get' h
  have hname := h name
  rw [run_required, run_required]
  cases hget : get name with
  | none =>
      rw [hget] at hname
      rw [Option.map_eq_none_iff.mp hname.symm]
  | some value =>
      rw [hget] at hname
      obtain ⟨value', hget', hvalue⟩ := Option.map_eq_some_iff.mp hname.symm
      rw [hget']
      exact hread _ _ hvalue.symm

theorem stable_optional (name : String) {read : JsonReader α} (hread : JsonReader.Stable read) :
    Stable (optional name read) := by
  intro get get' h
  have hname := h name
  rw [run_optional, run_optional]
  cases hget : get name with
  | none =>
      rw [hget] at hname
      rw [Option.map_eq_none_iff.mp hname.symm]
  | some value =>
      rw [hget] at hname
      obtain ⟨value', hget', hvalue⟩ := Option.map_eq_some_iff.mp hname.symm
      rw [hget']
      exact congrArg (Option.map some) (hread _ _ hvalue.symm)

end Fields

theorem object_eq_of_sortKeys {names : List String} {fields : Fields α} (hfields : fields.Stable)
    {members members' : List (String × Json)}
    (h : Json.sortKeys (.obj members) = Json.sortKeys (.obj members')) :
    object names fields (.obj members) = object names fields (.obj members') := by
  have hperm := Json.names_perm_of_sortKeys_eq h
  unfold object
  by_cases hshape : (members.map Prod.fst).Nodup ∧ ∀ name ∈ members.map Prod.fst, name ∈ names
  · have hshape' : (members'.map Prod.fst).Nodup ∧
        ∀ name ∈ members'.map Prod.fst, name ∈ names :=
      ⟨hperm.nodup_iff.mp hshape.1, fun name hname => hshape.2 name (hperm.mem_iff.mpr hname)⟩
    dsimp only
    rw [if_pos hshape, if_pos hshape']
    exact hfields _ _ fun name => Json.lookup_of_sortKeys_eq hshape.1 hshape'.1 h name
  · have hshape' : ¬ ((members'.map Prod.fst).Nodup ∧
        ∀ name ∈ members'.map Prod.fst, name ∈ names) := fun hmembers =>
      hshape ⟨hperm.nodup_iff.mpr hmembers.1,
        fun name hname => hmembers.2 name (hperm.mem_iff.mp hname)⟩
    dsimp only
    rw [if_neg hshape, if_neg hshape']

theorem stable_object (names : List String) {fields : Fields α} (hfields : fields.Stable) :
    Stable (object names fields) := by
  intro v w h
  cases v with
  | obj members =>
      cases w with
      | obj members' => exact object_eq_of_sortKeys hfields h
      | null => simp [Json.sortKeys] at h
      | bool value => simp [Json.sortKeys] at h
      | num value => simp [Json.sortKeys] at h
      | str s => simp [Json.sortKeys] at h
      | arr values => simp [Json.sortKeys] at h
  | null => cases w <;> simp_all [Json.sortKeys, object]
  | bool value => cases w <;> simp_all [Json.sortKeys, object]
  | num value => cases w <;> simp_all [Json.sortKeys, object]
  | str s => cases w <;> simp_all [Json.sortKeys, object]
  | arr values => cases w <;> simp_all [Json.sortKeys, object]

end JsonReader

end Foundation
