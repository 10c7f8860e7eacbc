import Mathlib.Data.List.Forall2

/-! # Computations that may throw

Checked code is written in `Except` with `require` for its guard clauses. The
lemmas read a successful run backwards: every guard held and every part
returned.
-/

namespace Foundation

variable {ε : Type*} {α β : Type}

/-- A guard clause: go on when the condition holds, else throw. -/
def require (condition : Prop) [Decidable condition] (error : ε) : Except ε Unit :=
  if condition then .ok () else .error error

@[simp] theorem require_eq_ok {condition : Prop} [Decidable condition] {error : ε} {u : Unit} :
    require condition error = .ok u ↔ condition := by
  unfold require
  split <;> simp_all

theorem require_eq_error {condition : Prop} [Decidable condition] {error error' : ε} :
    require condition error = .error error' ↔ ¬ condition ∧ error = error' := by
  unfold require
  split <;> simp_all

@[simp] theorem bind_eq_ok {x : Except ε α} {f : α → Except ε β} {b : β} :
    x >>= f = .ok b ↔ ∃ a, x = .ok a ∧ f a = .ok b := by
  cases x with
  | error e => simp [bind, Except.bind]
  | ok a => simp [bind, Except.bind]

theorem bind_eq_error {x : Except ε α} {f : α → Except ε β} {error : ε} :
    x >>= f = .error error ↔ x = .error error ∨ ∃ a, x = .ok a ∧ f a = .error error := by
  cases x with
  | error e => simp [bind, Except.bind]
  | ok a => simp [bind, Except.bind]

/-- A part run for its checks only returns nothing to name. -/
@[simp] theorem exists_unit {p : Unit → Prop} : (∃ u, p u) ↔ p () :=
  ⟨fun ⟨_, hu⟩ => hu, fun h => ⟨(), h⟩⟩

@[simp] theorem pure_eq_ok {a b : α} : (pure a : Except ε α) = .ok b ↔ a = b := by
  simp [pure, Except.pure]

@[simp] theorem pure_ne_error {a : α} {error : ε} : (pure a : Except ε α) ≠ .error error := by
  simp [pure, Except.pure]

@[simp] theorem throw_ne_ok {e : ε} {b : α} : (throw e : Except ε α) = .ok b ↔ False := by
  simp [throw, throwThe, MonadExceptOf.throw]

/-- A loop that throws at the first item that fails. -/
def forEach (items : List α) (check : α → Except ε Unit) : Except ε Unit :=
  match items with
  | [] => .ok ()
  | item :: rest => do
      check item
      forEach rest check

@[simp] theorem forEach_eq_ok {items : List α} {check : α → Except ε Unit} {u : Unit} :
    forEach items check = .ok u ↔ ∀ item ∈ items, check item = .ok () := by
  induction items with
  | nil => simp [forEach]
  | cons item rest ih => simp only [forEach, bind_eq_ok, exists_unit, ih, List.forall_mem_cons]

/-- A loop that collects what each item gives, and throws at the first item that fails. -/
def collect (f : α → Except ε β) : List α → Except ε (List β)
  | [] => .ok []
  | item :: rest => do
      let result ← f item
      let results ← collect f rest
      return result :: results

theorem collect_eq_ok {f : α → Except ε β} {items : List α} {results : List β} :
    collect f items = .ok results ↔ List.Forall₂ (fun item result => f item = .ok result)
      items results := by
  induction items generalizing results with
  | nil => simp [collect, List.forall₂_nil_left_iff, eq_comm]
  | cons item rest ih =>
      simp only [collect, bind_eq_ok, pure_eq_ok, ih, List.forall₂_cons_left_iff]
      constructor
      · rintro ⟨result, hresult, results', hrest, rfl⟩
        exact ⟨result, results', hresult, hrest, rfl⟩
      · rintro ⟨result, results', hresult, hrest, rfl⟩
        exact ⟨result, hresult, results', hrest, rfl⟩

/-- What the results keep of their items they keep in order. -/
theorem map_eq_of_forall₂ {γ : Type} {r : α → β → Prop} {items : List α} {results : List β}
    {g : α → γ} {h : β → γ} (hforall : List.Forall₂ r items results)
    (hkeep : ∀ item result, r item result → h result = g item) :
    results.map h = items.map g := by
  induction hforall with
  | nil => rfl
  | cons hitem _ ih => rw [List.map_cons, List.map_cons, hkeep _ _ hitem, ih]

theorem map_eq_of_collect {γ : Type} {f : α → Except ε β} {items : List α} {results : List β}
    {g : α → γ} {h : β → γ} (hcollect : collect f items = .ok results)
    (hkeep : ∀ item result, f item = .ok result → h result = g item) :
    results.map h = items.map g :=
  map_eq_of_forall₂ (collect_eq_ok.mp hcollect) hkeep

theorem exists_left_of_forall₂ {r : α → β → Prop} {items : List α} {results : List β}
    (hforall : List.Forall₂ r items results) {result : β} (hresult : result ∈ results) :
    ∃ item ∈ items, r item result := by
  induction hforall with
  | nil => cases hresult
  | cons hitem _ ih =>
      obtain rfl | hrest := List.mem_cons.mp hresult
      · exact ⟨_, List.mem_cons_self, hitem⟩
      · obtain ⟨item, hmem, hitem⟩ := ih hrest
        exact ⟨item, List.mem_cons_of_mem _ hmem, hitem⟩

theorem exists_right_of_forall₂ {r : α → β → Prop} {items : List α} {results : List β}
    (hforall : List.Forall₂ r items results) {item : α} (hitem : item ∈ items) :
    ∃ result ∈ results, r item result := by
  have hflip : List.Forall₂ (flip r) results items := hforall.flip
  exact exists_left_of_forall₂ hflip hitem

theorem mem_of_collect {f : α → Except ε β} {items : List α} {results : List β}
    (hcollect : collect f items = .ok results) {result : β} (hresult : result ∈ results) :
    ∃ item ∈ items, f item = .ok result :=
  exists_left_of_forall₂ (collect_eq_ok.mp hcollect) hresult

theorem exists_collect {f : α → Except ε β} {items : List α}
    (h : ∀ item ∈ items, ∃ result, f item = .ok result) :
    ∃ results, collect f items = .ok results := by
  induction items with
  | nil => exact ⟨[], rfl⟩
  | cons item items ih =>
      obtain ⟨⟨result, hresult⟩, hrest⟩ := List.forall_mem_cons.mp h
      obtain ⟨results, hresults⟩ := ih hrest
      refine ⟨result :: results, ?_⟩
      simp only [collect, bind_eq_ok, pure_eq_ok]
      exact ⟨result, hresult, results, hresults, rfl⟩

theorem mapM_eq_some {β : Type*} {f : α → Option β} {g : α → β} {l : List α}
    (hmap : ∀ a ∈ l, f a = some (g a)) : l.mapM f = some (l.map g) := by
  induction l with
  | nil => rfl
  | cons a l ih =>
      rw [List.forall_mem_cons] at hmap
      simp [List.mapM_cons, hmap.1, ih hmap.2]

/-- The places of a loop left out. -/
theorem map_zipIdx_fst {γ : Type} (items : List α) (f : α → γ) :
    (items.zipIdx.map fun entry => f entry.1) = items.map f := by
  conv_rhs => rw [← List.zipIdx_map_fst 0 items, List.map_map]
  rfl

/-- A check that reports what it found. -/
def refuse {δ : Type} (found : Option δ) (error : δ → ε) : Except ε Unit :=
  match found with
  | none => .ok ()
  | some detail => .error (error detail)

@[simp] theorem refuse_eq_ok {δ : Type} {found : Option δ} {error : δ → ε} {u : Unit} :
    refuse found error = .ok u ↔ found = none := by
  cases found <;> simp [refuse]

@[simp] theorem mapError_eq_ok {δ : Type*} {x : Except ε α} {report : ε → δ} {a : α} :
    x.mapError report = .ok a ↔ x = .ok a := by
  cases x with
  | error e => simp [Except.mapError]
  | ok b => simp [Except.mapError]

theorem map_eq_ok {γ : Type*} {x : Except ε α} {f : α → γ} {c : γ} :
    x.map f = .ok c ↔ ∃ a, x = .ok a ∧ f a = c := by
  cases x with
  | error e => simp [Except.map]
  | ok a => simp [Except.map]

/-- A run whose result passes a test returned. -/
theorem exists_ok_of_any {x : Except ε α} {p : α → Bool} (h : x.toOption.any p = true) :
    ∃ a, x = .ok a ∧ p a = true := by
  cases x with
  | error e => simp [Except.toOption] at h
  | ok a => exact ⟨a, rfl, by simpa [Except.toOption] using h⟩

end Foundation
