import Mathlib.Logic.Function.Basic

/-! # Runs of a step function

A partial step function on states, the runs it has and the conditions that
hold at every step of a run. An invariant that each good step keeps holds
after every good run.
-/

namespace Foundation

variable {σ ε : Type*} (step : σ → ε → Option σ)

/-- The state after the events; `none` as soon as one of them cannot happen. -/
def run : σ → List ε → Option σ
  | s, [] => some s
  | s, event :: events =>
      match step s event with
      | none => none
      | some s' => run s' events

/-- Every event of the run meets the condition in the state it happens in. -/
def Along (good : σ → ε → Prop) : σ → List ε → Prop
  | _, [] => True
  | s, event :: events => good s event ∧
      match step s event with
      | none => True
      | some s' => Along good s' events

/-- Every state of the run is related to every later one. -/
def Related (rel : σ → σ → Prop) (s : σ) (events : List ε) : Prop :=
  ∀ before between rest s₁ s₂, events = before ++ between ++ rest →
    run step s before = some s₁ → run step s₁ between = some s₂ → rel s₁ s₂

instance decidableAlong (good : σ → ε → Prop) [hgood : ∀ s event, Decidable (good s event)] :
    (s : σ) → (events : List ε) → Decidable (Along step good s events)
  | _, [] => instDecidableTrue
  | s, event :: events => by
      unfold Along
      have hrest := fun s' => decidableAlong good s' events
      cases step s event <;> infer_instance

variable {step} {good : σ → ε → Prop} {s s' : σ} {event : ε} {events : List ε}

theorem run_cons (hstep : step s event = some s') :
    run step s (event :: events) = run step s' events := by
  simp [run, hstep]

theorem run_cons_eq_some {t : σ} :
    run step s (event :: events) = some t ↔
      ∃ s', step s event = some s' ∧ run step s' events = some t := by
  simp only [run]
  cases step s event with
  | none => simp
  | some s' => simp

theorem along_cons (hstep : step s event = some s') :
    Along step good s (event :: events) ↔ good s event ∧ Along step good s' events := by
  simp [Along, hstep]

/-- A run of two parts stops between them. -/
theorem run_append {events' : List ε} {t : σ} :
    run step s (events ++ events') = some t ↔
      ∃ s', run step s events = some s' ∧ run step s' events' = some t := by
  induction events generalizing s with
  | nil => simp [run]
  | cons event events ih =>
      rw [List.cons_append, run_cons_eq_some]
      simp only [run_cons_eq_some, ih]
      constructor
      · rintro ⟨s₁, hstep, s₂, hrun, hrest⟩
        exact ⟨s₂, ⟨s₁, hstep, hrun⟩, hrest⟩
      · rintro ⟨s₂, ⟨s₁, hstep, hrun⟩, hrest⟩
        exact ⟨s₁, hstep, s₂, hrun, hrest⟩

theorem along_append {events' : List ε} (hrun : run step s events = some s') :
    Along step good s (events ++ events') ↔
      Along step good s events ∧ Along step good s' events' := by
  induction events generalizing s with
  | nil =>
      cases hrun
      simp [Along]
  | cons event events ih =>
      obtain ⟨s₁, hs₁, hrest⟩ := run_cons_eq_some.mp hrun
      rw [List.cons_append, along_cons hs₁, along_cons hs₁, ih hrest, and_assoc]

/-- The induction over a run: what every good step keeps, a good run keeps. -/
theorem run_invariant (inv : σ → Prop)
    (hstep : ∀ s event s', inv s → good s event → step s event = some s' → inv s')
    (hinv : inv s) (hgood : Along step good s events) (hrun : run step s events = some s') :
    inv s' := by
  induction events generalizing s with
  | nil =>
      cases hrun
      exact hinv
  | cons event events ih =>
      obtain ⟨s₁, hs₁, hrest⟩ := run_cons_eq_some.mp hrun
      rw [along_cons hs₁] at hgood
      exact ih (hstep s event s₁ hinv hgood.1 hs₁) hgood.2 hrest

/-- What an invariant gives at every good step holds along every good run. -/
theorem Along.of_invariant {good' : σ → ε → Prop} (inv : σ → Prop)
    (hstep : ∀ s event s', inv s → good s event → step s event = some s' → inv s')
    (hgives : ∀ s event, inv s → good s event → good' s event)
    (hinv : inv s) (hgood : Along step good s events) : Along step good' s events := by
  induction events generalizing s with
  | nil => trivial
  | cons event events ih =>
      refine ⟨hgives s event hinv hgood.1, ?_⟩
      have hrest := hgood.2
      cases hs : step s event with
      | none => trivial
      | some s' =>
          rw [hs] at hrest
          exact ih (hstep s event s' hinv hgood.1 hs) hrest

/-- A simulation that erases events: where every good step is matched by a run on what is
left of its event, a good run is matched by the run on what is left of its events. -/
theorem run_filterMap {τ δ : Type*} (step' : τ → δ → Option τ) (erase : ε → Option δ)
    (rel : σ → τ → Prop) {t : τ}
    (hstep : ∀ s event s' t, rel s t → good s event → step s event = some s' →
      ∃ t', run step' t (erase event).toList = some t' ∧ rel s' t')
    (hrel : rel s t) (hgood : Along step good s events) (hrun : run step s events = some s') :
    ∃ t', run step' t (events.filterMap erase) = some t' ∧ rel s' t' := by
  induction events generalizing s t with
  | nil =>
      cases hrun
      exact ⟨t, rfl, hrel⟩
  | cons event events ih =>
      obtain ⟨s₁, hs₁, hrest⟩ := run_cons_eq_some.mp hrun
      rw [along_cons hs₁] at hgood
      obtain ⟨t₁, ht₁, hrel₁⟩ := hstep s event s₁ t hrel hgood.1 hs₁
      obtain ⟨t', ht', hrel'⟩ := ih hrel₁ hgood.2 hrest
      have hsplit : (event :: events).filterMap erase =
          (erase event).toList ++ events.filterMap erase := by
        cases herase : erase event <;> simp [herase]
      rw [hsplit]
      exact ⟨t', run_append.mpr ⟨t₁, ht₁, ht'⟩, hrel'⟩

/-- What holds of every event holds along every run. -/
theorem along_of_forall_mem (hgood : ∀ event ∈ events, ∀ s, good s event) :
    Along step good s events := by
  induction events generalizing s with
  | nil => trivial
  | cons event events ih =>
      refine ⟨hgood event List.mem_cons_self s, ?_⟩
      split
      next => trivial
      next s' _ => exact ih fun event' hevent' => hgood event' (List.mem_cons_of_mem _ hevent')

theorem Along.mono {good' : σ → ε → Prop} (hgood : Along step good s events)
    (himp : ∀ s event, good s event → good' s event) : Along step good' s events :=
  Along.of_invariant (fun _ => True) (fun _ _ _ _ _ _ => trivial)
    (fun s event _ hgood => himp s event hgood) trivial hgood

theorem Along.and {good' : σ → ε → Prop} (hgood : Along step good s events)
    (hgood' : Along step good' s events) :
    Along step (fun s event => good s event ∧ good' s event) s events := by
  induction events generalizing s with
  | nil => trivial
  | cons event events ih =>
      refine ⟨⟨hgood.1, hgood'.1⟩, ?_⟩
      have hrest := hgood.2
      have hrest' := hgood'.2
      cases hstep : step s event with
      | none => trivial
      | some s' =>
          rw [hstep] at hrest hrest'
          exact ih hrest hrest'

/-- A run is related throughout exactly when each of its steps is. -/
theorem related_iff_along {rel : σ → σ → Prop} (hrefl : ∀ s, rel s s)
    (htrans : ∀ {s t u}, rel s t → rel t u → rel s u) :
    Related step rel s events ↔
      Along step (fun s event => ∀ s', step s event = some s' → rel s s') s events := by
  constructor
  · intro hrelated
    induction events generalizing s with
    | nil => trivial
    | cons event events ih =>
        refine ⟨?_, ?_⟩
        · intro s' hstep
          exact hrelated [] [event] events s s' rfl rfl (by simp [run, hstep])
        · cases hstep : step s event with
          | none => trivial
          | some s' =>
              refine ih ?_
              intro before between rest s₁ s₂ hevents hbefore hbetween
              refine hrelated (event :: before) between rest s₁ s₂ (by simp [hevents]) ?_ hbetween
              rw [run_cons hstep]
              exact hbefore
  · rintro halong before between rest s₁ s₂ rfl hbefore hbetween
    rw [List.append_assoc, along_append hbefore, along_append hbetween] at halong
    exact run_invariant (rel s₁) (fun s event s' hs hgood hstep => htrans hs (hgood s' hstep))
      (hrefl s₁) halong.2.1 hbetween

/-- A map from numbers with one more entry. -/
theorem update_eq_some {α : Type} {calls : Nat → Option α} {i k : Nat} {entry other : α} :
    Function.update calls i (some entry) k = some other ↔
      k = i ∧ other = entry ∨ k ≠ i ∧ calls k = some other := by
  rw [Function.update_apply]
  by_cases hk : k = i
  · simp [hk, eq_comm]
  · simp [hk]

end Foundation
