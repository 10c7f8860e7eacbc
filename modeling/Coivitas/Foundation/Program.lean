import Mathlib.Data.List.Basic

/-! # Programs with effects, exceptions and events

A program runs in a world, returns or throws, and leaves a list of the events it
caused. What it did before a throw stays done. Specifications are triples; there
is one rule for each way to build a program.
-/

namespace Foundation

/-- One execution: what the program returned or threw, the world it left and the
events it caused, in order. -/
structure Execution (ω χ ε α : Type) where
  result : Except ε α
  world : ω
  events : List χ

namespace Execution

variable {ω χ ε α : Type}

theorem eq_of_result {e : Execution ω χ ε α} {result : Except ε α} (h : e.result = result) :
    e = ⟨result, e.world, e.events⟩ := by
  rw [← h]

/-- The same execution after earlier events. -/
def after (events : List χ) (rest : Execution ω χ ε α) : Execution ω χ ε α :=
  { rest with events := events ++ rest.events }

end Execution

def Program (ω χ ε α : Type) : Type := ω → Execution ω χ ε α

/-- What a port may do: return or throw, and change the world. -/
abbrev Reply (ω ε α : Type) : Type := ω → Except ε α × ω

namespace Program

variable {ω χ ε α β : Type}

def run (x : Program ω χ ε α) (w : ω) : Execution ω χ ε α := x w

instance : Monad (Program ω χ ε) where
  pure a := fun w => ⟨.ok a, w, []⟩
  bind x f := fun w =>
    match x w with
    | ⟨.ok a, w', events⟩ => (f a w').after events
    | ⟨.error e, w', events⟩ => ⟨.error e, w', events⟩

instance : MonadExceptOf ε (Program ω χ ε) where
  throw e := fun w => ⟨.error e, w, []⟩
  tryCatch x handler := fun w =>
    match x w with
    | ⟨.ok a, w', events⟩ => ⟨.ok a, w', events⟩
    | ⟨.error e, w', events⟩ => (handler e w').after events

/-- Read the world. -/
def get : Program ω χ ε ω := fun w => ⟨.ok w, w, []⟩

def modify (f : ω → ω) : Program ω χ ε Unit := fun w => ⟨.ok (), f w, []⟩

def emit (event : χ) : Program ω χ ε Unit := fun w => ⟨.ok (), w, [event]⟩

/-- A value, or its error. -/
def ofExcept (value : Except ε α) : Program ω χ ε α := fun w => ⟨value, w, []⟩

/-- Ask a port. -/
def ask (reply : Reply ω ε α) : Program ω χ ε α := fun w => ⟨(reply w).1, (reply w).2, []⟩

/-- Read a value that the world always has an answer for. -/
def sample (read : ω → α × ω) : Program ω χ ε α := fun w => ⟨.ok (read w).1, (read w).2, []⟩

/-- A program with local variables, run in the world around them. -/
def scope {ω' : Type} (enter : ω → ω') (leave : ω' → ω) (x : Program ω' χ ε α) :
    Program ω χ ε α := fun w =>
  let inner := x.run (enter w)
  ⟨inner.result, leave inner.world, inner.events⟩

/-- Each item in turn; the first throw ends the loop. -/
def forEach (items : List α) (body : α → Program ω χ ε Unit) : Program ω χ ε Unit :=
  match items with
  | [] => pure ()
  | item :: rest => do
      body item
      forEach rest body

/-! ## Triples -/

/-- Started in a world that meets `P`, the program ends with a result, a world and
events that meet `Q`. -/
def Triple (P : ω → Prop) (x : Program ω χ ε α) (Q : Except ε α → ω → List χ → Prop) : Prop :=
  ∀ w, P w → Q (x.run w).result (x.run w).world (x.run w).events

variable {P P' : ω → Prop} {x : Program ω χ ε α} {f : α → Program ω χ ε β}
  {Q Q' R : Except ε α → ω → List χ → Prop} {S : Except ε β → ω → List χ → Prop}

theorem Triple.and (h : Triple P x Q) (h' : Triple P x Q') :
    Triple P x fun r w events => Q r w events ∧ Q' r w events :=
  fun w hw => ⟨h w hw, h' w hw⟩

theorem Triple.pure {a : α} (h : ∀ w, P w → Q (.ok a) w []) :
    Triple P (Pure.pure a : Program ω χ ε α) Q := h

theorem Triple.throw {e : ε} (h : ∀ w, P w → Q (.error e) w []) :
    Triple P (MonadExcept.throw e : Program ω χ ε α) Q := h

theorem Triple.ofExcept {value : Except ε α} (h : ∀ w, P w → Q value w []) :
    Triple P (Program.ofExcept value) Q := h

theorem Triple.modify {g : ω → ω} {Q : Except ε Unit → ω → List χ → Prop}
    (h : ∀ w, P w → Q (.ok ()) (g w) []) : Triple P (Program.modify g) Q := h

theorem Triple.emit {event : χ} {Q : Except ε Unit → ω → List χ → Prop}
    (h : ∀ w, P w → Q (.ok ()) w [event]) : Triple P (Program.emit event) Q := h

theorem run_get_bind {f : ω → Program ω χ ε β} (w : ω) : (get >>= f).run w = (f w).run w := rfl

theorem run_ofExcept_bind (value : Except ε α) (w : ω) :
    (ofExcept value >>= f).run w =
      match value with
      | .ok a => (f a).run w
      | .error e => ⟨.error e, w, []⟩ := by
  cases value <;> rfl

theorem run_bind_ok {w w' : ω} {a : α} {events : List χ} (h : x.run w = ⟨.ok a, w', events⟩) :
    (x >>= f).run w = ((f a).run w').after events := by
  show (match x w with
    | ⟨.ok a, w', events⟩ => (f a w').after events
    | ⟨.error e, w', events⟩ => ⟨.error e, w', events⟩) = _
  rw [show x w = ⟨.ok a, w', events⟩ from h]
  rfl

theorem run_bind_error {w w' : ω} {e : ε} {events : List χ}
    (h : x.run w = ⟨.error e, w', events⟩) : (x >>= f).run w = ⟨.error e, w', events⟩ := by
  show (match x w with
    | ⟨.ok a, w', events⟩ => (f a w').after events
    | ⟨.error e, w', events⟩ => ⟨.error e, w', events⟩) = _
  rw [show x w = ⟨.error e, w', events⟩ from h]

/-- A sequence returns exactly when both parts do; their events follow each other. -/
theorem run_bind_eq_ok {w w' : ω} {b : β} {events : List χ} :
    (x >>= f).run w = ⟨.ok b, w', events⟩ ↔
      ∃ a w₁ first rest, x.run w = ⟨.ok a, w₁, first⟩ ∧ (f a).run w₁ = ⟨.ok b, w', rest⟩ ∧
        first ++ rest = events := by
  constructor
  · intro h
    rcases hrun : x.run w with ⟨result, w₁, first⟩
    cases result with
    | ok a =>
        rw [run_bind_ok hrun] at h
        rcases hrest : (f a).run w₁ with ⟨result', w₂, rest⟩
        rw [hrest, Execution.after, Execution.mk.injEq] at h
        obtain ⟨rfl, rfl, hevents⟩ := h
        exact ⟨a, w₁, first, rest, rfl, hrest, hevents⟩
    | error e =>
        rw [run_bind_error hrun, Execution.mk.injEq] at h
        cases h.1
  · rintro ⟨a, w₁, first, rest, hx, hf, rfl⟩
    rw [run_bind_ok hx, hf]
    rfl

/-- A sequence throws exactly when its first part does, or this returns and the second throws. -/
theorem run_bind_eq_error {w w' : ω} {e : ε} {events : List χ} :
    (x >>= f).run w = ⟨.error e, w', events⟩ ↔
      x.run w = ⟨.error e, w', events⟩ ∨
        ∃ a w₁ first rest, x.run w = ⟨.ok a, w₁, first⟩ ∧
          (f a).run w₁ = ⟨.error e, w', rest⟩ ∧ first ++ rest = events := by
  rcases hrun : x.run w with ⟨result, w₁, first⟩
  cases result with
  | ok a =>
      rw [run_bind_ok hrun]
      rcases hrest : (f a).run w₁ with ⟨result', w₂, rest⟩
      simp only [Execution.after, Execution.mk.injEq, reduceCtorEq, false_and, false_or,
        Except.ok.injEq]
      constructor
      · rintro ⟨rfl, rfl, rfl⟩
        exact ⟨a, w₁, first, rest, ⟨rfl, rfl, rfl⟩, hrest, rfl⟩
      · rintro ⟨_, _, _, _, ⟨rfl, rfl, rfl⟩, hthrows, rfl⟩
        rw [hrest, Execution.mk.injEq] at hthrows
        obtain ⟨rfl, rfl, rfl⟩ := hthrows
        exact ⟨rfl, rfl, rfl⟩
  | error e' =>
      rw [run_bind_error hrun]
      simp

@[simp] theorem run_pure_eq_ok {w w' : ω} {a b : α} {events : List χ} :
    (pure a : Program ω χ ε α).run w = ⟨.ok b, w', events⟩ ↔ a = b ∧ w = w' ∧ [] = events := by
  show (⟨.ok a, w, []⟩ : Execution ω χ ε α) = _ ↔ _
  rw [Execution.mk.injEq, Except.ok.injEq]

@[simp] theorem run_throw_ne_ok {w w' : ω} {e : ε} {b : α} {events : List χ} :
    (throw e : Program ω χ ε α).run w = ⟨.ok b, w', events⟩ ↔ False := by
  show (⟨.error e, w, []⟩ : Execution ω χ ε α) = _ ↔ _
  rw [Execution.mk.injEq]
  simp

@[simp] theorem run_ask_eq_ok {reply : Reply ω ε α} {w w' : ω} {a : α} {events : List χ} :
    (ask reply : Program ω χ ε α).run w = ⟨.ok a, w', events⟩ ↔
      reply w = (.ok a, w') ∧ [] = events := by
  show (⟨(reply w).1, (reply w).2, []⟩ : Execution ω χ ε α) = _ ↔ _
  rw [Execution.mk.injEq, Prod.ext_iff, and_assoc]

@[simp] theorem run_pure_ne_error {w w' : ω} {a : α} {e : ε} {events : List χ} :
    (pure a : Program ω χ ε α).run w = ⟨.error e, w', events⟩ ↔ False := by
  show (⟨.ok a, w, []⟩ : Execution ω χ ε α) = _ ↔ _
  rw [Execution.mk.injEq]
  simp

@[simp] theorem run_throw_eq_error {w w' : ω} {e e' : ε} {events : List χ} :
    (throw e : Program ω χ ε α).run w = ⟨.error e', w', events⟩ ↔
      e = e' ∧ w = w' ∧ [] = events := by
  show (⟨.error e, w, []⟩ : Execution ω χ ε α) = _ ↔ _
  rw [Execution.mk.injEq, Except.error.injEq]

@[simp] theorem run_ask_eq_error {reply : Reply ω ε α} {w w' : ω} {e : ε} {events : List χ} :
    (ask reply : Program ω χ ε α).run w = ⟨.error e, w', events⟩ ↔
      reply w = (.error e, w') ∧ [] = events := by
  show (⟨(reply w).1, (reply w).2, []⟩ : Execution ω χ ε α) = _ ↔ _
  rw [Execution.mk.injEq, Prod.ext_iff, and_assoc]

@[simp] theorem run_sample_eq_ok {read : ω → α × ω} {w w' : ω} {a : α} {events : List χ} :
    (sample read : Program ω χ ε α).run w = ⟨.ok a, w', events⟩ ↔
      read w = (a, w') ∧ [] = events := by
  show (⟨.ok (read w).1, (read w).2, []⟩ : Execution ω χ ε α) = _ ↔ _
  rw [Execution.mk.injEq, Except.ok.injEq, Prod.ext_iff, and_assoc]

@[simp] theorem run_emit_eq_ok {event : χ} {w w' : ω} {u : Unit} {events : List χ} :
    (emit event : Program ω χ ε Unit).run w = ⟨.ok u, w', events⟩ ↔
      w = w' ∧ [event] = events := by
  show (⟨.ok (), w, [event]⟩ : Execution ω χ ε Unit) = _ ↔ _
  rw [Execution.mk.injEq]
  simp

theorem run_tryCatch_ok {handler : ε → Program ω χ ε α} {w w' : ω} {a : α} {events : List χ}
    (h : x.run w = ⟨.ok a, w', events⟩) :
    (tryCatch x handler).run w = ⟨.ok a, w', events⟩ := by
  show (match x w with
    | ⟨.ok a, w', events⟩ => (⟨.ok a, w', events⟩ : Execution ω χ ε α)
    | ⟨.error e, w', events⟩ => (handler e w').after events) = _
  rw [show x w = ⟨.ok a, w', events⟩ from h]

theorem run_tryCatch_error {handler : ε → Program ω χ ε α} {w w' : ω} {e : ε} {events : List χ}
    (h : x.run w = ⟨.error e, w', events⟩) :
    (tryCatch x handler).run w = ((handler e).run w').after events := by
  show (match x w with
    | ⟨.ok a, w', events⟩ => (⟨.ok a, w', events⟩ : Execution ω χ ε α)
    | ⟨.error e, w', events⟩ => (handler e w').after events) = _
  rw [show x w = ⟨.error e, w', events⟩ from h]
  rfl

/-- A `try` returns what its body returned, or what the handler made of a throw. -/
theorem run_tryCatch_eq_ok {handler : ε → Program ω χ ε α} {w w' : ω} {a : α} {events : List χ}
    (h : (tryCatch x handler).run w = ⟨.ok a, w', events⟩) :
    x.run w = ⟨.ok a, w', events⟩ ∨
      ∃ e w₁ first rest, x.run w = ⟨.error e, w₁, first⟩ ∧
        (handler e).run w₁ = ⟨.ok a, w', rest⟩ ∧ first ++ rest = events := by
  rcases hrun : x.run w with ⟨result, w₁, first⟩
  cases result with
  | ok b =>
      rw [run_tryCatch_ok hrun] at h
      exact Or.inl h
  | error e =>
      rw [run_tryCatch_error hrun] at h
      rcases hrest : (handler e).run w₁ with ⟨result', w₂, rest⟩
      rw [hrest, Execution.after, Execution.mk.injEq] at h
      obtain ⟨rfl, rfl, hevents⟩ := h
      exact Or.inr ⟨e, w₁, first, rest, rfl, hrest, hevents⟩

/-- The rule of sequencing: the first part meets a middle condition, and the second
extends its events. -/
theorem Triple.bind (hx : Triple P x R)
    (hok : ∀ a events, Triple (fun w => R (.ok a) w events) (f a)
      fun r w rest => S r w (events ++ rest))
    (herror : ∀ e w events, R (.error e) w events → S (.error e) w events) :
    Triple P (x >>= f) S := by
  intro w hw
  have hmiddle := hx w hw
  rcases hrun : x.run w with ⟨result, w', events⟩
  rw [hrun] at hmiddle
  cases result with
  | ok a =>
      rw [run_bind_ok hrun]
      exact hok a events w' hmiddle
  | error e =>
      rw [run_bind_error hrun]
      exact herror e w' events hmiddle

/-- The rule of `try`: the handler starts where the body threw. -/
theorem Triple.tryCatch {handler : ε → Program ω χ ε α} (hx : Triple P x R)
    (hok : ∀ a w events, R (.ok a) w events → Q (.ok a) w events)
    (herror : ∀ e events, Triple (fun w => R (.error e) w events) (handler e)
      fun r w rest => Q r w (events ++ rest)) :
    Triple P (MonadExcept.tryCatch x handler) Q := by
  intro w hw
  have hmiddle := hx w hw
  rcases hrun : x.run w with ⟨result, w', events⟩
  rw [hrun] at hmiddle
  cases result with
  | ok a =>
      rw [show (MonadExcept.tryCatch x handler).run w = _ from run_tryCatch_ok hrun]
      exact hok a w' events hmiddle
  | error e =>
      rw [show (MonadExcept.tryCatch x handler).run w = _ from run_tryCatch_error hrun]
      exact herror e events w' hmiddle

/-! ## What a program never changes -/

/-- Returning or throwing, the program leaves this part of the world as it was. -/
def Keeps {γ : Type} (part : ω → γ) (x : Program ω χ ε α) : Prop :=
  ∀ w, part (x.run w).world = part w

theorem keeps_pure {γ : Type} (part : ω → γ) (a : α) :
    Keeps part (Pure.pure a : Program ω χ ε α) := fun _ => rfl

theorem keeps_throw {γ : Type} (part : ω → γ) (e : ε) :
    Keeps part (MonadExcept.throw e : Program ω χ ε α) := fun _ => rfl

theorem Keeps.bind {γ : Type} {part : ω → γ} (hx : Keeps part x) (hf : ∀ a, Keeps part (f a)) :
    Keeps part (x >>= f) := by
  intro w
  have hfirst := hx w
  rcases hrun : x.run w with ⟨result, w', events⟩
  rw [hrun] at hfirst
  cases result with
  | ok a =>
      rw [run_bind_ok hrun]
      exact (hf a w').trans hfirst
  | error e =>
      rw [run_bind_error hrun]
      exact hfirst

theorem Keeps.tryCatch {γ : Type} {part : ω → γ} {handler : ε → Program ω χ ε α}
    (hx : Keeps part x) (hhandler : ∀ e, Keeps part (handler e)) :
    Keeps part (MonadExcept.tryCatch x handler) := by
  intro w
  have hfirst := hx w
  rcases hrun : x.run w with ⟨result, w', events⟩
  rw [hrun] at hfirst
  cases result with
  | ok a =>
      rw [show (MonadExcept.tryCatch x handler).run w = _ from run_tryCatch_ok hrun]
      exact hfirst
  | error e =>
      rw [show (MonadExcept.tryCatch x handler).run w = _ from run_tryCatch_error hrun]
      exact (hhandler e w').trans hfirst

end Program

end Foundation
