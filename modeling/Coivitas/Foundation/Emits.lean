import Coivitas.Foundation.Program

/-! # What a program may show

A program whose events all have a property, however it ends; one rule for each way to build it. A
program that shows nothing is one whose events are impossible.
-/

namespace Foundation.Program

variable {ω χ ε α β : Type} {p : χ → Prop} {x : Program ω χ ε α} {f : α → Program ω χ ε β}

/-- Every event of every execution meets `p`. -/
def Emits (p : χ → Prop) (x : Program ω χ ε α) : Prop :=
  ∀ w, ∀ event ∈ (x.run w).events, p event

/-- A program without events. -/
def Silent (x : Program ω χ ε α) : Prop := Emits (fun _ => False) x

theorem emits_pure (a : α) : Emits p (Pure.pure a : Program ω χ ε α) := by
  intro w event hevent
  cases hevent

theorem emits_throw (e : ε) : Emits p (MonadExcept.throw e : Program ω χ ε α) := by
  intro w event hevent
  cases hevent

theorem emits_ask (reply : Reply ω ε α) : Emits p (ask reply : Program ω χ ε α) := by
  intro w event hevent
  cases hevent

theorem Emits.bind (hx : Emits p x) (hf : ∀ a, Emits p (f a)) : Emits p (x >>= f) := by
  intro w event hevent
  have hfirst := hx w
  rcases hrun : x.run w with ⟨result, w', events⟩
  rw [hrun] at hfirst
  cases result with
  | ok a =>
      rw [run_bind_ok hrun] at hevent
      rcases List.mem_append.mp hevent with hearly | hlate
      · exact hfirst event hearly
      · exact hf a w' event hlate
  | error e =>
      rw [run_bind_error hrun] at hevent
      exact hfirst event hevent

theorem Emits.tryCatch {handler : ε → Program ω χ ε α} (hx : Emits p x)
    (hhandler : ∀ e, Emits p (handler e)) : Emits p (MonadExcept.tryCatch x handler) := by
  intro w event hevent
  have hfirst := hx w
  rcases hrun : x.run w with ⟨result, w', events⟩
  rw [hrun] at hfirst
  cases result with
  | ok a =>
      rw [show (MonadExcept.tryCatch x handler).run w = _ from run_tryCatch_ok hrun] at hevent
      exact hfirst event hevent
  | error e =>
      rw [show (MonadExcept.tryCatch x handler).run w = _ from run_tryCatch_error hrun] at hevent
      rcases List.mem_append.mp hevent with hearly | hlate
      · exact hfirst event hearly
      · exact hhandler e w' event hlate

theorem run_ofExcept_eq_ok {value : Except ε α} {w w' : ω} {a : α} {events : List χ} :
    (ofExcept value : Program ω χ ε α).run w = ⟨.ok a, w', events⟩ ↔
      value = .ok a ∧ w = w' ∧ [] = events := by
  show (⟨value, w, []⟩ : Execution ω χ ε α) = _ ↔ _
  rw [Execution.mk.injEq]

theorem Silent.events_eq_nil (h : Silent x) {w w' : ω} {result : Except ε α} {events : List χ}
    (hrun : x.run w = ⟨result, w', events⟩) : events = [] := by
  refine List.eq_nil_iff_forall_not_mem.mpr fun event hevent => h w event ?_
  rw [hrun]
  exact hevent

end Foundation.Program
