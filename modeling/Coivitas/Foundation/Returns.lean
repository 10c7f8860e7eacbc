import Coivitas.Foundation.Program

/-! # Programs that return

Total correctness of programs with effects: started in a world that meets an
invariant, the program returns, and the invariant holds again. There is one rule for
each way to build a program.
-/

namespace Foundation

namespace Program

variable {ω χ ε α β : Type} {I : ω → Prop} {x : Program ω χ ε α} {f : α → Program ω χ ε β}
  {Q Q' : α → Prop} {R : β → Prop}

/-- Started in a world that meets `I`, the program returns a value that meets `Q`, in a
world that meets `I`. -/
def Returns (I : ω → Prop) (x : Program ω χ ε α) (Q : α → Prop) : Prop :=
  ∀ w, I w → ∃ a w' events, x.run w = ⟨.ok a, w', events⟩ ∧ I w' ∧ Q a

theorem Returns.mono (h : Returns I x Q) (hpost : ∀ a, Q a → Q' a) : Returns I x Q' := by
  intro w hw
  obtain ⟨a, w', events, hrun, hw', ha⟩ := h w hw
  exact ⟨a, w', events, hrun, hw', hpost a ha⟩

theorem Returns.pure {a : α} (h : Q a) : Returns I (Pure.pure a : Program ω χ ε α) Q :=
  fun w hw => ⟨a, w, [], rfl, hw, h⟩

theorem Returns.bind (hx : Returns I x Q) (hf : ∀ a, Q a → Returns I (f a) R) :
    Returns I (x >>= f) R := by
  intro w hw
  obtain ⟨a, w₁, first, hrun, hw₁, ha⟩ := hx w hw
  obtain ⟨b, w₂, rest, hrest, hw₂, hb⟩ := hf a ha w₁ hw₁
  exact ⟨b, w₂, first ++ rest, run_bind_eq_ok.mpr ⟨a, w₁, first, rest, hrun, hrest, rfl⟩, hw₂, hb⟩

theorem Returns.ask {reply : Reply ω ε α}
    (h : ∀ w, I w → ∃ a w', reply w = (.ok a, w') ∧ I w' ∧ Q a) :
    Returns I (Program.ask reply : Program ω χ ε α) Q := by
  intro w hw
  obtain ⟨a, w', hreply, hw', ha⟩ := h w hw
  exact ⟨a, w', [], run_ask_eq_ok.mpr ⟨hreply, rfl⟩, hw', ha⟩

theorem Returns.sample {read : ω → α × ω} (h : ∀ w, I w → I (read w).2 ∧ Q (read w).1) :
    Returns I (Program.sample read : Program ω χ ε α) Q :=
  fun w hw => ⟨(read w).1, (read w).2, [], rfl, (h w hw).1, (h w hw).2⟩

theorem Returns.emit {event : χ} :
    Returns I (Program.emit event : Program ω χ ε Unit) fun _ => True :=
  fun w hw => ⟨(), w, [event], rfl, hw, trivial⟩

/-- A body that returns never reaches its handler. -/
theorem Returns.tryCatch {handler : ε → Program ω χ ε α} (h : Returns I x Q) :
    Returns I (MonadExcept.tryCatch x handler) Q := by
  intro w hw
  obtain ⟨a, w', events, hrun, hw', ha⟩ := h w hw
  exact ⟨a, w', events, run_tryCatch_ok hrun, hw', ha⟩

theorem Returns.forEach {items : List α} {body : α → Program ω χ ε Unit}
    (h : ∀ item ∈ items, Returns I (body item) fun _ => True) :
    Returns I (Program.forEach items body) fun _ => True := by
  induction items with
  | nil => exact .pure trivial
  | cons item rest ih =>
      obtain ⟨hitem, hrest⟩ := List.forall_mem_cons.mp h
      exact hitem.bind fun _ _ => ih hrest

/-- A step for each item in turn, from the world that the one before it left. -/
def InTurn (step : α → ω → ω → Prop) : List α → ω → ω → Prop
  | [], w, w' => w = w'
  | item :: rest, w, w' => ∃ w₁, step item w w₁ ∧ InTurn step rest w₁ w'

theorem InTurn.mono {step step' : α → ω → ω → Prop}
    (hstep : ∀ item w w', step item w w' → step' item w w') {items : List α} {w w' : ω}
    (h : InTurn step items w w') : InTurn step' items w w' := by
  induction items generalizing w with
  | nil => exact h
  | cons item rest ih =>
      obtain ⟨w₁, hitem, hrest⟩ := h
      exact ⟨w₁, hstep item w w₁ hitem, ih hrest⟩

theorem inTurn_map {step : β → ω → ω → Prop} {f : α → β} {items : List α} {w w' : ω} :
    InTurn step (items.map f) w w' ↔ InTurn (fun item => step (f item)) items w w' := by
  induction items generalizing w with
  | nil => exact Iff.rfl
  | cons item rest ih =>
      simp only [List.map_cons, InTurn]
      exact exists_congr fun w₁ => and_congr_right fun _ => ih

/-- A loop that ran to its end ran its body to the end for each item in turn. -/
theorem run_forEach_ok {items : List α} {body : α → Program ω χ ε Unit} {w w' : ω} {u : Unit}
    {events : List χ} (h : (Program.forEach items body).run w = ⟨.ok u, w', events⟩) :
    InTurn (fun item w w' => ∃ events, (body item).run w = ⟨.ok (), w', events⟩) items w w' := by
  induction items generalizing w events with
  | nil => exact (run_pure_eq_ok.mp h).2.1
  | cons item rest ih =>
      rw [Program.forEach, run_bind_eq_ok] at h
      obtain ⟨_, w₁, first, more, hitem, hrest, -⟩ := h
      exact ⟨w₁, ⟨first, hitem⟩, ih hrest⟩

end Program

end Foundation
