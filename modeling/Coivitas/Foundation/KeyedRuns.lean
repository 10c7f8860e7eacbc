import Coivitas.Foundation.OrderedMap

/-! # Machines kept under keys

A map holds the state of one machine for each key, and a call reaches the machine of its key
only. What a machine answers is what it would answer alone.
-/

namespace Foundation

namespace Keyed

variable {κ σ ι ο : Type*}

/-- What a machine answers, and the state it is left in. -/
abbrev Machine (σ ι ο : Type*) := Option σ → ι → ο × σ

/-- The inputs with what the machine answers to each of them. -/
def answers (machine : Machine σ ι ο) : Option σ → List ι → List (ι × ο)
  | _, [] => []
  | state, input :: inputs =>
      (input, (machine state input).1) :: answers machine (some (machine state input).2) inputs

variable [DecidableEq κ] (machine : κ → Machine σ ι ο)

/-- A call to the machine of a key. -/
def call (m : OrderedMap κ σ) (key : κ) (input : ι) : ο × OrderedMap κ σ :=
  let (output, state) := machine key (m.get? key) input
  (output, m.set key state)

def run : OrderedMap κ σ → List (κ × ι) → List (κ × ι × ο)
  | _, [] => []
  | m, (key, input) :: calls =>
      (key, input, (call machine m key input).1) :: run (call machine m key input).2 calls

/-- The part of a list that belongs to one key. -/
def project {α : Type*} (key : κ) (items : List (κ × α)) : List α :=
  (items.filter fun item => item.1 = key).map Prod.snd

theorem project_cons_self {α : Type*} (key : κ) (a : α) (items : List (κ × α)) :
    project key ((key, a) :: items) = a :: project key items := by
  simp [project]

theorem project_cons_of_ne {α : Type*} {key other : κ} (hne : other ≠ key) (a : α)
    (items : List (κ × α)) : project key ((other, a) :: items) = project key items := by
  simp [project, hne]

/-- The answers under a key are those of its machine to the calls under that key. -/
theorem project_run (m : OrderedMap κ σ) (calls : List (κ × ι)) (key : κ) :
    project key (run machine m calls) =
      answers (machine key) (m.get? key) (project key calls) := by
  induction calls generalizing m with
  | nil => rfl
  | cons item calls ih =>
      obtain ⟨other, input⟩ := item
      rw [run]
      by_cases hkey : other = key
      · subst hkey
        rw [project_cons_self, project_cons_self, answers, ih]
        simp [call, OrderedMap.get?_set]
      · rw [project_cons_of_ne hkey, project_cons_of_ne hkey, ih]
        simp [call, OrderedMap.get?_set, hkey]

theorem project_filter (calls : List (κ × ι)) (key : κ) :
    project key (calls.filter fun item => item.1 = key) = project key calls := by
  simp [project, List.filter_filter]

/-- The calls under the other keys change nothing for a key. -/
theorem project_run_filter (m : OrderedMap κ σ) (calls : List (κ × ι)) (key : κ) :
    project key (run machine m calls) =
      project key (run machine m (calls.filter fun item => item.1 = key)) := by
  rw [project_run, project_run, project_filter]

/-! ## Runs of one machine -/

section

variable {machine : Machine σ ι ο}

/-- What holds of an answer and the next one in a state that meets the invariant. -/
theorem isChain_answers {inv : Option σ → Prop} {rel : ι × ο → ι × ο → Prop}
    (hkeep : ∀ state input, inv state → inv (some (machine state input).2))
    (hrel : ∀ state input next, inv state → rel (input, (machine state input).1)
      (next, (machine (some (machine state input).2) next).1))
    {state : Option σ} (hinv : inv state) (inputs : List ι) :
    (answers machine state inputs).IsChain rel := by
  induction inputs generalizing state with
  | nil => exact List.IsChain.nil
  | cons input inputs ih =>
      have hrest := ih (hkeep state input hinv)
      cases inputs with
      | nil => exact List.IsChain.singleton _
      | cons next inputs => exact List.IsChain.cons_cons (hrel state input next hinv) hrest

theorem map_fst_answers (state : Option σ) (inputs : List ι) :
    (answers machine state inputs).map Prod.fst = inputs := by
  induction inputs generalizing state with
  | nil => rfl
  | cons input inputs ih => rw [answers, List.map_cons, ih]

end

end Keyed

end Foundation
