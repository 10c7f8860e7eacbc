import Mathlib.Data.List.Flatten
import Mathlib.Data.List.Induction

/-! # Binary hash trees without domain separation

Texts over an arbitrary alphabet are hashed into the leaves of a binary tree and
the digests of two children, one after the other, into their parent. Leaves and
inner nodes are hashed by one function and nothing marks which is which; what
keeps them apart is the length of the hashed text. `mem_texts_of_climb` is the
soundness of audit paths: a path of any length that leads to the digest of a
tree starts at one of its texts, or it exhibits a collision.
-/

namespace Foundation.Merkle

variable {α : Type*}

/-- A tree over the texts hashed into its leaves. -/
inductive Tree (α : Type*) where
  | leaf (text : List α)
  | node (left right : Tree α)

namespace Tree

/-- The texts of the leaves from left to right. -/
def texts : Tree α → List (List α)
  | leaf text => [text]
  | node left right => left.texts ++ right.texts

variable (H : List α → List α)

def digest : Tree α → List α
  | leaf text => H text
  | node left right => H (left.digest ++ right.digest)

/-- Every text hashed to compute the digest. -/
def inputs : Tree α → List (List α)
  | leaf text => [text]
  | node left right => (left.digest H ++ right.digest H) :: (left.inputs ++ right.inputs)

theorem length_digest {n : Nat} (hlength : ∀ text, (H text).length = n) (tree : Tree α) :
    (tree.digest H).length = n := by
  cases tree with
  | leaf text => exact hlength text
  | node left right => exact hlength _

end Tree

/-! ## Audit paths -/

/-- One step of an audit path: the digest of the sibling and its side. -/
structure PathStep (α : Type*) where
  sibling : List α
  siblingOnLeft : Bool

/-- The text hashed by a step. -/
def PathStep.input (step : PathStep α) (current : List α) : List α :=
  if step.siblingOnLeft then step.sibling ++ current else current ++ step.sibling

theorem PathStep.length_input {n : Nat} {step : PathStep α} {current : List α}
    (hsibling : step.sibling.length = n) (hcurrent : current.length = n) :
    (step.input current).length = 2 * n := by
  unfold PathStep.input
  split <;> simp only [List.length_append, hsibling, hcurrent] <;> omega

variable (H : List α → List α)

/-- The digest at the end of an audit path. -/
def climb (current : List α) (path : List (PathStep α)) : List α :=
  path.foldl (fun digest step => H (step.input digest)) current

/-- The texts hashed along an audit path. -/
def climbInputs (current : List α) : List (PathStep α) → List (List α)
  | [] => []
  | step :: path => step.input current :: climbInputs (H (step.input current)) path

@[simp] theorem climb_nil (current : List α) : climb H current [] = current := rfl

theorem climb_concat (current : List α) (path : List (PathStep α)) (step : PathStep α) :
    climb H current (path ++ [step]) = H (step.input (climb H current path)) := by
  simp [climb]

theorem climbInputs_concat (current : List α) (path : List (PathStep α)) (step : PathStep α) :
    climbInputs H current (path ++ [step]) =
      climbInputs H current path ++ [step.input (climb H current path)] := by
  induction path generalizing current with
  | nil => rfl
  | cons first path ih =>
      simp only [List.cons_append, climbInputs, ih, climb, List.foldl_cons]

theorem length_climb {n : Nat} (hlength : ∀ text, (H text).length = n) {current : List α}
    (hcurrent : current.length = n) (path : List (PathStep α)) :
    (climb H current path).length = n := by
  induction path using List.reverseRecOn with
  | nil => exact hcurrent
  | append_singleton path step _ =>
      rw [climb_concat]
      exact hlength _

/-- A text of the first list and a different one of the second have one digest. -/
def Collides (xs ys : List (List α)) : Prop := ∃ x ∈ xs, ∃ y ∈ ys, x ≠ y ∧ H x = H y

theorem Collides.mono {xs xs' ys ys' : List (List α)} (h : Collides H xs ys)
    (hxs : xs ⊆ xs') (hys : ys ⊆ ys') : Collides H xs' ys' := by
  obtain ⟨x, hx, y, hy, hne, heq⟩ := h
  exact ⟨x, hxs hx, y, hys hy, hne, heq⟩

/-- One hash comparison: the texts agree or they collide. -/
theorem eq_or_collides {x y : List α} (h : H x = H y) {xs ys : List (List α)}
    (hx : x ∈ xs) (hy : y ∈ ys) : x = y ∨ Collides H xs ys := by
  by_cases heq : x = y
  · exact Or.inl heq
  · exact Or.inr ⟨x, hx, y, hy, heq, h⟩

/-- Audit paths are sound as long as no leaf text has the length of two digests.
The path is peeled from its end while the tree is descended from its root: the
last hashed text is that of the root, so the rest of the path leads to one of
the two children. -/
theorem mem_texts_of_climb {n : Nat} (hlength : ∀ text, (H text).length = n) {x : List α}
    (hx : x.length ≠ 2 * n) (path : List (PathStep α))
    (hpath : ∀ step ∈ path, step.sibling.length = n) (tree : Tree α)
    (htexts : ∀ text ∈ tree.texts, text.length ≠ 2 * n)
    (h : climb H (H x) path = tree.digest H) :
    x ∈ tree.texts ∨ Collides H (x :: climbInputs H (H x) path) (tree.inputs H) := by
  induction path using List.reverseRecOn generalizing tree with
  | nil =>
      have hhash : H x = tree.digest H := h
      cases tree with
      | leaf text =>
          refine (eq_or_collides H hhash List.mem_cons_self List.mem_cons_self).imp_left ?_
          intro heq
          simpa only [Tree.texts, List.mem_singleton] using heq
      | node left right =>
          refine (eq_or_collides H hhash List.mem_cons_self List.mem_cons_self).imp_left ?_
          -- the text of a leaf is not a pair of digests
          intro heq
          refine absurd ?_ hx
          rw [heq, List.length_append, Tree.length_digest H hlength, Tree.length_digest H hlength]
          omega
  | append_singleton path step ih =>
      have hstep : step.sibling.length = n := hpath step (by simp)
      have hpath' : ∀ step ∈ path, step.sibling.length = n :=
        fun step hmem => hpath step (by simp [hmem])
      have hcurrent := length_climb H hlength (hlength x) path
      have hinput : step.input (climb H (H x) path) ∈
          x :: climbInputs H (H x) (path ++ [step]) := by
        simp [climbInputs_concat]
      have hinputs : x :: climbInputs H (H x) path ⊆
          x :: climbInputs H (H x) (path ++ [step]) := by
        simp [climbInputs_concat]
      rw [climb_concat] at h
      cases tree with
      | leaf text =>
          refine (eq_or_collides H h hinput List.mem_cons_self).imp_left fun heq => ?_
          refine absurd ?_ (htexts text (by simp [Tree.texts]))
          rw [← heq]
          exact PathStep.length_input hstep hcurrent
      | node left right =>
          simp only [Tree.texts, List.mem_append] at htexts ⊢
          rcases eq_or_collides H h hinput List.mem_cons_self with heq | hcollides
          · unfold PathStep.input at heq
            split at heq
            next =>
              have hchild := (List.append_inj heq (by
                rw [hstep, Tree.length_digest H hlength])).2
              rcases ih hpath' right (fun text hmem => htexts text (Or.inr hmem)) hchild with
                hmem | hcollides
              · exact Or.inl (Or.inr hmem)
              · refine Or.inr (hcollides.mono H hinputs ?_)
                intro text hmem
                simp [Tree.inputs, hmem]
            next =>
              have hchild := (List.append_inj heq (by
                rw [hcurrent, Tree.length_digest H hlength])).1
              rcases ih hpath' left (fun text hmem => htexts text (Or.inl hmem)) hchild with
                hmem | hcollides
              · exact Or.inl (Or.inl hmem)
              · refine Or.inr (hcollides.mono H hinputs ?_)
                intro text hmem
                simp [Tree.inputs, hmem]
          · exact Or.inr hcollides

/-! ## Levels -/

variable {β γ : Type*}

/-- One level up: neighbours are joined, a last node without a neighbour is
promoted as it is. -/
def pairUp (join : β → β → β) : List β → List β
  | left :: right :: rest => join left right :: pairUp join rest
  | [last] => [last]
  | [] => []

/-- The levels from the given one up to the root. The first argument only bounds
the recursion. -/
def levels (join : β → β → β) : Nat → List β → List (List β)
  | 0, level => [level]
  | fuel + 1, level =>
      if level.length ≤ 1 then [level] else level :: levels join fuel (pairUp join level)

theorem length_pairUp (join : β → β → β) (level : List β) :
    (pairUp join level).length = (level.length + 1) / 2 := by
  fun_induction pairUp join level with
  | case1 left right rest ih =>
      simp only [List.length_cons, ih]
      omega
  | case2 last => simp
  | case3 => simp

theorem map_pairUp {join : β → β → β} {join' : γ → γ → γ} (f : β → γ)
    (hjoin : ∀ a b, f (join a b) = join' (f a) (f b)) (level : List β) :
    (pairUp join level).map f = pairUp join' (level.map f) := by
  fun_induction pairUp join level with
  | case1 left right rest ih => simp only [List.map_cons, pairUp, hjoin, ih]
  | case2 last => rfl
  | case3 => rfl

theorem map_levels (join : β → β → β) (join' : γ → γ → γ) (f : β → γ)
    (hjoin : ∀ a b, f (join a b) = join' (f a) (f b)) (fuel : Nat) (level : List β) :
    (levels join fuel level).map (List.map f) = levels join' fuel (level.map f) := by
  induction fuel generalizing level with
  | zero => rfl
  | succ fuel ih =>
      simp only [levels, List.length_map]
      split
      next => rfl
      next => rw [List.map_cons, ih, map_pairUp f hjoin]

theorem flatMap_pairUp {join : β → β → β} (f : β → List γ)
    (hjoin : ∀ a b, f (join a b) = f a ++ f b) (level : List β) :
    (pairUp join level).flatMap f = level.flatMap f := by
  fun_induction pairUp join level with
  | case1 left right rest ih => simp only [List.flatMap_cons, hjoin, ih, List.append_assoc]
  | case2 last => rfl
  | case3 => rfl

theorem levels_ne_nil (join : β → β → β) (fuel : Nat) (level : List β) :
    levels join fuel level ≠ [] := by
  cases fuel with
  | zero => simp [levels]
  | succ fuel =>
      unfold levels
      split <;> simp

/-- With enough fuel the last level is a single root, and joining keeps the
order of the leaves. -/
theorem exists_root (join : β → β → β) (f : β → List γ)
    (hjoin : ∀ a b, f (join a b) = f a ++ f b) (fuel : Nat) (level : List β)
    (hne : level ≠ []) (hfuel : level.length ≤ fuel + 1) :
    ∃ root, (levels join fuel level).getLast? = some [root] ∧ f root = level.flatMap f := by
  have hpos : 0 < level.length := List.length_pos_iff.mpr hne
  have hsingle : level.length ≤ 1 → ∃ root, level = [root] := fun hle =>
    List.length_eq_one_iff.mp (by omega)
  induction fuel generalizing level with
  | zero =>
      obtain ⟨root, rfl⟩ := hsingle (by omega)
      exact ⟨root, rfl, by simp⟩
  | succ fuel ih =>
      unfold levels
      split
      next hle =>
        obtain ⟨root, rfl⟩ := hsingle hle
        exact ⟨root, rfl, by simp⟩
      next hgt =>
        have hlen := length_pairUp join level
        have hne' : pairUp join level ≠ [] := List.length_pos_iff.mp (by omega)
        obtain ⟨root, hlast, hroot⟩ := ih (pairUp join level) hne' (by omega) (by omega)
          (fun hle => List.length_eq_one_iff.mp (by omega))
        refine ⟨root, ?_, hroot.trans (flatMap_pairUp f hjoin level)⟩
        obtain ⟨first, rest, hlevels⟩ := List.exists_cons_of_ne_nil
          (levels_ne_nil join fuel (pairUp join level))
        rw [hlevels] at hlast ⊢
        rwa [List.getLast?_cons_cons]

/-- The texts hashed between a level of digests and the next one. -/
def levelInputs : List (List α) → List (List α)
  | left :: right :: rest => (left ++ right) :: levelInputs rest
  | _ => []

theorem inputs_pairUp_subset (level : List (Tree α)) :
    (pairUp Tree.node level).flatMap (Tree.inputs H) ⊆
      level.flatMap (Tree.inputs H) ++ levelInputs (level.map (Tree.digest H)) := by
  fun_induction pairUp Tree.node level with
  | case1 left right rest ih =>
      intro text htext
      have hrest : text ∈ (pairUp Tree.node rest).flatMap (Tree.inputs H) →
          text ∈ rest.flatMap (Tree.inputs H) ∨
            text ∈ levelInputs (rest.map (Tree.digest H)) := fun hmem =>
        List.mem_append.mp (ih hmem)
      simp only [List.flatMap_cons, List.mem_append, Tree.inputs, List.mem_cons, List.map_cons,
        levelInputs] at htext ⊢
      tauto
  | case2 last => simp
  | case3 => simp

/-- Everything hashed for the root is hashed for the first level or on the way up. -/
theorem inputs_root_subset (fuel : Nat) (level : List (Tree α)) {root : Tree α}
    (hroot : (levels Tree.node fuel level).getLast? = some [root]) :
    root.inputs H ⊆ level.flatMap (Tree.inputs H) ++
      ((levels Tree.node fuel level).map (List.map (Tree.digest H))).flatMap levelInputs := by
  have hsingle : level = [root] → root.inputs H ⊆ level.flatMap (Tree.inputs H) := by
    rintro rfl
    simp
  induction fuel generalizing level with
  | zero =>
      simp only [levels, List.getLast?_singleton, Option.some.injEq] at hroot
      exact List.subset_append_of_subset_left _ (hsingle hroot)
  | succ fuel ih =>
      unfold levels at hroot ⊢
      split at hroot
      next hle =>
        simp only [List.getLast?_singleton, Option.some.injEq] at hroot
        exact List.subset_append_of_subset_left _ (hsingle hroot)
      next hgt =>
        rw [if_neg hgt]
        obtain ⟨first, rest, hlevels⟩ := List.exists_cons_of_ne_nil
          (levels_ne_nil Tree.node fuel (pairUp Tree.node level))
        rw [hlevels, List.getLast?_cons_cons, ← hlevels] at hroot
        intro text htext
        have hmem := ih (pairUp Tree.node level) hroot (by intro h; simp [h]) htext
        have hpair := @inputs_pairUp_subset _ H level text
        simp only [List.map_cons, List.flatMap_cons, List.mem_append] at hmem hpair ⊢
        tauto

end Foundation.Merkle
