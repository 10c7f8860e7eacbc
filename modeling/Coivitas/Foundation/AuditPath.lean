import Coivitas.Foundation.MerkleTree
import Mathlib

/-! # Completeness of audit paths

A node of a level is found one level up at half its index, joined with its sibling if it
has one. The siblings on all levels therefore lead from every node to the root. Levels
with a last node of their own are covered in both of the usual ways: the node is promoted
as it is, or it is doubled and joined with itself.
-/

namespace Foundation.Merkle

variable {β : Type*}

/-- A node beside the way to the root. -/
structure Sibling (β : Type*) where
  node : β
  onLeft : Bool

variable (join : β → β → β)

def Sibling.merge (sibling : Sibling β) (current : β) : β :=
  if sibling.onLeft then join sibling.node current else join current sibling.node

/-- The node at the end of the way. -/
def ascend (current : β) (path : List (Sibling β)) : β :=
  path.foldl (fun current sibling => sibling.merge join current) current

theorem ascend_append (current : β) (path path' : List (Sibling β)) :
    ascend join current (path ++ path') = ascend join (ascend join current path) path' :=
  List.foldl_append

/-! ## One level -/

def siblingIndex (i : Nat) : Nat := if i % 2 = 1 then i - 1 else i + 1

def siblingAt (level : List β) (i : Nat) : Option (Sibling β) :=
  level[siblingIndex i]?.map fun node => ⟨node, i % 2 = 1⟩

theorem siblingIndex_add_two (i : Nat) : siblingIndex (i + 2) = siblingIndex i + 2 := by
  unfold siblingIndex
  split <;> split <;> omega

theorem siblingAt_cons_cons (left right : β) (rest : List β) (i : Nat) :
    siblingAt (left :: right :: rest) (i + 2) = siblingAt rest i := by
  rw [siblingAt, siblingIndex_add_two, List.getElem?_cons_succ, List.getElem?_cons_succ,
    Nat.add_mod_right]
  rfl

/-- A node goes up to half its index. -/
theorem getElem?_pairUp {level : List β} {i : Nat} {x : β} (hx : level[i]? = some x) :
    (pairUp join level)[i / 2]? = some (ascend join x (siblingAt level i).toList) := by
  fun_induction pairUp join level generalizing i with
  | case1 left right rest ih =>
      obtain _ | _ | i := i
      · obtain rfl := Option.some.inj hx
        rfl
      · obtain rfl := Option.some.inj hx
        rfl
      · rw [List.getElem?_cons_succ, List.getElem?_cons_succ] at hx
        rw [Nat.add_assoc, siblingAt_cons_cons, Nat.add_div_right i (by decide),
          List.getElem?_cons_succ]
        exact ih hx
  | case2 last =>
      obtain ⟨hi, rfl⟩ := List.getElem?_eq_some_iff.mp hx
      obtain rfl : i = 0 := by simpa using hi
      rfl
  | case3 => cases hx

/-! ## All levels -/

/-- The siblings of a node and of its ancestors. -/
def auditPath : List (List β) → Nat → List (Sibling β)
  | [], _ => []
  | level :: rest, i => (siblingAt level i).toList ++ auditPath rest (i / 2)

/-- The audit path of a node leads to the root. -/
theorem ascend_auditPath (fuel : Nat) {level : List β} {i : Nat} {x root : β}
    (hx : level[i]? = some x) (hroot : (levels join fuel level).getLast? = some [root]) :
    ascend join x (auditPath (levels join fuel level).dropLast i) = root := by
  have htop : level = [root] → x = root := by
    rintro rfl
    exact List.mem_singleton.mp (List.mem_of_getElem? hx)
  induction fuel generalizing level i x with
  | zero => exact htop (by simpa [levels] using hroot)
  | succ fuel ih =>
      unfold levels at hroot ⊢
      split at hroot
      next hle =>
        rw [if_pos hle]
        exact htop (by simpa using hroot)
      next hgt =>
        have hne := levels_ne_nil join fuel (pairUp join level)
        have hup := getElem?_pairUp join hx
        rw [List.getLast?_cons_of_ne_nil hne] at hroot
        rw [if_neg hgt, List.dropLast_cons_of_ne_nil hne, auditPath, ascend_append]
        refine ih hup hroot fun hsingle => ?_
        rw [hsingle] at hup
        exact List.mem_singleton.mp (List.mem_of_getElem? hup)

theorem forall_mem_pairUp {p : β → Prop} (hjoin : ∀ left right, p left → p right →
    p (join left right)) {level : List β} (hlevel : ∀ x ∈ level, p x) :
    ∀ x ∈ pairUp join level, p x := by
  fun_induction pairUp join level with
  | case1 left right rest ih =>
      obtain ⟨hleft, hright, hrest⟩ : p left ∧ p right ∧ ∀ x ∈ rest, p x := by simpa using hlevel
      exact List.forall_mem_cons.mpr ⟨hjoin left right hleft hright, ih hrest⟩
  | case2 last => exact hlevel
  | case3 => exact hlevel

/-- What holds of the leaves and of joined nodes holds of every node. -/
theorem forall_mem_levels {p : β → Prop} (hjoin : ∀ left right, p left → p right →
    p (join left right)) (fuel : Nat) {level : List β} (hlevel : ∀ x ∈ level, p x) :
    ∀ other ∈ levels join fuel level, ∀ x ∈ other, p x := by
  induction fuel generalizing level with
  | zero => simpa [levels] using hlevel
  | succ fuel ih =>
      unfold levels
      split
      next => simpa using hlevel
      next => exact List.forall_mem_cons.mpr ⟨hlevel, ih (forall_mem_pairUp join hjoin hlevel)⟩

theorem forall_mem_auditPath {p : β → Prop} {nodes : List (List β)}
    (hnodes : ∀ level ∈ nodes, ∀ x ∈ level, p x) (i : Nat) :
    ∀ sibling ∈ auditPath nodes i, p sibling.node := by
  induction nodes generalizing i with
  | nil => simp [auditPath]
  | cons level nodes ih =>
      obtain ⟨hlevel, hrest⟩ := List.forall_mem_cons.mp hnodes
      intro sibling hsibling
      rcases List.mem_append.mp hsibling with hat | hmem
      · obtain ⟨node, hnode, rfl⟩ := Option.map_eq_some_iff.mp (Option.mem_toList.mp hat)
        exact hlevel node (List.mem_of_getElem? hnode)
      · exact ih hrest (i / 2) sibling hmem

/-! ## The length of a path -/

/-- A level with at most `2 ^ depth` nodes has at most `depth` levels above it. -/
theorem length_auditPath_le (fuel : Nat) {level : List β} {depth : Nat}
    (hlevel : level.length ≤ 2 ^ depth) (i : Nat) :
    (auditPath (levels join fuel level).dropLast i).length ≤ depth := by
  induction fuel generalizing level depth i with
  | zero => simp [levels, auditPath]
  | succ fuel ih =>
      unfold levels
      split
      next => simp [auditPath]
      next hgt =>
        cases depth with
        | zero => exact absurd hlevel (by omega)
        | succ depth =>
            have hup : (pairUp join level).length ≤ 2 ^ depth := by
              rw [length_pairUp]
              rw [Nat.pow_succ] at hlevel
              omega
            have hsibling : (siblingAt level i).toList.length ≤ 1 := by
              cases siblingAt level i <;> simp
            rw [List.dropLast_cons_of_ne_nil (levels_ne_nil join fuel _), auditPath,
              List.length_append]
            have hrest := ih hup (i / 2)
            omega

/-- Under the root of two or more leaves every leaf has a sibling on its way up. -/
theorem auditPath_ne_nil (fuel : Nat) {level : List β} (hfuel : level.length ≤ fuel)
    (hlevel : 2 ≤ level.length) {i : Nat} (hi : i < level.length) :
    auditPath (levels join fuel level).dropLast i ≠ [] := by
  induction fuel generalizing level i with
  | zero => exact absurd hlevel (by omega)
  | succ fuel ih =>
      unfold levels
      rw [if_neg (by omega), List.dropLast_cons_of_ne_nil (levels_ne_nil join fuel _), auditPath]
      by_cases hsibling : siblingIndex i < level.length
      · rw [siblingAt, List.getElem?_eq_getElem hsibling]
        simp
      · -- the last node of an odd level is promoted
        have hlast : i + 1 = level.length ∧ i % 2 = 0 := by
          unfold siblingIndex at hsibling
          split at hsibling <;> omega
        refine List.append_ne_nil_of_right_ne_nil _ (ih ?_ ?_ ?_)
        · rw [length_pairUp]
          omega
        · rw [length_pairUp]
          omega
        · rw [length_pairUp]
          omega

/-! ## Levels with a doubled last node -/

/-- The last node is doubled where the number of nodes is odd. -/
def padded (level : List β) : List β :=
  if level.length % 2 ≠ 0 then level ++ level.getLast?.toList else level

theorem length_padded (level : List β) : (padded level).length = (level.length + 1) / 2 * 2 := by
  unfold padded
  split
  next hodd =>
    have hne : level ≠ [] := by
      rintro rfl
      exact hodd rfl
    rw [List.getLast?_eq_some_getLast hne, Option.toList_some, List.length_append,
      List.length_singleton]
    omega
  next heven => omega

theorem getElem?_padded {level : List β} {i : Nat} {x : β} (hx : level[i]? = some x) :
    (padded level)[i]? = some x := by
  unfold padded
  split
  next =>
    obtain ⟨hi, -⟩ := List.getElem?_eq_some_iff.mp hx
    rwa [List.getElem?_append_left hi]
  next => exact hx

end Foundation.Merkle
