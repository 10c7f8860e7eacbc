import Coivitas.Crypto.MerkleTree
import Coivitas.Crypto.Signing
import Coivitas.Foundation.AuditPath

/-! # The paths that `buildMerkleTree` returns are accepted

The segments of a path are the siblings of a leaf and of its ancestors. Reading the bytes
of the path gives the segments back one by one, so the verifier climbs to the root.
-/

namespace Coivitas.Crypto.Multisig

open Foundation Sha256

/-- A sibling as the bytes of a path spell it. -/
def segment (sibling : Merkle.Sibling (List UInt8)) : List UInt8 × UInt8 :=
  (sibling.node, if sibling.onLeft then 0 else 1)

theorem pathSegments_eq (levels : List (List (List UInt8))) (i : Nat) :
    pathSegments levels i = (Merkle.auditPath levels i).map segment := by
  induction levels generalizing i with
  | nil => rfl
  | cons level levels ih =>
      rw [pathSegments, Merkle.auditPath, Merkle.siblingAt, Merkle.siblingIndex]
      cases hsibling : level[if i % 2 = 1 then i - 1 else i + 1]? with
      | none => simp only [ih, Option.map_none, Option.toList_none, List.nil_append]
      | some node =>
          simp only [ih, Option.map_some, Option.toList_some, List.singleton_append,
            List.map_cons, segment, decide_eq_true_eq]

/-! ## Reading a path -/

section Reading

variable {path done rest : List (Merkle.Sibling (List UInt8))}
  {sibling : Merkle.Sibling (List UInt8)}

theorem length_pathBytes (hpath : ∀ sibling ∈ path, sibling.node.length = 32) :
    (pathBytes (path.map segment)).length = path.length * 33 := by
  induction path with
  | nil => rfl
  | cons sibling path ih =>
      obtain ⟨hsibling, hrest⟩ := List.forall_mem_cons.mp hpath
      have hpathBytes : pathBytes ((sibling :: path).map segment) =
          sibling.node ++ [(segment sibling).2] ++ pathBytes (path.map segment) := rfl
      rw [hpathBytes, List.length_append, List.length_append, ih hrest, hsibling,
        List.length_singleton, List.length_cons]
      omega

theorem pathBytes_append_cons :
    pathBytes ((done ++ sibling :: rest).map segment) =
      pathBytes (done.map segment) ++
        (sibling.node ++ (segment sibling).2 :: pathBytes (rest.map segment)) := by
  simp [pathBytes, segment]

/-- The turn of the loop behind the segments that are done. -/
theorem climbSegment_pathBytes (hdone : ∀ sibling ∈ done, sibling.node.length = 32)
    (hsibling : sibling.node.length = 32) (current : List UInt8) :
    climbSegment (pathBytes ((done ++ sibling :: rest).map segment)) current done.length =
      .ok (sibling.merge combine current) := by
  have hlength := length_pathBytes hdone
  have hnode : siblingHash (pathBytes ((done ++ sibling :: rest).map segment)) done.length =
      sibling.node := by
    rw [siblingHash, pathBytes_append_cons, ← hlength, List.drop_left, ← hsibling, List.take_left]
  have hdirection : (pathBytes ((done ++ sibling :: rest).map segment)).getD
      (done.length * 33 + 32) 0 = (segment sibling).2 := by
    rw [pathBytes_append_cons, ← hlength, List.getD_eq_getElem?_getD,
      List.getElem?_append_right (by omega), Nat.add_sub_cancel_left, ← hsibling,
      List.getElem?_append_right (le_refl _), Nat.sub_self]
    rfl
  rw [climbSegment, hnode, hdirection, segment, Merkle.Sibling.merge]
  cases sibling.onLeft <;> rfl

theorem foldlM_pathBytes (hdone : ∀ sibling ∈ done, sibling.node.length = 32)
    (hrest : ∀ sibling ∈ rest, sibling.node.length = 32) (current : List UInt8) :
    (List.range' done.length rest.length).foldlM
        (climbSegment (pathBytes ((done ++ rest).map segment))) current =
      .ok (Merkle.ascend combine current rest) := by
  induction rest generalizing done current with
  | nil => rfl
  | cons sibling rest ih =>
      obtain ⟨hsibling, hrest⟩ := List.forall_mem_cons.mp hrest
      have hnext : ∀ other ∈ done ++ [sibling], other.node.length = 32 := by
        intro other hother
        rcases List.mem_append.mp hother with hmem | hmem
        · exact hdone other hmem
        · rwa [List.mem_singleton.mp hmem]
      have hloop := ih hnext hrest (sibling.merge combine current)
      rw [List.length_append, List.length_singleton, List.append_assoc, List.singleton_append]
        at hloop
      rw [List.length_cons, List.range'_succ, List.foldlM_cons,
        climbSegment_pathBytes hdone hsibling]
      exact hloop

/-- The verifier climbs along the siblings and compares. -/
theorem verifyMerkleInclusion_pathBytes {leaf root : List UInt8} (hleaf : leaf.length = 32)
    (hroot : root.length = 32) (hpath : ∀ sibling ∈ path, sibling.node.length = 32) :
    verifyMerkleInclusion leaf (pathBytes (path.map segment)) root =
      .ok (constantTimeEquals (Merkle.ascend combine leaf path) root) := by
  have hlength := length_pathBytes hpath
  have hloop := @foldlM_pathBytes [] path (by simp) hpath leaf
  rw [List.nil_append, List.length_nil, ← List.range_eq_range'] at hloop
  simp only [verifyMerkleInclusion, bind_eq_ok, exists_unit, require_eq_ok]
  refine ⟨hleaf, hroot, by rw [hlength]; omega, ?_⟩
  rw [hlength, Nat.mul_div_cancel _ (by decide)]
  split
  next hempty =>
    obtain rfl : path = [] := List.eq_nil_of_length_eq_zero (by omega)
    rfl
  next =>
    simp only [bind_eq_ok, pure_eq_ok]
    exact ⟨_, hloop, rfl⟩

end Reading

/-! ## Trees that are built -/

theorem length_combine (left right : List UInt8) : (combine left right).length = 32 :=
  length_sha256 _

/-- What the builder returns: the root of the levels, and for every leaf the bytes of a path that
leads there. -/
structure Spelled (leaves : List (List UInt8)) (tree : MerkleTree) : Prop where
  length_root : tree.root.length = 32
  path : ∀ (i : Nat) (leaf : List UInt8), leaves[i]? = some leaf →
    ∃ path : List (Merkle.Sibling (List UInt8)),
      tree.paths[i]? = some (pathBytes (path.map segment)) ∧
        (∀ sibling ∈ path, sibling.node.length = 32) ∧
        Merkle.ascend combine leaf path = tree.root

/-- The path of a leaf as the tree has it. -/
theorem Spelled.included {leaves : List (List UInt8)} {tree : MerkleTree}
    (h : Spelled leaves tree) {i : Nat} {leaf path : List UInt8} (hleaf : leaves[i]? = some leaf)
    (hlength : leaf.length = 32) (hpath : tree.paths[i]? = some path) :
    verifyMerkleInclusion leaf path tree.root = .ok true := by
  obtain ⟨siblings, hspelled, hsiblings, hascend⟩ := h.path i leaf hleaf
  obtain rfl := Option.some.inj (hspelled.symm.trans hpath)
  rw [verifyMerkleInclusion_pathBytes hlength h.length_root hsiblings, hascend,
    constantTimeEquals_eq_true.mpr rfl]

theorem spelled_singleton {leaf : List UInt8} (hleaf : leaf.length = 32) :
    Spelled [leaf] ⟨leaf, [[]]⟩ := by
  refine ⟨hleaf, fun i other hother => ⟨[], ?_, by simp, ?_⟩⟩
  · obtain ⟨hi, -⟩ := List.getElem?_eq_some_iff.mp hother
    obtain rfl : i = 0 := by simpa using hi
    rfl
  · exact List.mem_singleton.mp (List.mem_of_getElem? hother)

theorem spelled_levels {leaves : List (List UInt8)} {root : List UInt8}
    (hleaves : ∀ leaf ∈ leaves, leaf.length = 32)
    (hroot : (merkleLevels leaves).getLast? = some [root]) :
    Spelled leaves ⟨root, (List.range leaves.length).map fun leafIdx =>
      pathBytes (pathSegments (merkleLevels leaves).dropLast leafIdx)⟩ := by
  have hnodes : ∀ level ∈ merkleLevels leaves, ∀ node ∈ level, node.length = 32 :=
    Merkle.forall_mem_levels combine (fun left right _ _ => length_combine left right) _ hleaves
  refine ⟨hnodes _ (List.mem_of_getLast? hroot) root List.mem_cons_self, fun i leaf hleaf =>
    ⟨Merkle.auditPath (merkleLevels leaves).dropLast i, ?_, ?_, ?_⟩⟩
  · obtain ⟨hi, -⟩ := List.getElem?_eq_some_iff.mp hleaf
    rw [List.getElem?_map, List.getElem?_range hi, Option.map_some, pathSegments_eq]
  · exact Merkle.forall_mem_auditPath
      (fun level hlevel => hnodes level (List.mem_of_mem_dropLast hlevel)) i
  · exact Merkle.ascend_auditPath combine leaves.length hleaf hroot

theorem exists_buildMerkleTree {leaves : List (List UInt8)} (hne : leaves ≠ [])
    (hleaves : ∀ leaf ∈ leaves, leaf.length = 32) :
    ∃ tree, buildMerkleTree leaves = .ok tree ∧ Spelled leaves tree := by
  have hpassed : ∀ entry ∈ leaves.zipIdx, assertLeaf entry = .ok () := fun entry hentry =>
    require_eq_ok.mpr (hleaves _ (List.fst_mem_of_mem_zipIdx hentry))
  simp only [buildMerkleTree, bind_eq_ok, exists_unit, require_eq_ok, forEach_eq_ok]
  obtain _ | ⟨first, _ | ⟨second, rest⟩⟩ := leaves
  · exact absurd rfl hne
  · exact ⟨_, ⟨by simp, hpassed, rfl⟩, spelled_singleton (hleaves first List.mem_cons_self)⟩
  · obtain ⟨root, hroot, -⟩ := Merkle.exists_root combine (fun _ => ([] : List Unit))
      (fun _ _ => rfl) (first :: second :: rest).length (first :: second :: rest)
      (List.cons_ne_nil _ _) (by omega)
    have hlevels : (merkleLevels (first :: second :: rest)).getLast? = some [root] := hroot
    refine ⟨_, ⟨by simp, hpassed, ?_⟩, spelled_levels hleaves hlevels⟩
    simp only [hlevels, Option.bind_some, List.head?_cons]
    rfl

theorem spelled_of_buildMerkleTree {leaves : List (List UInt8)} {tree : MerkleTree}
    (hbuild : buildMerkleTree leaves = .ok tree) (hleaves : ∀ leaf ∈ leaves, leaf.length = 32) :
    Spelled leaves tree := by
  have hne : leaves ≠ [] := by
    rintro rfl
    simp [buildMerkleTree] at hbuild
  obtain ⟨other, hother, hspelled⟩ := exists_buildMerkleTree hne hleaves
  obtain rfl := Except.ok.inj (hbuild.symm.trans hother)
  exact hspelled

/-- Two leaves are each other's audit path. -/
theorem buildMerkleTree_pair {left right : List UInt8} (hleft : left.length = 32)
    (hright : right.length = 32) :
    buildMerkleTree [left, right] = .ok ⟨combine left right, [right ++ [1], left ++ [0]]⟩ := by
  have hlevels : merkleLevels [left, right] = [[left, right], [combine left right]] := rfl
  simp only [buildMerkleTree, bind_eq_ok, exists_unit, require_eq_ok, forEach_eq_ok, hlevels]
  refine ⟨by simp, ?_, ?_⟩
  · simp [assertLeaf, hleft, hright]
  · simp [pathBytes, pathSegments, List.range_succ, pure, Except.pure]

/-- Every leaf of a tree is included by its own path, through the text of the path. -/
theorem merkle_completeness (leaves : List (List UInt8)) (hne : leaves ≠ [])
    (hleaves : ∀ leaf ∈ leaves, leaf.length = 32) :
    ∃ tree, buildMerkleTree leaves = .ok tree ∧ ∀ (i : Nat) (leaf : List UInt8),
      leaves[i]? = some leaf → ∃ path, tree.paths[i]? = some path ∧
        ∃ bytes, decodeMerklePath (encodeMerklePath path) = .ok bytes ∧
          verifyMerkleInclusion leaf bytes tree.root = .ok true := by
  obtain ⟨tree, hbuild, hspelled⟩ := exists_buildMerkleTree hne hleaves
  refine ⟨tree, hbuild, fun i leaf hleaf => ?_⟩
  obtain ⟨path, hpath, hsiblings, hascend⟩ := hspelled.path i leaf hleaf
  refine ⟨_, hpath, _, decodeMerklePath_eq_ok.mpr (fromBase64Url_toBase64Url _), ?_⟩
  rw [verifyMerkleInclusion_pathBytes (hleaves leaf (List.mem_of_getElem? hleaf))
    hspelled.length_root hsiblings, hascend, constantTimeEquals_eq_true.mpr rfl]

/-- Three leaves: the last one is promoted past the first level. -/
theorem merkle_completeness_three :
    ∃ tree, buildMerkleTree [List.replicate 32 1, List.replicate 32 2, List.replicate 32 3] =
        .ok tree ∧
      ∀ (i : Nat) (leaf : List UInt8),
        [List.replicate 32 1, List.replicate 32 2, List.replicate 32 3][i]? = some leaf →
          ∃ path, tree.paths[i]? = some path ∧
            ∃ bytes, decodeMerklePath (encodeMerklePath path) = .ok bytes ∧
              verifyMerkleInclusion leaf bytes tree.root = .ok true :=
  merkle_completeness _ (List.cons_ne_nil _ _) (by simp)

end Coivitas.Crypto.Multisig
