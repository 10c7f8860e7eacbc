import Coivitas.Crypto.HashChainBuilder

/-! # What a checkpoint enforces

The count fields of a checkpoint are compared before the empty chain is let through, the
fields about the last entry behind it. An empty chain therefore passes a checkpoint that
names a last entry, unless one of the count fields stops it.
-/

namespace Coivitas.Crypto

open Foundation

section Enforcement

variable {P : HccPorts} {checkpoint : Checkpoint} {entries : List HashChainEntry}
  {identity : Option ChainIdentity}

/-- A chain with a last entry is compared with every field. -/
theorem Checkpoint.enforced_cons {genesis : HashChainEntry} {rest : List HashChainEntry}
    (h : verifyHashChain P (genesis :: rest) ⟨identity, some checkpoint⟩ = .ok ()) :
    checkpoint.Enforced (genesis :: rest) := by
  have hlast := List.getLast?_eq_some_getLast (List.cons_ne_nil genesis rest)
  simp only [verifyHashChain, bind_eq_ok, exists_unit, verifyCount_eq_ok, verifyTail_eq_ok] at h
  obtain ⟨⟨-, hcount⟩, -, -, -, -, -, hposition, hhash⟩ := h
  exact ⟨fun _ => List.cons_ne_nil genesis rest, hcount,
    fun expected hexpected => ⟨_, hlast, hposition expected hexpected⟩,
    fun expected hexpected => ⟨_, hlast, hhash expected hexpected⟩⟩

end Enforcement

/-- Acceptance enforces a checkpoint exactly when there are entries or the count fields cover
the empty list. -/
theorem checkpoint_enforced_iff (P : HccPorts) (entries : List HashChainEntry)
    (identity : Option ChainIdentity) (checkpoint : Checkpoint) :
    (verifyHashChain P entries ⟨identity, some checkpoint⟩ = .ok () →
        checkpoint.Enforced entries) ↔
      entries ≠ [] ∨ checkpoint.CoversEmpty := by
  cases entries with
  | cons genesis rest =>
      exact iff_of_true Checkpoint.enforced_cons (Or.inl (List.cons_ne_nil genesis rest))
  | nil =>
      rw [verifyHashChain_nil, Checkpoint.enforced_nil]
      constructor
      · intro h
        right
        by_cases hrequired : checkpoint.requireNonEmpty = some true
        · exact Or.inl hrequired
        · by_cases hcount : ∀ expected ∈ checkpoint.expectedEntryCount, expected = 0
          · exact Or.inr (Or.inr (h ⟨hrequired, hcount⟩).2.2)
          · simp only [not_forall] at hcount
            obtain ⟨expected, hexpected, hne⟩ := hcount
            exact Or.inr (Or.inl ⟨expected, hexpected, hne⟩)
      · rintro (hne | hrequired | ⟨expected, hexpected, hne⟩ | hlast) ⟨hnot, hcount⟩
        · exact absurd rfl hne
        · exact absurd hrequired hnot
        · exact absurd (hcount expected hexpected) hne
        · exact ⟨hnot, hcount, hlast⟩

/-- The empty list passes a checkpoint whose last position is 5. -/
theorem deleted_chain_accepted :
    ¬ ∀ (P : HccPorts) (entries : List HashChainEntry) (checkpoint : Checkpoint),
      verifyHashChain P entries ⟨none, some checkpoint⟩ = .ok () →
        checkpoint.Enforced entries := by
  intro h
  have haccepted : verifyHashChain Relink.ports [] ⟨none, some ⟨none, none, some 5, none⟩⟩ =
      .ok () :=
    verifyHashChain_nil.mpr ⟨by simp, by simp⟩
  obtain ⟨last, hlast, -⟩ := (h Relink.ports [] _ haccepted).lastPosition 5 rfl
  cases hlast

end Coivitas.Crypto
