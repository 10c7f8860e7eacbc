import Coivitas.Crypto.HashChainBuilder
import Coivitas.Foundation.BackLinks

/-! # What the verifier accepts

A run of `verifyHashChain` goes through three kinds of checks: on each entry alone, on each
entry and the one before it, and on the checkpoint. The acceptance of a list is the three
of them as conditions on the list.
-/

namespace Coivitas.Crypto

open Foundation

variable (P : HccPorts)

/-- A text that reads as a value of which it is the canonical text. -/
def CanonicalText (text : String) : Prop :=
  ∃ value, P.parse text = some value ∧ Json.canonicalize P.numberFormat value = text

/-- What is asked of an entry of the chain of an identity, whatever its neighbours. -/
structure EntryVerified (identity : ChainIdentity) (entry : HashChainEntry) : Prop where
  schema : validateHashChainEntrySchema P entry = true
  canonical : CanonicalText P entry.canonicalPayload
  hash : recomputeCanonicalPayloadHash P entry = .ok entry.canonicalPayloadHash
  identity_eq : entry.chainIdentity = identity

/-- Positions count up from the first one. -/
def Consecutive : Int → List HashChainEntry → Prop
  | _, [] => True
  | position, entry :: rest => entry.chainPosition = position ∧ Consecutive (position + 1) rest

/-- Every entry names the hash of the one before it. -/
def Chained (root : String) (entries : List HashChainEntry) : Prop :=
  BackLinked (fun entry : HashChainEntry => some entry.previousHash)
    HashChainEntry.canonicalPayloadHash (some root) entries

variable {P} {entries : List HashChainEntry}

theorem consecutive_iff {position : Int} : Consecutive position entries ↔
    ∀ k entry, entries[k]? = some entry → entry.chainPosition = position + (k : Nat) := by
  induction entries generalizing position with
  | nil => simp [Consecutive]
  | cons first rest ih =>
      rw [Consecutive, ih]
      constructor
      · rintro ⟨hfirst, hrest⟩ k entry hentry
        cases k with
        | zero =>
            obtain rfl := Option.some.inj hentry
            simpa using hfirst
        | succ k =>
            have := hrest k entry hentry
            push_cast
            omega
      · intro h
        refine ⟨by simpa using h 0 first rfl, fun k entry hentry => ?_⟩
        have := h (k + 1) entry hentry
        push_cast at this
        omega

theorem hccVersion_of_schema {entry : HashChainEntry}
    (hschema : validateHashChainEntrySchema P entry = true) :
    entry.hccVersion = hccVersionCurrent := by
  simp only [validateHashChainEntrySchema, Bool.and_eq_true, beq_iff_eq] at hschema
  exact hschema.2

theorem verifyLinks_eq_ok {previous : HashChainEntry} {i : Nat} :
    verifyLinks P previous i entries = .ok () ↔
      (∀ entry ∈ entries, validateHashChainEntrySchema P entry = true) ∧
        Consecutive (previous.chainPosition + 1) entries ∧
        Chained previous.canonicalPayloadHash entries := by
  induction entries generalizing previous i with
  | nil => simp [verifyLinks, Consecutive, Chained, BackLinked]
  | cons current rest ih =>
      simp only [verifyLinks, bind_eq_ok, exists_unit, require_eq_ok, ih, List.forall_mem_cons,
        Consecutive, Chained, BackLinked, Option.some.injEq]
      constructor
      · rintro ⟨hschema, hposition, hprevious, -, hrest, hpositions, hlinks⟩
        rw [← hposition]
        exact ⟨⟨hschema, hrest⟩, ⟨rfl, hpositions⟩, hprevious, hlinks⟩
      · rintro ⟨⟨hschema, hrest⟩, ⟨hposition, hpositions⟩, hprevious, hlinks⟩
        rw [← hposition] at hpositions
        exact ⟨hschema, hposition, hprevious, hccVersion_of_schema hschema, hrest, hpositions,
          hlinks⟩

theorem assertCanonicalPayloadIsCanonical_eq_ok {entry : HashChainEntry} {i : Nat} :
    assertCanonicalPayloadIsCanonical P entry i = .ok () ↔
      CanonicalText P entry.canonicalPayload := by
  unfold assertCanonicalPayloadIsCanonical CanonicalText
  cases P.parse entry.canonicalPayload with
  | none => simp
  | some value => simp

theorem assertCanonicalPayloadHashConsistent_eq_ok {entry : HashChainEntry} {i : Nat} :
    assertCanonicalPayloadHashConsistent P entry i = .ok () ↔
      CanonicalText P entry.canonicalPayload ∧
        recomputeCanonicalPayloadHash P entry = .ok entry.canonicalPayloadHash := by
  simp only [assertCanonicalPayloadHashConsistent, bind_eq_ok, exists_unit, require_eq_ok,
    assertCanonicalPayloadIsCanonical_eq_ok]
  refine and_congr_right fun _ => ⟨?_, fun hhash => ⟨_, hhash, rfl⟩⟩
  rintro ⟨hash, hhash, rfl⟩
  exact hhash

/-- A hash that can be recomputed has an identity text. -/
theorem canonicalizeChainIdentity_of_hash {entry : HashChainEntry} {hash : String}
    (hhash : recomputeCanonicalPayloadHash P entry = .ok hash) :
    canonicalizeChainIdentity P entry.chainIdentity = .ok (entry.chainIdentity.jcs P) := by
  simp only [recomputeCanonicalPayloadHash, bind_eq_ok] at hhash
  obtain ⟨jcs, hjcs, -⟩ := hhash
  rw [hjcs, canonicalizeChainIdentity_eq P hjcs]
  rfl

/-- The traversal after the first entry, whose identity is the one to compare with. -/
theorem verifyPreimages_eq_ok {identity : ChainIdentity} {expectedJcs : Option String} {i : Nat}
    (hexpected : ∀ expected ∈ expectedJcs, identity.jcs P = expected) :
    verifyPreimages P expectedJcs (some (identity.jcs P)) i entries = .ok () ↔
      ∀ entry ∈ entries, CanonicalText P entry.canonicalPayload ∧
        recomputeCanonicalPayloadHash P entry = .ok entry.canonicalPayloadHash ∧
        entry.chainIdentity = identity := by
  induction entries generalizing i with
  | nil => simp [verifyPreimages]
  | cons entry rest ih =>
      simp only [verifyPreimages, bind_eq_ok, exists_unit, require_eq_ok,
        assertCanonicalPayloadHashConsistent_eq_ok, Option.getD_some, ih, List.forall_mem_cons]
      constructor
      · rintro ⟨⟨hcanonical, hhash⟩, jcs, hjcs, hfirst, -, hrest⟩
        obtain rfl := canonicalizeChainIdentity_eq P hjcs
        exact ⟨⟨hcanonical, hhash, jcs_injective (hfirst _ rfl)⟩, hrest⟩
      · rintro ⟨⟨hcanonical, hhash, rfl⟩, hrest⟩
        refine ⟨⟨hcanonical, hhash⟩, _, canonicalizeChainIdentity_of_hash hhash, ?_, hexpected,
          hrest⟩
        exact fun first hfirst => Option.mem_some.mp hfirst

/-- A list is accepted when its entries verify for one identity, the expected one if there
is one, follow each other from the first position on, and pass the checkpoint. -/
theorem verifyHashChain_eq_ok {options : VerifyHashChainOptions} :
    verifyHashChain P entries options = .ok () ↔
      verifyCount options.checkpoint entries.length = .ok () ∧
        (∃ identity, (entries ≠ [] → ∀ expected ∈ options.expectedChainIdentity,
            expected = identity) ∧ ∀ entry ∈ entries, EntryVerified P identity entry) ∧
        Consecutive 0 entries ∧ Chained genesisPreviousHash entries ∧
        ∀ last ∈ entries.getLast?, verifyTail options.checkpoint last = .ok () := by
  cases entries with
  | nil =>
      simp only [verifyHashChain, bind_eq_ok, exists_unit, pure_eq_ok]
      refine and_congr_right fun _ =>
        iff_of_true trivial ⟨⟨⟨"", none, none⟩, ?_⟩, trivial, trivial, ?_⟩
      · simp
      · simp
  | cons genesis rest =>
      have hlast := List.getLast?_eq_some_getLast (List.cons_ne_nil genesis rest)
      simp only [verifyHashChain, verifyGenesis, bind_eq_ok, exists_unit, require_eq_ok,
        verifyLinks_eq_ok]
      constructor
      · rintro ⟨hcount, ⟨hschema, hzero, hroot, -⟩, ⟨hschemas, hpositions, hlinks⟩, expectedJcs,
          hexpected, hpreimages, htail⟩
        rw [hzero] at hpositions
        simp only [verifyPreimages, bind_eq_ok, exists_unit, require_eq_ok, Option.getD_none,
          assertCanonicalPayloadHashConsistent_eq_ok] at hpreimages
        obtain ⟨⟨hcanonical, hhash⟩, jcs, hjcs, -, hfirst, hrest⟩ := hpreimages
        obtain rfl := canonicalizeChainIdentity_eq P hjcs
        have hverified := (verifyPreimages_eq_ok hfirst).mp hrest
        refine ⟨hcount, ⟨genesis.chainIdentity, fun _ expected hmem => ?_, ?_⟩, ⟨hzero, hpositions⟩,
          ⟨congrArg some hroot, hlinks⟩, ?_⟩
        · rw [Option.mem_def] at hmem
          simp only [expectedChainIdentityJcs, hmem, bind_eq_ok, pure_eq_ok] at hexpected
          obtain ⟨jcs, hjcs, rfl⟩ := hexpected
          obtain rfl := canonicalizeChainIdentity_eq P hjcs
          exact (jcs_injective (hfirst _ rfl)).symm
        · rintro entry hentry
          rcases List.mem_cons.mp hentry with rfl | hmem
          · exact ⟨hschema, hcanonical, hhash, rfl⟩
          · obtain ⟨hcanonical, hhash, hidentity⟩ := hverified entry hmem
            exact ⟨hschemas entry hmem, hcanonical, hhash, hidentity⟩
        · intro last hmem
          obtain rfl := Option.some.inj (hlast.symm.trans hmem)
          exact htail
      · rintro ⟨hcount, ⟨identity, hexpected, hverified⟩, ⟨hzero, hpositions⟩, ⟨hroot, hlinks⟩,
          htail⟩
        obtain ⟨hgenesis, hrest⟩ := List.forall_mem_cons.mp hverified
        obtain ⟨hschema, hcanonical, hhash, rfl⟩ := hgenesis
        have hjcs := canonicalizeChainIdentity_of_hash hhash
        have hexpectedJcs : expectedChainIdentityJcs P options =
            .ok (options.expectedChainIdentity.map fun identity => identity.jcs P) := by
          unfold expectedChainIdentityJcs
          cases hidentity : options.expectedChainIdentity with
          | none => rfl
          | some expected =>
              obtain rfl := hexpected (List.cons_ne_nil _ _) expected hidentity
              simp only [bind_eq_ok, pure_eq_ok]
              exact ⟨_, hjcs, rfl⟩
        have hfirst : ∀ expected ∈ options.expectedChainIdentity.map fun identity =>
            identity.jcs P, genesis.chainIdentity.jcs P = expected := by
          intro expected hmem
          obtain ⟨identity, hidentity, rfl⟩ := Option.mem_map.mp hmem
          rw [hexpected (List.cons_ne_nil _ _) identity hidentity]
        refine ⟨hcount, ⟨hschema, hzero, Option.some.inj hroot, hccVersion_of_schema hschema⟩,
          ⟨fun entry hmem => (hrest entry hmem).schema, ?_, hlinks⟩, _, hexpectedJcs, ?_,
          htail _ hlast⟩
        · rw [hzero]
          exact hpositions
        · simp only [verifyPreimages, bind_eq_ok, exists_unit, require_eq_ok, Option.getD_none,
            assertCanonicalPayloadHashConsistent_eq_ok]
          refine ⟨⟨hcanonical, hhash⟩, _, hjcs, by simp, hfirst,
            (verifyPreimages_eq_ok hfirst).mpr fun entry hmem => ?_⟩
          exact ⟨(hrest entry hmem).canonical, (hrest entry hmem).hash,
            (hrest entry hmem).identity_eq⟩

end Coivitas.Crypto
