import Coivitas.Crypto.MigrationRestart
import Coivitas.Crypto.MigrationSchedules

/-! # Tampering before the migration

The migration computes every hash and link anew from the stored payloads. Which partitions
it can turn into accepted chains is a condition on the table it starts from, and the hashes
of the rows to migrate do not enter it.
-/

namespace Coivitas.Crypto

open Foundation

variable (P : HccPorts)

namespace HashChainEntries

/-- The partition is a chain of version 2 that the verifier accepts. -/
def Accepted (t : HashChainEntries) (key : ChainPartitionKey) : Prop :=
  t.partition key ≠ [] ∧ verifyHashChain P (t.readChain key) ⟨some key, none⟩ = .ok ()

/-- A row of version 1 whose hash is not the digest of its payload, or which is not linked to
the hash of the row before it. -/
def Tampered (t : HashChainEntries) (key : ChainPartitionKey) : Prop :=
  ∃ row ∈ t.partition key, row.hccVersion = "1.0.0" ∧
    (row.canonicalPayloadHash ≠ toHex (P.sha256 (utf8 row.canonicalPayload)) ∨
      ∃ q ∈ t.partition key, row.chainPosition = q.chainPosition + 1 ∧
        row.previousHash ≠ q.canonicalPayloadHash)

variable [LinearOrder ChainPartitionKey]

/-- The rows are those of a chain, a row at a time of them can be migrated after the
partitions before, and those that are not migrated carry their hashes and links already. -/
structure Relinkable (t : HashChainEntries) (key : ChainPartitionKey) : Prop where
  nonEmpty : t.partition key ≠ []
  identity : validateChainIdentitySchema P key = true
  numbered : t.Numbered key
  wellFormed : ∀ row ∈ t.partition key, row.WellFormed P
  hashable : ∀ row ∈ t.partition key, row.Hashable P
  settled : ∃ starts count, (∀ row ∈ t.partition key, starts row.entryId = true) ∧
    t.Clear P starts count ∧ ∀ row ∈ t.partition key, row ∉ t.pending.take count → t.Settled P row

variable {P} {t u : HashChainEntries} {key : ChainPartitionKey} {starts : String → Bool}
  {count : Nat}

/-- In a chain of settled rows, a row alone in its batch is linked to its predecessor. -/
theorem anchor_of_settled {q row : ChainEntryRow}
    (hsettled : ∀ row ∈ t.partition key, row ∉ t.pending.take count → t.Settled P row)
    (hq : q ∈ t.partition key) (hrow : row ∈ t.partition key)
    (hsucc : row.chainPosition = q.chainPosition + 1) :
    t.anchor P row = some (q.newHash P) := by
  obtain ⟨hmem, hkey⟩ := mem_partition.mp hq
  rw [anchor_of_previous hmem (hkey.trans (mem_partition.mp hrow).2.symm) hsucc]
  by_cases hunmigrated : q.Unmigrated
  · rw [if_pos hunmigrated]
  · have hkept : q ∉ t.pending.take count := fun hdone =>
      hunmigrated (mem_pending.mp (List.take_subset _ _ hdone)).2
    obtain ⟨hversion, hhash, -, -⟩ := hsettled q hq hkept
    rw [if_neg hunmigrated, if_pos (show q.hccVersion = "2.0.0" from hversion), hhash]

/-- An accepted partition could as well have been migrated a row at a time. -/
theorem At.link_of_rechained (hrechained : t.Rechained P starts count key) {row : ChainEntryRow}
    (hrow : row ∈ t.partition key) (hdone : row ∈ t.pending.take count) :
    t.link P starts row = t.anchor P row := by
  by_cases hzero : row.chainPosition = 0
  · rw [link_of_zero hzero, anchor_of_zero hzero]
  · obtain ⟨q, hq, hsucc⟩ := exists_previous hrechained.numbered hrow hzero
    rw [hrechained.linked row hrow hdone q hq hsucc,
      anchor_of_settled hrechained.kept hq hrow hsucc]

theorem relinkable_of_rechained (hat : t.At P starts count u)
    (hrechained : t.Rechained P starts count key) (hne : t.partition key ≠ []) :
    t.Relinkable P key := by
  refine ⟨hne, hrechained.identity, hrechained.numbered, hrechained.wellFormed,
    hrechained.hashable, ?_⟩
  let starts' : String → Bool := fun id =>
    decide (id ∈ (t.partition key).map ChainEntryRow.entryId) || starts id
  have hpartition : ∀ row ∈ t.partition key, starts' row.entryId = true := by
    intro row hrow
    simp only [starts', decide_eq_true (List.mem_map_of_mem hrow), Bool.true_or]
  have hother : ∀ row ∈ t.rows, row.key ≠ key → starts' row.entryId = starts row.entryId := by
    intro row hrow hkey
    have hnone : row.entryId ∉ (t.partition key).map ChainEntryRow.entryId := by
      rw [List.mem_map]
      rintro ⟨row', hrow', hid⟩
      obtain ⟨hmem, hkey'⟩ := mem_partition.mp hrow'
      exact hkey (eq_of_entryId hmem hrow hid ▸ hkey')
    simp only [starts', decide_eq_false hnone, Bool.false_or]
  refine ⟨starts', count, hpartition, hat.clear.congr fun row hdone => ?_, hrechained.kept⟩
  have hmem := (mem_pending.mp (List.take_subset _ _ hdone)).1
  by_cases hkey : row.key = key
  · have hrow := mem_partition.mpr ⟨hmem, hkey⟩
    rw [link_of_starts (hpartition row hrow), At.link_of_rechained hrechained hrow hdone]
  · rw [link, link, hother row hmem hkey]

theorem Relinkable.exists_accepted (hrelinkable : t.Relinkable P key) :
    ∃ runs, (afterRuns P runs t).Accepted P key := by
  obtain ⟨starts, count, hstarts, hclear, hkept⟩ := hrelinkable.settled
  have htake : t.pending.take (min count t.pending.length) = t.pending.take count := by
    rcases Nat.le_total count t.pending.length with hle | hle
    · rw [Nat.min_eq_left hle]
    · rw [Nat.min_eq_right hle, List.take_length, List.take_of_length_le hle]
  obtain ⟨runs, hat⟩ := exists_runs (hclear.of_le (Nat.min_le_left _ _)) (Nat.min_le_right _ _)
  have hne : (afterRuns P runs t).partition key ≠ [] := by
    rw [hat.partition_eq, ne_eq, List.map_eq_nil_iff]
    exact hrelinkable.nonEmpty
  refine ⟨runs, hne, (verifyHashChain_readChain hne).mpr (hat.verifies_iff.mpr ?_)⟩
  refine ⟨hrelinkable.identity, hrelinkable.numbered, hrelinkable.wellFormed,
    hrelinkable.hashable, ?_, fun row hrow _ q hq hsucc => ?_⟩
  · rw [htake]
    exact hkept
  · rw [link_of_starts (hstarts row hrow), anchor_of_settled hkept hq hrow hsucc]

/-- No runs make an accepted chain of a partition exactly when it is not relinkable. What
the rows to migrate store as their hashes is not asked. -/
theorem never_accepted_iff (t : HashChainEntries) (key : ChainPartitionKey) :
    (∀ runs, ¬ (afterRuns P runs t).Accepted P key) ↔ ¬ t.Relinkable P key := by
  constructor
  · rintro hnever hrelinkable
    obtain ⟨runs, haccepted⟩ := hrelinkable.exists_accepted
    exact hnever runs haccepted
  · rintro hnot runs ⟨hne, haccepted⟩
    obtain ⟨starts, count, hat⟩ : Reached P t (afterRuns P runs t) :=
      reached_afterRuns ⟨fun _ => true, 0, At.zero⟩
    have hrechained := hat.verifies_iff.mp ((verifyHashChain_readChain hne).mp haccepted)
    rw [hat.partition_eq, ne_eq, List.map_eq_nil_iff] at hne
    exact hnot (relinkable_of_rechained hat hrechained hne)

end HashChainEntries

/-! ## A payload altered under its old hash -/

namespace Altered

open HashChainEntries MigrationRestart

local instance columnOrder : LinearOrder ChainPartitionKey := byColumns

def first : ChainEntryRow :=
  row "00000000-0000-4000-8000-000000000001" "10" genesisPreviousHash 0 Relink.policyIdentity

/-- The amount is another one; the hash is still that of the first amount. -/
def altered : ChainEntryRow := { first with canonicalPayload := Relink.payload "99" }

def table : HashChainEntries where
  rows := [altered]
  ids := by decide +kernel
  slots := by decide +kernel
  links := by decide +kernel

/-- One run makes an accepted chain of the altered row. -/
theorem altered_accepted : ¬ ∀ (t : HashChainEntries) (key : ChainPartitionKey),
    t.Tampered ports key → ∀ runs, ¬ (afterRuns ports runs t).Accepted ports key := by
  intro h
  have htampered : table.Tampered ports Relink.policyIdentity :=
    ⟨altered, by decide +kernel, rfl, .inl (by decide +kernel)⟩
  refine h table Relink.policyIdentity htampered [complete] ⟨?_, ?_⟩
  · decide +kernel
  · decide +kernel

end Altered

end Coivitas.Crypto
