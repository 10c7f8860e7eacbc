import Coivitas.Crypto.ChainAcceptance
import Coivitas.Crypto.MigrationRuns

/-! # Partitions as chains

A partition read in the order of its positions is a list of entries. What the verifier
accepts of it is said here of the rows, whatever their order in the table.
-/

namespace Coivitas.Crypto

open Foundation

variable (P : HccPorts)

namespace ChainEntryRow

/-- The columns that the migration leaves alone pass the schema of an entry. -/
structure WellFormed (row : ChainEntryRow) : Prop where
  uuidFormat : P.uuidFormat row.entryId = true
  uuid : isUuidV4 row.entryId = true
  payload : 2 ≤ row.canonicalPayload.toList.length
  canonical : CanonicalText P row.canonicalPayload
  dateTime : P.dateTimeFormat row.timestamp = true

/-- A row of version 2 with the hash of its payload and identity. -/
structure Rehashed (row : ChainEntryRow) : Prop where
  version : row.hccVersion = hccVersionCurrent
  hashable : row.Hashable P
  hash : row.canonicalPayloadHash = row.newHash P

variable {P} {row : ChainEntryRow}

theorem recomputeCanonicalPayloadHash_toEntry {hash : String} :
    recomputeCanonicalPayloadHash P row.toEntry = .ok hash ↔
      row.Hashable P ∧ hash = row.newHash P := by
  simp only [Hashable, recomputeRow, recomputeCanonicalPayloadHash, bind_eq_ok, pure_eq_ok,
    Prod.mk.injEq]
  constructor
  · rintro ⟨jcs, hjcs, hcomputed⟩
    have hcomputed' := hcomputed
    simp only [computeCanonicalPayloadHashHex, bind_eq_ok, exists_unit, require_eq_ok,
      pure_eq_ok] at hcomputed'
    obtain rfl := canonicalizeChainIdentity_eq P hjcs
    obtain ⟨-, rfl⟩ := hcomputed'
    exact ⟨⟨_, hjcs, _, hcomputed, rfl, rfl⟩, rfl⟩
  · rintro ⟨⟨jcs, hjcs, hash', hcomputed, -, rfl⟩, rfl⟩
    exact ⟨jcs, hjcs, hcomputed⟩

theorem isSha256Hex_newHash (hhashable : row.Hashable P) :
    isSha256Hex (row.newHash P) = true := by
  simp only [Hashable, recomputeRow, computeCanonicalPayloadHashHex, bind_eq_ok, exists_unit,
    require_eq_ok, pure_eq_ok, Prod.mk.injEq] at hhashable
  obtain ⟨jcs, hjcs, hash, ⟨hlength, -⟩, rfl, -⟩ := hhashable
  exact isSha256Hex_toHex hlength

theorem entryVerified_toEntry : EntryVerified P row.key row.toEntry ↔
    validateChainIdentitySchema P row.key = true ∧ row.WellFormed P ∧ row.Rehashed P ∧
      isSha256Hex row.previousHash = true := by
  constructor
  · rintro ⟨hschema, hcanonical, hhash, -⟩
    simp only [validateHashChainEntrySchema, Bool.and_eq_true, decide_eq_true_eq,
      beq_iff_eq] at hschema
    obtain ⟨⟨⟨⟨⟨⟨⟨⟨hformat, huuid⟩, hpayload⟩, -⟩, hprevious⟩, -⟩, hidentity⟩, hdate⟩, hversion⟩ :=
      hschema
    obtain ⟨hhashable, hstored⟩ := recomputeCanonicalPayloadHash_toEntry.mp hhash
    exact ⟨hidentity, ⟨hformat, huuid, hpayload, hcanonical, hdate⟩,
      ⟨hversion, hhashable, hstored⟩, hprevious⟩
  · rintro ⟨hidentity, hformed, hrehashed, hprevious⟩
    have hsha : isSha256Hex row.canonicalPayloadHash = true := by
      rw [hrehashed.hash]
      exact isSha256Hex_newHash hrehashed.hashable
    refine ⟨?_, hformed.canonical, ?_, rfl⟩
    · simp only [validateHashChainEntrySchema, Bool.and_eq_true, decide_eq_true_eq, beq_iff_eq]
      exact ⟨⟨⟨⟨⟨⟨⟨⟨hformed.uuidFormat, hformed.uuid⟩, hformed.payload⟩, hsha⟩, hprevious⟩,
        Int.natCast_nonneg _⟩, hidentity⟩, hformed.dateTime⟩, hrehashed.version⟩
    · exact recomputeCanonicalPayloadHash_toEntry.mpr ⟨hrehashed.hashable, hrehashed.hash⟩

end ChainEntryRow

namespace HashChainEntries

variable {P} {t : HashChainEntries} {key : ChainPartitionKey}

theorem mem_partition {row : ChainEntryRow} :
    row ∈ t.partition key ↔ row ∈ t.rows ∧ row.key = key := by
  rw [partition, List.mem_filter, decide_eq_true_eq]

/-- The positions of the rows are those of a list, in some order. -/
def Numbered (t : HashChainEntries) (key : ChainPartitionKey) : Prop :=
  ((t.partition key).map ChainEntryRow.chainPosition).Perm (List.range (t.partition key).length)

instance : Decidable (t.Numbered key) := inferInstanceAs (Decidable (List.Perm _ _))

def sortedPartition (t : HashChainEntries) (key : ChainPartitionKey) : List ChainEntryRow :=
  (t.partition key).insertionSort fun a b => a.position ≤ b.position

theorem mem_sortedPartition {row : ChainEntryRow} :
    row ∈ t.sortedPartition key ↔ row ∈ t.partition key :=
  List.mem_insertionSort _

theorem pairwise_sortedPartition (t : HashChainEntries) (key : ChainPartitionKey) :
    ((t.sortedPartition key).map ChainEntryRow.chainPosition).Pairwise (· ≤ ·) := by
  rw [List.pairwise_map]
  refine (pairwise_sorted ChainEntryRow.position (t.partition key)).imp ?_
  intro a b hle
  rw [ChainEntryRow.position, ChainEntryRow.position, Prod.Lex.toLex_le_toLex] at hle
  rcases hle with hlt | ⟨heq, -⟩
  · exact hlt.le
  · exact heq.le

/-- In the order of their positions, the rows are at the indices they name. -/
theorem numbered_iff : t.Numbered key ↔
    ∀ (k : Nat) (row : ChainEntryRow), (t.sortedPartition key)[k]? = some row →
      row.chainPosition = k := by
  have hperm := List.perm_insertionSort (fun a b : ChainEntryRow => a.position ≤ b.position)
    (t.partition key)
  have hlength : (t.sortedPartition key).length = (t.partition key).length := hperm.length_eq
  constructor
  · intro hnumbered k row hrow
    have hsorted : (t.sortedPartition key).map ChainEntryRow.chainPosition =
        List.range (t.partition key).length := by
      refine @List.Perm.eq_of_pairwise _ (· ≤ ·) _ _ (fun a b _ _ hab hba => le_antisymm hab hba)
        (pairwise_sortedPartition t key) (List.pairwise_lt_range.imp fun h => h.le) ?_
      exact (hperm.map _).trans hnumbered
    have hentry : ((t.sortedPartition key).map ChainEntryRow.chainPosition)[k]? =
        some row.chainPosition := by
      rw [List.getElem?_map, hrow]
      rfl
    rw [hsorted] at hentry
    obtain ⟨hk, hposition⟩ := List.getElem?_eq_some_iff.mp hentry
    rw [← hposition, List.getElem_range]
  · intro hindices
    refine (hperm.map _).symm.trans ?_
    rw [← hlength]
    refine List.Perm.of_eq (List.ext_getElem (by simp [sortedPartition]) fun k hk hk' => ?_)
    rw [List.getElem_map, List.getElem_range]
    exact hindices k _ (List.getElem?_eq_getElem (by simpa [sortedPartition] using hk))

variable (P)

/-- The rows of a partition, in whatever order, are a chain of version 2. -/
structure Verifies (t : HashChainEntries) (key : ChainPartitionKey) : Prop where
  identity : validateChainIdentitySchema P key = true
  numbered : t.Numbered key
  wellFormed : ∀ row ∈ t.partition key, row.WellFormed P
  rehashed : ∀ row ∈ t.partition key, row.Rehashed P
  root : ∀ row ∈ t.partition key, row.chainPosition = 0 → row.previousHash = genesisPreviousHash
  links : ∀ q ∈ t.partition key, ∀ r ∈ t.partition key, r.chainPosition = q.chainPosition + 1 →
    r.previousHash = q.canonicalPayloadHash

variable {P}

/-- The rows before a row of a numbered partition are there. -/
theorem exists_previous (hnumbered : t.Numbered key) {row : ChainEntryRow}
    (hrow : row ∈ t.partition key) (hposition : row.chainPosition ≠ 0) :
    ∃ q ∈ t.partition key, row.chainPosition = q.chainPosition + 1 := by
  have hmem : row.chainPosition ∈ List.range (t.partition key).length :=
    hnumbered.mem_iff.mp (List.mem_map_of_mem hrow)
  have hprevious : row.chainPosition - 1 ∈ (t.partition key).map ChainEntryRow.chainPosition := by
    rw [List.mem_range] at hmem
    exact hnumbered.mem_iff.mpr (List.mem_range.mpr (by omega))
  obtain ⟨q, hq, hsame⟩ := List.mem_map.mp hprevious
  exact ⟨q, hq, by omega⟩

theorem Verifies.isSha256Hex_previousHash (hverifies : t.Verifies P key) {row : ChainEntryRow}
    (hrow : row ∈ t.partition key) : isSha256Hex row.previousHash = true := by
  by_cases hposition : row.chainPosition = 0
  · rw [hverifies.root row hrow hposition]
    decide
  · obtain ⟨q, hq, hsucc⟩ := exists_previous hverifies.numbered hrow hposition
    rw [hverifies.links q hq row hrow hsucc, (hverifies.rehashed q hq).hash]
    exact ChainEntryRow.isSha256Hex_newHash (hverifies.rehashed q hq).hashable

/-- A partition with rows is accepted under its own identity when its rows are such a chain. -/
theorem verifyHashChain_readChain (hne : t.partition key ≠ []) :
    verifyHashChain P (t.readChain key) ⟨some key, none⟩ = .ok () ↔ t.Verifies P key := by
  have hread : t.readChain key = (t.sortedPartition key).map ChainEntryRow.toEntry := rfl
  have hsortedne : t.sortedPartition key ≠ [] := by
    obtain ⟨row, hrow⟩ := List.exists_mem_of_ne_nil _ hne
    exact List.ne_nil_of_mem (mem_sortedPartition.mpr hrow)
  have hconsecutive : Consecutive 0 (t.readChain key) ↔ t.Numbered key := by
    rw [consecutive_iff, numbered_iff, hread]
    simp [ChainEntryRow.toEntry]
  rw [verifyHashChain_eq_ok, hconsecutive]
  constructor
  · rintro ⟨-, ⟨identity, hidentity, hentries⟩, hnumbered, hchained, -⟩
    obtain rfl := hidentity (by simpa [hread] using hsortedne) key rfl
    have hrows : ∀ row ∈ t.partition key, EntryVerified P row.key row.toEntry := by
      intro row hrow
      rw [(mem_partition.mp hrow).2]
      refine hentries _ ?_
      rw [hread]
      exact List.mem_map_of_mem (mem_sortedPartition.mpr hrow)
    have hat : ∀ row ∈ t.partition key,
        (t.readChain key)[row.chainPosition]? = some row.toEntry := by
      intro row hrow
      obtain ⟨k, hk⟩ := List.mem_iff_getElem?.mp (mem_sortedPartition.mpr hrow)
      rw [numbered_iff.mp hnumbered k row hk, hread, List.getElem?_map, hk]
      rfl
    rw [Chained, backLinked_iff_getElem?] at hchained
    obtain ⟨row, hrow⟩ := List.exists_mem_of_ne_nil _ hne
    refine ⟨?_, hnumbered, fun row hrow => ?_, fun row hrow => ?_, fun row hrow hzero => ?_,
      fun q hq r hr hsucc => ?_⟩
    · rw [← (mem_partition.mp hrow).2]
      exact (ChainEntryRow.entryVerified_toEntry.mp (hrows row hrow)).1
    · exact (ChainEntryRow.entryVerified_toEntry.mp (hrows row hrow)).2.1
    · exact (ChainEntryRow.entryVerified_toEntry.mp (hrows row hrow)).2.2.1
    · exact Option.some.inj (hchained.1 row.toEntry (hzero ▸ hat row hrow))
    · exact Option.some.inj (hchained.2 q.chainPosition q.toEntry r.toEntry (hat q hq)
        (hsucc ▸ hat r hr))
  · intro hverifies
    refine ⟨rfl, ⟨key, fun _ expected hexpected => (Option.mem_some.mp hexpected).symm, ?_⟩,
      hverifies.numbered, ?_, fun _ _ => rfl⟩
    · intro entry hentry
      rw [hread, List.mem_map] at hentry
      obtain ⟨row, hrow, rfl⟩ := hentry
      have hmem := mem_sortedPartition.mp hrow
      have hverified : EntryVerified P row.key row.toEntry := by
        refine ChainEntryRow.entryVerified_toEntry.mpr ⟨?_, hverifies.wellFormed row hmem,
          hverifies.rehashed row hmem, hverifies.isSha256Hex_previousHash hmem⟩
        rw [(mem_partition.mp hmem).2]
        exact hverifies.identity
      rwa [(mem_partition.mp hmem).2] at hverified
    · have hmem : ∀ k entry, (t.readChain key)[k]? = some entry →
          ∃ row ∈ t.partition key, row.chainPosition = k ∧ row.toEntry = entry := by
        intro k entry hentry
        rw [hread, List.getElem?_map, Option.map_eq_some_iff] at hentry
        obtain ⟨row, hrow, rfl⟩ := hentry
        exact ⟨row, mem_sortedPartition.mp (List.mem_of_getElem? hrow),
          numbered_iff.mp hverifies.numbered k row hrow, rfl⟩
      rw [Chained, backLinked_iff_getElem?]
      constructor
      · intro entry hentry
        obtain ⟨row, hrow, hzero, rfl⟩ := hmem 0 entry hentry
        exact congrArg some (hverifies.root row hrow hzero)
      · intro k earlier entry hearlier hentry
        obtain ⟨q, hq, rfl, rfl⟩ := hmem k earlier hearlier
        obtain ⟨r, hr, hsucc, rfl⟩ := hmem (q.chainPosition + 1) entry hentry
        exact congrArg some (hverifies.links q hq r hr hsucc)

/-! ## Links of the rows to migrate -/

section Links

variable {starts : String → Bool} {count : Nat} {q r : ChainEntryRow}

theorem anchor_of_zero (hzero : r.chainPosition = 0) :
    t.anchor P r = some genesisPreviousHash :=
  if_pos hzero

/-- The link of a first row is the hash its predecessor has, or will have, in the table. -/
theorem anchor_of_previous (hq : q ∈ t.rows) (hkey : q.key = r.key)
    (hsucc : r.chainPosition = q.chainPosition + 1) :
    t.anchor P r = if q.Unmigrated then some (q.newHash P)
      else if q.hccVersion = "2.0.0" then some q.canonicalPayloadHash else none := by
  have hfind : ((t.partition r.key).find? fun q' => q'.chainPosition = r.chainPosition - 1) =
      some q := by
    rw [List.find?_eq_some_iff_append]
    refine ⟨by simp [hsucc], ?_⟩
    obtain ⟨front, back, hsplit⟩ := List.append_of_mem (mem_partition.mpr ⟨hq, hkey⟩)
    refine ⟨front, back, hsplit, fun q' hq' => ?_⟩
    have hmem : q' ∈ t.partition r.key := by
      rw [hsplit]
      exact List.mem_append_left _ hq'
    have hnodup : (t.partition r.key).Nodup := (List.Nodup.of_map _ t.ids).filter _
    rw [hsplit] at hnodup
    obtain ⟨hrow, hsame⟩ := mem_partition.mp hmem
    simp only [Bool.not_eq_true', decide_eq_false_iff_not]
    intro hposition
    obtain rfl := eq_of_slot hrow hq (hsame.trans hkey.symm) (by omega)
    exact (List.nodup_append'.mp hnodup).2.2 hq' List.mem_cons_self
  rw [anchor, if_neg (by omega), hfind]
  rfl

variable [LinearOrder ChainPartitionKey]

theorem before_of_zero (hzero : r.chainPosition = 0) : t.before r = none := by
  rw [before_eq_none]
  intro q _ _
  omega

theorem before_of_previous (hq : q ∈ t.pending) (hkey : q.key = r.key)
    (hsucc : r.chainPosition = q.chainPosition + 1) : t.before r = some q :=
  before_eq_of_greatest hq hkey (by omega) fun _ _ _ _ => by omega

theorem link_of_zero (hzero : r.chainPosition = 0) :
    t.link P starts r = some genesisPreviousHash := by
  simp only [link, before_of_zero hzero, ite_self]
  exact anchor_of_zero hzero

/-- A row whose predecessor is migrated too is linked to its new hash, in every division. -/
theorem link_of_previous (hq : q ∈ t.pending) (hkey : q.key = r.key)
    (hsucc : r.chainPosition = q.chainPosition + 1) :
    t.link P starts r = some (q.newHash P) := by
  obtain ⟨hrow, hunmigrated⟩ := mem_pending.mp hq
  rw [link]
  split
  next =>
    rw [anchor_of_previous hrow hkey hsucc, if_pos hunmigrated]
  next q' hbefore =>
    split at hbefore
    next => cases hbefore
    next =>
      rw [before_of_previous hq hkey hsucc] at hbefore
      rw [Option.some.inj hbefore]

end Links

/-! ## A partition when some of the rows are migrated -/

section Rechained

variable (P) [LinearOrder ChainPartitionKey]

def migratedRow (t : HashChainEntries) (starts : String → Bool) (count : Nat)
    (row : ChainEntryRow) : ChainEntryRow :=
  if row ∈ t.pending.take count then t.relinkRow P starts row else row

/-- The row and, unless it is the first one, its predecessor carry the hashes that follow
from their payloads, and the row is linked to the root or to that predecessor. -/
structure Settled (t : HashChainEntries) (row : ChainEntryRow) : Prop where
  version : row.hccVersion = hccVersionCurrent
  hash : row.canonicalPayloadHash = row.newHash P
  root : row.chainPosition = 0 → row.previousHash = genesisPreviousHash
  linked : ∀ q ∈ t.partition row.key, row.chainPosition = q.chainPosition + 1 →
    row.previousHash = q.newHash P

/-- What the table before the migration says of the chain after it. -/
structure Rechained (t : HashChainEntries) (starts : String → Bool) (count : Nat)
    (key : ChainPartitionKey) : Prop where
  identity : validateChainIdentitySchema P key = true
  numbered : t.Numbered key
  wellFormed : ∀ row ∈ t.partition key, row.WellFormed P
  hashable : ∀ row ∈ t.partition key, row.Hashable P
  kept : ∀ row ∈ t.partition key, row ∉ t.pending.take count → t.Settled P row
  linked : ∀ row ∈ t.partition key, row ∈ t.pending.take count → ∀ q ∈ t.partition key,
    row.chainPosition = q.chainPosition + 1 → t.link P starts row = some (q.newHash P)

variable {P} {starts : String → Bool} {count : Nat} {u : HashChainEntries} {row : ChainEntryRow}

@[simp] theorem key_migratedRow : (t.migratedRow P starts count row).key = row.key := by
  unfold migratedRow
  split <;> rfl

@[simp] theorem chainPosition_migratedRow :
    (t.migratedRow P starts count row).chainPosition = row.chainPosition := by
  unfold migratedRow
  split <;> rfl

@[simp] theorem newHash_migratedRow :
    (t.migratedRow P starts count row).newHash P = row.newHash P := by
  unfold migratedRow
  split <;> rfl

theorem wellFormed_migratedRow :
    (t.migratedRow P starts count row).WellFormed P ↔ row.WellFormed P := by
  unfold migratedRow
  split
  next => exact ⟨fun h => ⟨h.1, h.2, h.3, h.4, h.5⟩, fun h => ⟨h.1, h.2, h.3, h.4, h.5⟩⟩
  next => exact Iff.rfl

theorem hashable_migratedRow :
    (t.migratedRow P starts count row).Hashable P ↔ row.Hashable P := by
  unfold migratedRow
  split <;> exact Iff.rfl

theorem migratedRow_of_mem (hmem : row ∈ t.pending.take count) :
    t.migratedRow P starts count row = t.relinkRow P starts row :=
  if_pos hmem

theorem migratedRow_of_notMem (hmem : row ∉ t.pending.take count) :
    t.migratedRow P starts count row = row :=
  if_neg hmem

theorem At.partition_eq (hat : t.At P starts count u) :
    u.partition key = (t.partition key).map (t.migratedRow P starts count) := by
  have hrows : u.rows = t.rows.map (t.migratedRow P starts count) := hat.rows
  rw [partition, hrows, List.filter_map, partition]
  refine congrArg (List.map _) (List.filter_congr fun row _ => ?_)
  simp

theorem At.numbered_iff (hat : t.At P starts count u) : u.Numbered key ↔ t.Numbered key := by
  rw [Numbered, Numbered, hat.partition_eq, List.map_map, List.length_map]
  have hsame : ChainEntryRow.chainPosition ∘ t.migratedRow P starts count =
      ChainEntryRow.chainPosition := by
    funext row
    exact chainPosition_migratedRow
  rw [hsame]

theorem canonicalPayloadHash_migratedRow
    (hkept : row ∉ t.pending.take count → row.canonicalPayloadHash = row.newHash P) :
    (t.migratedRow P starts count row).canonicalPayloadHash = row.newHash P := by
  by_cases hmem : row ∈ t.pending.take count
  · rw [migratedRow_of_mem hmem]
    rfl
  · rw [migratedRow_of_notMem hmem]
    exact hkept hmem

/-- The chain of a partition verifies when the table before says so. -/
theorem At.verifies_iff (hat : t.At P starts count u) :
    u.Verifies P key ↔ t.Rechained P starts count key := by
  have hpartition : u.partition key = (t.partition key).map (t.migratedRow P starts count) :=
    hat.partition_eq
  constructor
  · intro hverifies
    have hrow : ∀ row ∈ t.partition key, t.migratedRow P starts count row ∈ u.partition key := by
      intro row hrow
      rw [hpartition]
      exact List.mem_map_of_mem hrow
    have hhash : ∀ row ∈ t.partition key,
        (t.migratedRow P starts count row).canonicalPayloadHash = row.newHash P := by
      intro row hmem
      rw [(hverifies.rehashed _ (hrow row hmem)).hash, newHash_migratedRow]
    have hlinks : ∀ row ∈ t.partition key, ∀ q ∈ t.partition key,
        row.chainPosition = q.chainPosition + 1 →
          (t.migratedRow P starts count row).previousHash = q.newHash P := by
      intro row hmem q hq hsucc
      rw [hverifies.links _ (hrow q hq) _ (hrow row hmem) (by simpa using hsucc), hhash q hq]
    refine ⟨hverifies.identity, hat.numbered_iff.mp hverifies.numbered, ?_, ?_, ?_, ?_⟩
    · intro row hmem
      exact wellFormed_migratedRow.mp (hverifies.wellFormed _ (hrow row hmem))
    · intro row hmem
      exact hashable_migratedRow.mp (hverifies.rehashed _ (hrow row hmem)).hashable
    · intro row hmem hkept
      have hsame : t.migratedRow P starts count row = row := migratedRow_of_notMem hkept
      have hkey := (mem_partition.mp hmem).2
      refine ⟨?_, ?_, fun hzero => ?_, fun q hq hsucc => ?_⟩
      · have hversion := (hverifies.rehashed _ (hrow row hmem)).version
        rwa [hsame] at hversion
      · have hstored := hhash row hmem
        rwa [hsame] at hstored
      · have hroot := hverifies.root _ (hrow row hmem) (by simpa using hzero)
        rwa [hsame] at hroot
      · rw [hkey] at hq
        have hlink := hlinks row hmem q hq hsucc
        rwa [hsame] at hlink
    · intro row hmem hdone q hq hsucc
      have hlink := hlinks row hmem q hq hsucc
      rw [migratedRow_of_mem hdone] at hlink
      obtain ⟨previous, hprevious⟩ := Option.isSome_iff_exists.mp (hat.clear.linked row hdone)
      have hgetD : (t.link P starts row).getD "" = q.newHash P := hlink
      rw [hprevious] at hgetD ⊢
      exact congrArg some hgetD
  · intro hrechained
    have hhash : ∀ row ∈ t.partition key,
        (t.migratedRow P starts count row).canonicalPayloadHash = row.newHash P := fun row hmem =>
      canonicalPayloadHash_migratedRow fun hkept => (hrechained.kept row hmem hkept).hash
    refine ⟨hrechained.identity, hat.numbered_iff.mpr hrechained.numbered, ?_, ?_, ?_, ?_⟩
    · rw [hpartition, List.forall_mem_map]
      exact fun row hmem => wellFormed_migratedRow.mpr (hrechained.wellFormed row hmem)
    · rw [hpartition, List.forall_mem_map]
      intro row hmem
      refine ⟨?_, hashable_migratedRow.mpr (hrechained.hashable row hmem), ?_⟩
      · by_cases hdone : row ∈ t.pending.take count
        · rw [migratedRow_of_mem hdone]
          rfl
        · rw [migratedRow_of_notMem hdone]
          exact (hrechained.kept row hmem hdone).version
      · rw [hhash row hmem, newHash_migratedRow]
    · rw [hpartition, List.forall_mem_map]
      intro row hmem hzero
      rw [chainPosition_migratedRow] at hzero
      by_cases hdone : row ∈ t.pending.take count
      · rw [migratedRow_of_mem hdone, relinkRow, link_of_zero hzero]
        rfl
      · rw [migratedRow_of_notMem hdone]
        exact (hrechained.kept row hmem hdone).root hzero
    · rw [hpartition]
      simp only [List.forall_mem_map]
      intro q hq row hmem hsucc
      rw [chainPosition_migratedRow, chainPosition_migratedRow] at hsucc
      rw [hhash q hq]
      by_cases hdone : row ∈ t.pending.take count
      · rw [migratedRow_of_mem hdone, relinkRow, hrechained.linked row hmem hdone q hq hsucc]
        rfl
      · rw [migratedRow_of_notMem hdone]
        refine (hrechained.kept row hmem hdone).linked q ?_ hsucc
        rw [(mem_partition.mp hmem).2]
        exact hq

end Rechained

end HashChainEntries

end Coivitas.Crypto
