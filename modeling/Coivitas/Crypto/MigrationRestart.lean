import Coivitas.Crypto.MigratedChains
import Coivitas.Crypto.Sha256

/-! # Restarting the migration

A table of version 1 chains goes through any runs, each of them cut off anywhere. When one
of them returns, every partition is a chain of version 2, and the migration is over.
-/

namespace Coivitas.Crypto

open Foundation

variable {P : HccPorts}

/-- The columns that no migration writes. -/
def ChainEntryRow.kept (row : ChainEntryRow) :
    String × String × Nat × String × ChainPartitionKey :=
  (row.entryId, row.canonicalPayload, row.chainPosition, row.timestamp, row.key)

namespace HashChainEntries

variable [LinearOrder ChainPartitionKey] {t u : HashChainEntries} {starts : String → Bool}
  {count : Nat}

theorem At.map_kept (hat : t.At P starts count u) :
    u.rows.map ChainEntryRow.kept = t.rows.map ChainEntryRow.kept := by
  rw [hat.rows, relinked, List.map_map]
  refine List.map_congr_left fun row _ => ?_
  show ChainEntryRow.kept (if _ then _ else _) = _
  split <;> rfl

/-- When nothing is left to migrate, every row that was to be migrated is. -/
theorem At.take_pending (hat : t.At P starts count u) (hmigrated : u.unmigrated = []) :
    t.pending.take count = t.pending := by
  have hdrop : t.pending.drop count = [] := by
    rw [← hat.pending_eq, pending, hmigrated]
    rfl
  have hsplit := List.take_append_drop count t.pending
  rwa [hdrop, List.append_nil] at hsplit

/-- The partition of a table of version 1 is rechained whatever the batches were. -/
theorem rechained_of_unmigrated {key : ChainPartitionKey} (hclear : t.Clear P starts count)
    (hall : t.pending.take count = t.pending) (hunmigrated : ∀ row ∈ t.rows, row.Unmigrated)
    (hidentity : validateChainIdentitySchema P key = true) (hnumbered : t.Numbered key)
    (hformed : ∀ row ∈ t.partition key, row.WellFormed P) : t.Rechained P starts count key := by
  have hpending : ∀ row ∈ t.partition key, row ∈ t.pending := by
    intro row hrow
    have hmem := (mem_partition.mp hrow).1
    exact mem_pending.mpr ⟨hmem, hunmigrated row hmem⟩
  refine ⟨hidentity, hnumbered, hformed, fun row hrow => ?_, fun row hrow hkept => ?_,
    fun row hrow _ q hq hsucc => ?_⟩
  · refine hclear.hashable row ?_
    rw [hall]
    exact hpending row hrow
  · rw [hall] at hkept
    exact absurd (hpending row hrow) hkept
  · have hkey : q.key = row.key := (mem_partition.mp hq).2.trans (mem_partition.mp hrow).2.symm
    exact link_of_previous (hpending q hq) hkey hsucc

theorem afterRuns_of_migrated (runs : List MigrationRun) (hmigrated : u.unmigrated = []) :
    afterRuns P runs u = u := by
  induction runs with
  | nil => rfl
  | cons R runs ih =>
      rw [afterRuns, List.foldl_cons, after_of_migrated hmigrated]
      exact ih

/-- Version 1 chains whose rows are well formed: once a run returns, every partition is
accepted under its identity, only the four columns have changed, and no run changes
anything any more. -/
theorem migrated_chains_verify {runs : List MigrationRun} {R : MigrationRun}
    {progress : MigrationProgress} {w' : MigrationWorld} {events : List MigrationEvent}
    (hunmigrated : ∀ row ∈ t.rows, row.Unmigrated)
    (hidentity : ∀ row ∈ t.rows, validateChainIdentitySchema P row.key = true)
    (hnumbered : ∀ row ∈ t.rows, t.Numbered row.key)
    (hformed : ∀ row ∈ t.rows, row.WellFormed P) (hdry : R.options.dryRun = false)
    (hreturned : (migrateHccV01ToV02 P R).run ⟨afterRuns P runs t, []⟩ =
      ⟨.ok progress, w', events⟩) :
    (∀ key, verifyHashChain P (w'.table.readChain key) ⟨some key, none⟩ = .ok ()) ∧
      (∀ row ∈ w'.table.rows, row.hccVersion = "2.0.0" ∧ row.chainIdentityJcs.isSome) ∧
      w'.table.rows.map ChainEntryRow.kept = t.rows.map ChainEntryRow.kept ∧
      ∀ further, afterRuns P further w'.table = w'.table := by
  have hmigrated := unmigrated_of_returned hdry hreturned
  have hafter : R.after P (afterRuns P runs t) = w'.table := by
    rw [MigrationRun.after, hreturned]
  obtain ⟨starts, count, hat⟩ : Reached P t w'.table :=
    hafter ▸ reached_after (reached_afterRuns ⟨fun _ => true, 0, At.zero⟩)
  have hall := hat.take_pending hmigrated
  refine ⟨fun key => ?_, fun row hrow => ?_, hat.map_kept, fun further =>
    afterRuns_of_migrated further hmigrated⟩
  · by_cases hne : w'.table.partition key = []
    · rw [readChain, hne]
      rfl
    · refine (verifyHashChain_readChain hne).mpr (hat.verifies_iff.mpr ?_)
      obtain ⟨row, hrow⟩ : ∃ row, row ∈ t.partition key := by
        rw [hat.partition_eq, List.map_eq_nil_iff] at hne
        exact List.exists_mem_of_ne_nil _ hne
      obtain ⟨hmem, rfl⟩ := mem_partition.mp hrow
      exact rechained_of_unmigrated hat.clear hall hunmigrated (hidentity row hmem)
        (hnumbered row hmem) fun row hrow => hformed row (mem_partition.mp hrow).1
  · rw [hat.rows, relinked, List.mem_map] at hrow
    obtain ⟨before, hbefore, rfl⟩ := hrow
    have hpending := mem_pending.mpr ⟨hbefore, hunmigrated before hbefore⟩
    rw [hall, if_pos hpending]
    exact ⟨rfl, rfl⟩

end HashChainEntries

/-! ## A run cut off, and a run to the end -/

namespace MigrationRestart

open HashChainEntries

/-- The order of the columns, `NULL` first. -/
def columns (key : ChainPartitionKey) : String ×ₗ WithBot String ×ₗ WithBot String :=
  toLex (key.chainNamespace, toLex (key.tenantId, key.auditClass))

theorem columns_injective : Function.Injective columns := by
  intro a b hab
  obtain ⟨hnamespace, hrest⟩ := Prod.mk.inj (toLex_inj.mp hab)
  obtain ⟨htenant, hclass⟩ := Prod.mk.inj (toLex_inj.mp hrest)
  cases a
  cases b
  exact ChainIdentity.mk.injEq .. ▸ ⟨hnamespace, htenant, hclass⟩

local instance byColumns : LinearOrder ChainPartitionKey :=
  LinearOrder.lift' columns columns_injective

def nilUuid : String := "00000000-0000-0000-0000-000000000000"

def ports : HccPorts where
  numberFormat := NumberFormat.decimal
  parse := Relink.ports.parse
  sha256 := Sha256.sha256
  uuidFormat text := isUuidV4 text || text == nilUuid
  dateTimeFormat := Relink.ports.dateTimeFormat

/-- A row of version 1 whose hash is the digest of its payload alone. -/
def row (entryId amount previousHash : String) (position : Nat) (key : ChainPartitionKey) :
    ChainEntryRow where
  entryId := entryId
  canonicalPayload := Relink.payload amount
  canonicalPayloadHash := toHex (Sha256.sha256 (utf8 (Relink.payload amount)))
  previousHash := previousHash
  chainPosition := position
  timestamp := "2026-01-01T00:00:00.000Z"
  hccVersion := "1.0.0"
  chainNamespace := key.chainNamespace
  tenantId := key.tenantId
  auditClass := key.auditClass
  chainIdentityJcs := none

/-- Two chains, the second entry of one of them stored first. -/
def twoChains : HashChainEntries where
  rows :=
    [row "00000000-0000-4000-8000-000000000001" "20"
        (toHex (Sha256.sha256 (utf8 (Relink.payload "10")))) 1 Relink.policyIdentity,
      row "00000000-0000-4000-8000-000000000002" "10" genesisPreviousHash 0 Relink.policyIdentity,
      row "00000000-0000-4000-8000-000000000003" "99" genesisPreviousHash 0
        ⟨"audit", none, some "L1"⟩]
  ids := by decide +kernel
  slots := by decide +kernel
  links := by decide +kernel

/-- Batches of one row, and no answer any more to the second `COMMIT`. -/
def cutOff : MigrationRun where
  options := { batchSize := 1 }
  fate history := if history.count .commit = 2 then .killed else .answered

def complete : MigrationRun where
  options := { batchSize := 2 }
  fate _ := .answered

theorem exists_returned {α : Type} {x : Migration α} {w : MigrationWorld}
    (hok : (x.run w).result.toOption.isSome = true) :
    ∃ a w' events, x.run w = ⟨.ok a, w', events⟩ := by
  rcases hrun : x.run w with ⟨result, w', events⟩
  rw [hrun] at hok
  cases result with
  | error e => cases hok
  | ok a => exact ⟨a, w', events, rfl⟩

theorem twoChains_wellFormed : ∀ row ∈ twoChains.rows, row.WellFormed ports := by
  have hcanonical : ∀ amount ∈ ["10", "99", "20"], CanonicalText ports (Relink.payload amount) := by
    intro amount hamount
    refine ⟨.obj [("amount", .str amount)], ?_⟩
    revert amount
    decide +kernel
  have hrows : ∀ row ∈ twoChains.rows, ports.uuidFormat row.entryId = true ∧
      isUuidV4 row.entryId = true ∧ 2 ≤ row.canonicalPayload.toList.length ∧
      (∃ amount ∈ ["10", "99", "20"], row.canonicalPayload = Relink.payload amount) ∧
      ports.dateTimeFormat row.timestamp = true := by
    decide +kernel
  intro row hrow
  obtain ⟨hformat, huuid, hlength, ⟨amount, hamount, hpayload⟩, hdate⟩ := hrows row hrow
  exact ⟨hformat, huuid, hlength, hpayload ▸ hcanonical amount hamount, hdate⟩

/-- One row is migrated when the process dies, and the run after it does the rest. -/
theorem twoChains_verify : (afterRuns ports [cutOff] twoChains).unmigrated.length = 2 ∧
    ∃ progress w' events, (migrateHccV01ToV02 ports complete).run
        ⟨afterRuns ports [cutOff] twoChains, []⟩ = ⟨.ok progress, w', events⟩ ∧
      (∀ key, verifyHashChain ports (w'.table.readChain key) ⟨some key, none⟩ = .ok ()) ∧
      (∀ row ∈ w'.table.rows, row.hccVersion = "2.0.0" ∧ row.chainIdentityJcs.isSome) ∧
      w'.table.rows.map ChainEntryRow.kept = twoChains.rows.map ChainEntryRow.kept ∧
      ∀ further, afterRuns ports further w'.table = w'.table := by
  refine ⟨by decide +kernel, ?_⟩
  obtain ⟨progress, w', events, hrun⟩ := exists_returned
    (x := migrateHccV01ToV02 ports complete) (w := ⟨afterRuns ports [cutOff] twoChains, []⟩)
    (by decide +kernel)
  exact ⟨progress, w', events, hrun, migrated_chains_verify (by decide +kernel)
    (by decide +kernel) (by decide +kernel) twoChains_wellFormed rfl hrun⟩

/-! ## An identifier of another version -/

/-- A single row under the nil identifier. -/
def nilRow : HashChainEntries where
  rows := [row nilUuid "10" genesisPreviousHash 0 Relink.policyIdentity]
  ids := by decide +kernel
  slots := by decide +kernel
  links := by decide +kernel

/-- The migration keeps an identifier that the schema of version 2 does not admit. -/
theorem migrated_chain_refused :
    ¬ ∀ (t : HashChainEntries) (runs : List MigrationRun) (R : MigrationRun)
        (progress : MigrationProgress) (w' : MigrationWorld) (events : List MigrationEvent),
      (∀ row ∈ t.rows, row.Unmigrated) →
      (∀ row ∈ t.rows, validateChainIdentitySchema ports row.key = true) →
      (∀ row ∈ t.rows, t.Numbered row.key) →
      (∀ row ∈ t.rows, CanonicalText ports row.canonicalPayload) →
      R.options.dryRun = false →
      (migrateHccV01ToV02 ports R).run ⟨afterRuns ports runs t, []⟩ = ⟨.ok progress, w', events⟩ →
        ∀ key, verifyHashChain ports (w'.table.readChain key) ⟨some key, none⟩ = .ok () := by
  intro h
  have hcanonical : ∀ row ∈ nilRow.rows, CanonicalText ports row.canonicalPayload := by
    intro row hrow
    rw [List.mem_singleton.mp hrow]
    exact ⟨.obj [("amount", .str "10")], by decide +kernel⟩
  have hrefused : ∀ run : Execution MigrationWorld MigrationEvent MigrationError
      MigrationProgress, run = (migrateHccV01ToV02 ports complete).run ⟨nilRow, []⟩ →
      verifyHashChain ports (run.world.table.readChain Relink.policyIdentity)
        ⟨some Relink.policyIdentity, none⟩ ≠ .ok () := by
    rintro _ rfl
    decide +kernel
  obtain ⟨progress, w', events, hrun⟩ := exists_returned
    (x := migrateHccV01ToV02 ports complete) (w := ⟨nilRow, []⟩) (by decide +kernel)
  have haccepted := h nilRow [] complete progress w' events (by decide +kernel)
    (by decide +kernel) (by decide +kernel) hcanonical rfl hrun Relink.policyIdentity
  exact hrefused _ hrun.symm haccepted

end MigrationRestart

end Coivitas.Crypto
