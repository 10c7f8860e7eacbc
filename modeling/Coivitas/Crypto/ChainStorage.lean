import Coivitas.Crypto.ChainMigration
import Coivitas.Crypto.HashChainBuilder
import Coivitas.Crypto.Sha256
import Coivitas.Foundation.UuidText

/-! # Storing hash chains

Entries go into `hash_chain_entries` in the order in which they were appended.
The table lets a previous hash occur once in a chain, and the hash of an entry
is one of its payload and the identity of the chain alone, so a payload that
comes back before the end of the chain is taken for a fork.
-/

namespace Coivitas.Crypto

open Foundation

/-! ## Inserting an entry -/

/-- How the database refuses a row. -/
inductive InsertError where
  | invalidText (column : String)
  | checkViolation (column : String)
  | uniqueViolation (index : String)
  deriving DecidableEq, Repr

def uuidColumn (column text : String) : Except InsertError String :=
  match UuidText.read text with
  | some uuid => pure uuid
  | none => throw (.invalidText column)

def textColumn (column text : String) : Except InsertError String := do
  require (isColumnText text = true) (.invalidText column)
  return text

def nullableColumn (column : String → Except InsertError String) :
    Option String → Except InsertError (Option String)
  | none => pure none
  | some text => do
      let value ← column text
      return some value

/-- The row of an entry, with the column types and the checks of the table. A hash of
another length than its column's fails the check of 64 digits; the timestamps that the runtime
writes are all read. -/
def insertedRow (entry : HashChainEntry) : Except InsertError ChainEntryRow := do
  let entryId ← uuidColumn "entry_id" entry.entryId
  let canonicalPayload ← textColumn "canonical_payload" entry.canonicalPayload
  let chainNamespace ← textColumn "chain_namespace" entry.chainIdentity.chainNamespace
  let tenantId ← nullableColumn (uuidColumn "tenant_id") entry.chainIdentity.tenantId
  let auditClass ← nullableColumn (textColumn "audit_class") entry.chainIdentity.auditClass
  require (entry.chainPosition < 2 ^ 63) (.invalidText "chain_position")
  require (isSha256Hex entry.canonicalPayloadHash = true) (.checkViolation "canonical_payload_hash")
  require (isSha256Hex entry.previousHash = true) (.checkViolation "previous_hash")
  require (0 ≤ entry.chainPosition) (.checkViolation "chain_position")
  require (isSemver entry.hccVersion = true) (.checkViolation "hcc_version")
  require (∀ text ∈ auditClass, text ∈ ["L1", "L2", "L3"]) (.checkViolation "audit_class")
  return {
    entryId, canonicalPayload, chainNamespace, tenantId, auditClass
    canonicalPayloadHash := entry.canonicalPayloadHash
    previousHash := entry.previousHash
    chainPosition := entry.chainPosition.toNat
    timestamp := entry.timestamp
    hccVersion := entry.hccVersion
    chainIdentityJcs := none }

namespace HashChainEntries

def empty : HashChainEntries := ⟨[], List.nodup_nil, List.nodup_nil, List.nodup_nil⟩

/-- `INSERT`, with the primary key and the two unique indexes. -/
def insert (t : HashChainEntries) (row : ChainEntryRow) : Except InsertError HashChainEntries :=
  if hids : ((t.rows ++ [row]).map ChainEntryRow.entryId).Nodup then
    if hslots : ((t.rows ++ [row]).map fun row => (row.indexKey, row.chainPosition)).Nodup then
      if hlinks : ((t.rows ++ [row]).map fun row => (row.indexKey, row.previousHash)).Nodup then
        .ok ⟨t.rows ++ [row], hids, hslots, hlinks⟩
      else .error (.uniqueViolation "uidx_hash_chain_entries_prev_hash")
    else .error (.uniqueViolation "uidx_hash_chain_entries_chain_pos")
  else .error (.uniqueViolation "hash_chain_entries_pkey")

/-- The entries one by one. -/
def store : HashChainEntries → List HashChainEntry → Except InsertError HashChainEntries
  | t, [] => pure t
  | t, entry :: entries => do
      let row ← insertedRow entry
      let t' ← t.insert row
      t'.store entries

end HashChainEntries

/-! ## What the table takes -/

/-- The three unique indexes hold of the rows. -/
structure UniqueRows (rows : List ChainEntryRow) : Prop where
  ids : (rows.map ChainEntryRow.entryId).Nodup
  slots : (rows.map fun row => (row.indexKey, row.chainPosition)).Nodup
  links : (rows.map fun row => (row.indexKey, row.previousHash)).Nodup

theorem UniqueRows.of_append {rows more : List ChainEntryRow} (h : UniqueRows (rows ++ more)) :
    UniqueRows rows :=
  ⟨(h.ids.sublist ((List.sublist_append_left rows more).map _)),
    (h.slots.sublist ((List.sublist_append_left rows more).map _)),
    (h.links.sublist ((List.sublist_append_left rows more).map _))⟩

theorem insert_eq_ok {t t' : HashChainEntries} {row : ChainEntryRow} :
    t.insert row = .ok t' ↔ t'.rows = t.rows ++ [row] := by
  constructor
  · intro h
    simp only [HashChainEntries.insert] at h
    split_ifs at h
    cases h
    rfl
  · intro hrows
    obtain ⟨rows, hids, hslots, hlinks⟩ := t'
    obtain rfl : rows = t.rows ++ [row] := hrows
    rw [HashChainEntries.insert, dif_pos hids, dif_pos hslots, dif_pos hlinks]

/-- The table takes the entries exactly if each has a row and the indexes hold of all. -/
theorem exists_store_iff {t : HashChainEntries} {entries : List HashChainEntry} :
    (∃ t', t.store entries = .ok t') ↔
      ∃ rows, entries.mapM insertedRow = .ok rows ∧ UniqueRows (t.rows ++ rows) := by
  induction entries generalizing t with
  | nil =>
      simp only [HashChainEntries.store, List.mapM_nil, pure_eq_ok]
      exact ⟨fun _ => ⟨[], rfl, by rw [List.append_nil]; exact ⟨t.ids, t.slots, t.links⟩⟩,
        fun _ => ⟨t, rfl⟩⟩
  | cons entry entries ih =>
      simp only [HashChainEntries.store, List.mapM_cons, bind_eq_ok, pure_eq_ok]
      constructor
      · rintro ⟨t', row, hrow, t₁, hinsert, hstore⟩
        obtain ⟨rows, hrows, hunique⟩ := ih.mp ⟨t', hstore⟩
        rw [insert_eq_ok.mp hinsert, List.append_assoc, List.singleton_append] at hunique
        exact ⟨row :: rows, ⟨row, hrow, rows, hrows, rfl⟩, hunique⟩
      · rintro ⟨_, ⟨row, hrow, rows, hrows, rfl⟩, hunique⟩
        rw [← List.singleton_append, ← List.append_assoc] at hunique
        have hfirst := hunique.of_append
        obtain ⟨t', hstore⟩ := (ih (t := ⟨_, hfirst.ids, hfirst.slots, hfirst.links⟩)).mpr
          ⟨rows, hrows, hunique⟩
        exact ⟨t', row, hrow, _, insert_eq_ok.mpr rfl, hstore⟩

/-! ## Appended entries -/

section Appended

variable (P : HccPorts) (identity : ChainIdentity)

/-- The hash that an entry gets for the canonical text of its payload. -/
def payloadHash (text : String) : String :=
  toHex (P.sha256 (concatPreimage text (identity.jcs P)))

/-- SHA-256 tells the preimages of a chain apart, and none of them has 32 zeros as its
digest. -/
structure DigestsApart (texts : List String) : Prop where
  apart : ∀ x ∈ texts, ∀ y ∈ texts,
    P.sha256 (concatPreimage x (identity.jcs P)) = P.sha256 (concatPreimage y (identity.jcs P)) →
      concatPreimage x (identity.jcs P) = concatPreimage y (identity.jcs P)
  nonzero : ∀ x ∈ texts,
    P.sha256 (concatPreimage x (identity.jcs P)) ≠ List.replicate 32 0

/-- The column types take the identity: the tenant is written as the database reads UUIDs,
and the namespace has no NUL. -/
def ChainIdentity.Storable (identity : ChainIdentity) : Prop :=
  isColumnText identity.chainNamespace = true ∧
    ∀ tenantId ∈ identity.tenantId, ∃ uuid, UuidText.read tenantId = some uuid

/-- The columns of the unique indexes that name the chain of an identity. -/
def ChainIdentity.indexKey (identity : ChainIdentity) : String × String × String :=
  ((identity.tenantId.bind UuidText.read).getD "00000000-0000-0000-0000-000000000000",
    identity.auditClass.getD "__NULL__", identity.chainNamespace)

/-- The row of an entry that the column types take. -/
def HashChainEntry.row (entry : HashChainEntry) : ChainEntryRow where
  entryId := entry.entryId
  canonicalPayload := entry.canonicalPayload
  canonicalPayloadHash := entry.canonicalPayloadHash
  previousHash := entry.previousHash
  chainPosition := entry.chainPosition.toNat
  timestamp := entry.timestamp
  hccVersion := entry.hccVersion
  chainNamespace := entry.chainIdentity.chainNamespace
  tenantId := entry.chainIdentity.tenantId.bind UuidText.read
  auditClass := entry.chainIdentity.auditClass
  chainIdentityJcs := none

variable {P identity} {lastEntry : Option HashChainEntry} {call : AppendCall}

theorem payloadHash_inj {texts : List String} (hapart : DigestsApart P identity texts) :
    ∀ x ∈ texts, ∀ y ∈ texts, payloadHash P identity x = payloadHash P identity y → x = y := by
  intro x hx y hy hhash
  have hpreimage := hapart.apart x hx y hy (toHex_injective hhash)
  exact utf8_injective (List.append_cancel_right hpreimage)

theorem payloadHash_ne_genesis {texts : List String} (hapart : DigestsApart P identity texts)
    {x : String} (hx : x ∈ texts) : payloadHash P identity x ≠ genesisPreviousHash := by
  rw [genesisPreviousHash_eq]
  exact fun hhash => hapart.nonzero x hx (toHex_injective hhash)

theorem linkPreviousHash_eq {previousHash : String}
    (hlast : ∀ last ∈ lastEntry, ∃ bytes, last.canonicalPayloadHash = toHex bytes)
    (h : linkPreviousHash lastEntry = .ok previousHash) :
    previousHash = (builtEntry P identity lastEntry call).previousHash := by
  cases lastEntry with
  | none => exact Except.ok.inj (h.symm.trans linkPreviousHash_none)
  | some last =>
      obtain ⟨bytes, hbytes⟩ := hlast last rfl
      simp only [linkPreviousHash, toPreviousHash, bind_eq_ok, exists_unit, require_eq_ok,
        pure_eq_ok] at h
      rw [← h.2.2, hbytes, toLowerCase_toHex, ← hbytes]
      rfl

theorem nextPosition_eq {position : Int} (h : nextPosition lastEntry = .ok position) :
    position = (builtEntry P identity lastEntry call).chainPosition := by
  cases lastEntry with
  | none => exact (Except.ok.inj h).symm
  | some last =>
      simp only [nextPosition, bind_eq_ok, exists_unit, require_eq_ok, pure_eq_ok] at h
      exact h.2.symm

/-- What a call returns is the entry of the builder. -/
theorem eq_builtEntry {entry : HashChainEntry} (huuid : isUuidV4 call.randomUUID = true)
    (hlast : ∀ last ∈ lastEntry, ∃ bytes, last.canonicalPayloadHash = toHex bytes)
    (h : appendHashChainEntry P call identity lastEntry = .ok entry) :
    entry = builtEntry P identity lastEntry call ∧ entry.chainPosition ≤ maxSafeInteger ∧
      validateHashChainEntrySchema P entry = true := by
  simp only [appendHashChainEntry, canonicalizeChainIdentity, toChainIdentityJcs,
    computeCanonicalPayloadHashHex, toCanonicalPayloadHash, toChainPosition, toHashChainEntryId,
    toHccVersionString, bind_eq_ok, exists_unit, require_eq_ok, pure_eq_ok] at h
  obtain ⟨-, _, ⟨-, -, -, -, rfl⟩, _, ⟨-, -, rfl⟩, _, ⟨-, rfl⟩, _, ⟨-, rfl⟩, _, hprevious, _, hnext,
    _, ⟨hposition, rfl⟩, _, ⟨-, rfl⟩, _, ⟨-, -, rfl⟩, hschema, rfl⟩ := h
  obtain rfl := @linkPreviousHash_eq P identity lastEntry call _ hlast hprevious
  obtain rfl := @nextPosition_eq P identity lastEntry call _ hnext
  refine ⟨?_, hposition.2, hschema⟩
  rw [toLowerCase_uuid huuid]
  rfl

/-- What a run of calls returns is the chain of the builder. -/
theorem eq_built {calls : List AppendCall} {entries : List HashChainEntry}
    (huuid : ∀ call ∈ calls, isUuidV4 call.randomUUID = true)
    (hlast : ∀ last ∈ lastEntry, ∃ bytes, last.canonicalPayloadHash = toHex bytes)
    (h : appendAll P identity lastEntry calls = .ok entries) :
    entries = built P identity lastEntry calls ∧ ∀ entry ∈ entries,
      entry.chainPosition ≤ maxSafeInteger ∧ validateHashChainEntrySchema P entry = true := by
  induction calls generalizing lastEntry entries with
  | nil =>
      obtain rfl : [] = entries := Except.ok.inj h
      exact ⟨rfl, by simp⟩
  | cons call calls ih =>
      simp only [appendAll, bind_eq_ok, pure_eq_ok] at h
      obtain ⟨entry, hentry, rest, hrest, rfl⟩ := h
      obtain ⟨rfl, hfacts⟩ := eq_builtEntry (huuid call List.mem_cons_self) hlast hentry
      obtain ⟨rfl, hall⟩ := ih (fun other hother => huuid other (List.mem_cons_of_mem _ hother))
        (fun last hmem => ⟨_, congrArg HashChainEntry.canonicalPayloadHash
          (Option.mem_some.mp hmem).symm⟩) hrest
      exact ⟨rfl, List.forall_mem_cons.mpr ⟨hfacts, hall⟩⟩

/-! ## The rows of a chain -/

/-- A version 4 identifier is kept as it is. -/
theorem read_of_isUuidV4 {s : String} (huuid : isUuidV4 s = true) : UuidText.read s = some s := by
  have hmatches : matchesEach (List.replicate 8 isLowerHex ++ ((· == '-') :: (List.replicate 4
      isLowerHex ++ ((· == '-') :: (· == '4') :: (List.replicate 3 isLowerHex ++ ((· == '-') ::
        (['8', '9', 'a', 'b'].contains ·) :: (List.replicate 3 isLowerHex ++ ((· == '-') ::
          (List.replicate 12 isLowerHex ++ []))))))))) s.toList = true := by
    simpa [isUuidV4] using huuid
  obtain ⟨first, _, hs, hfirst, hlower₁, h1⟩ := matchesEach_replicate hmatches
  obtain ⟨dash, _, rfl, hdash, h2⟩ := matchesEach_cons h1
  obtain rfl : dash = '-' := by simpa using hdash
  obtain ⟨second, _, rfl, hsecond, hlower₂, h3⟩ := matchesEach_replicate h2
  obtain ⟨dash, _, rfl, hdash, h4⟩ := matchesEach_cons h3
  obtain rfl : dash = '-' := by simpa using hdash
  obtain ⟨four, _, rfl, hfour, h5⟩ := matchesEach_cons h4
  obtain rfl : four = '4' := by simpa using hfour
  obtain ⟨third, _, rfl, hthird, hlower₃, h6⟩ := matchesEach_replicate h5
  obtain ⟨dash, _, rfl, hdash, h7⟩ := matchesEach_cons h6
  obtain rfl : dash = '-' := by simpa using hdash
  obtain ⟨variant, _, rfl, hvariant, h8⟩ := matchesEach_cons h7
  have hvariants : ['8', '9', 'a', 'b'].all isLowerHex = true := by decide
  have hvariant' : isLowerHex variant = true :=
    List.all_eq_true.mp hvariants variant (List.contains_iff_mem.mp hvariant)
  obtain ⟨fourth, _, rfl, hfourth, hlower₄, h9⟩ := matchesEach_replicate h8
  obtain ⟨dash, _, rfl, hdash, h10⟩ := matchesEach_cons h9
  obtain rfl : dash = '-' := by simpa using hdash
  obtain ⟨fifth, _, rfl, hfifth, hlower₅, h11⟩ := matchesEach_replicate h10
  obtain rfl := eq_nil_of_matchesEach h11
  have hdashed : s.toList = first ++ '-' :: (second ++ '-' :: (('4' :: third) ++
      '-' :: ((variant :: fourth) ++ '-' :: fifth))) := by
    rw [hs, List.append_nil]
    rfl
  refine UuidText.read_of_dashed hdashed hfirst hsecond (by rw [List.length_cons, hthird])
    (by rw [List.length_cons, hfourth]) hfifth ?_
  intro c hc
  simp only [List.mem_append, List.mem_cons] at hc
  rcases hc with hc | hc | (rfl | hc) | (rfl | hc) | hc
  · exact hlower₁ c hc
  · exact hlower₂ c hc
  · rfl
  · exact hlower₃ c hc
  · exact hvariant'
  · exact hlower₄ c hc
  · exact hlower₅ c hc
theorem textColumn_eq_ok {column text value : String} :
    textColumn column text = .ok value ↔ isColumnText text = true ∧ value = text := by
  simp only [textColumn, bind_eq_ok, exists_unit, require_eq_ok, pure_eq_ok]
  exact and_congr_right fun _ => eq_comm

theorem uuidColumn_eq_ok {column text value : String} :
    uuidColumn column text = .ok value ↔ UuidText.read text = some value := by
  unfold uuidColumn
  split
  next uuid hread => simp [hread, pure_eq_ok]
  next hread => simp [hread]

/-- The tenant column takes an absent tenant and one that reads as a UUID. -/
theorem tenantColumn_eq_ok {tenantId value : Option String} :
    nullableColumn (uuidColumn "tenant_id") tenantId = .ok value ↔
      (∀ tenant ∈ tenantId, ∃ uuid, UuidText.read tenant = some uuid) ∧
        value = tenantId.bind UuidText.read := by
  cases tenantId with
  | none => simpa [nullableColumn, pure_eq_ok] using eq_comm
  | some tenant =>
      simp only [nullableColumn, bind_eq_ok, uuidColumn_eq_ok, pure_eq_ok, Option.mem_some_iff,
        forall_eq', Option.bind_some]
      constructor
      · rintro ⟨uuid, hread, rfl⟩
        exact ⟨⟨uuid, hread⟩, hread.symm⟩
      · rintro ⟨⟨uuid, hread⟩, rfl⟩
        exact ⟨uuid, hread, hread.symm⟩

theorem classColumn_eq_ok {auditClass value : Option String}
    (hclass : ∀ text ∈ auditClass, text ∈ ["L1", "L2", "L3"]) :
    nullableColumn (textColumn "audit_class") auditClass = .ok value ↔ value = auditClass := by
  cases auditClass with
  | none => exact pure_eq_ok.trans eq_comm
  | some text =>
      have hcolumn : ∀ text ∈ ["L1", "L2", "L3"], isColumnText text = true := by decide
      simp only [nullableColumn, bind_eq_ok, textColumn_eq_ok, pure_eq_ok,
        hcolumn text (hclass text rfl), true_and, exists_eq_left]
      exact eq_comm

/-- The columns take an entry that passes the schema exactly if they take its identity. -/
theorem insertedRow_eq_ok {entry : HashChainEntry} {row : ChainEntryRow}
    (htext : isColumnText entry.canonicalPayload = true)
    (hroom : entry.chainPosition ≤ maxSafeInteger)
    (hschema : validateHashChainEntrySchema P entry = true) :
    insertedRow entry = .ok row ↔ entry.chainIdentity.Storable ∧ row = entry.row := by
  simp only [validateHashChainEntrySchema, validateChainIdentitySchema, Bool.and_eq_true,
    decide_eq_true_eq, beq_iff_eq, Option.all_eq_true, List.contains_iff_mem] at hschema
  obtain ⟨⟨⟨⟨⟨⟨⟨⟨-, huuid⟩, -⟩, hhash⟩, hprevious⟩, hposition⟩, -, hclass⟩, -⟩, hversion⟩ := hschema
  have hbigint : entry.chainPosition < 2 ^ 63 := by
    simp only [maxSafeInteger] at hroom
    omega
  have hsemver : isSemver entry.hccVersion = true := by
    rw [hversion]
    decide
  simp only [insertedRow, bind_eq_ok, exists_unit, require_eq_ok, pure_eq_ok, uuidColumn_eq_ok,
    textColumn_eq_ok, tenantColumn_eq_ok, classColumn_eq_ok hclass, read_of_isUuidV4 huuid]
  constructor
  · rintro ⟨_, hid, _, ⟨-, rfl⟩, _, ⟨hnamespace, rfl⟩, _, ⟨htenant, rfl⟩, _, rfl, -, -, -, -, -, -,
      rfl⟩
    obtain rfl := Option.some.inj hid
    exact ⟨⟨hnamespace, htenant⟩, rfl⟩
  · rintro ⟨⟨hnamespace, htenant⟩, rfl⟩
    exact ⟨_, rfl, _, ⟨htext, rfl⟩, _, ⟨hnamespace, rfl⟩, _, ⟨htenant, rfl⟩, _, rfl, hbigint, hhash,
      hprevious, hposition, hsemver, hclass, rfl⟩

/-! ## The columns of a chain -/

/-- The rows of entries of which one kind of fact decides whether the columns take them. -/
theorem mapM_insertedRow_eq_ok {entries : List HashChainEntry} {rows : List ChainEntryRow}
    {taken : Prop} (hrow : ∀ entry ∈ entries, ∀ row,
      insertedRow entry = .ok row ↔ taken ∧ row = entry.row) :
    entries.mapM insertedRow = .ok rows ↔
      (entries ≠ [] → taken) ∧ rows = entries.map HashChainEntry.row := by
  induction entries generalizing rows with
  | nil =>
      rw [List.mapM_nil, pure_eq_ok]
      simp [eq_comm]
  | cons entry entries ih =>
      have hfirst := hrow entry List.mem_cons_self
      have hrest := fun rows => @ih rows fun other hother =>
        hrow other (List.mem_cons_of_mem _ hother)
      simp only [List.mapM_cons, bind_eq_ok, pure_eq_ok, hfirst, hrest]
      constructor
      · rintro ⟨_, ⟨htaken, rfl⟩, _, ⟨-, rfl⟩, rfl⟩
        exact ⟨fun _ => htaken, rfl⟩
      · rintro ⟨htaken, rfl⟩
        have htaken := htaken (List.cons_ne_nil _ _)
        exact ⟨_, ⟨htaken, rfl⟩, _, ⟨fun _ => htaken, rfl⟩, rfl⟩

theorem chainIdentity_built {calls : List AppendCall} :
    ∀ entry ∈ built P identity lastEntry calls, entry.chainIdentity = identity := by
  induction calls generalizing lastEntry with
  | nil => simp [built]
  | cons call calls ih => exact List.forall_mem_cons.mpr ⟨rfl, ih⟩

theorem isColumnText_built {calls : List AppendCall} :
    ∀ entry ∈ built P identity lastEntry calls, isColumnText entry.canonicalPayload = true := by
  induction calls generalizing lastEntry with
  | nil => simp [built]
  | cons call calls ih =>
      exact List.forall_mem_cons.mpr ⟨isColumnText_canonicalize P.numberFormat _, ih⟩

theorem map_entryId_built {calls : List AppendCall} :
    (built P identity lastEntry calls).map HashChainEntry.entryId =
      calls.map AppendCall.randomUUID := by
  induction calls generalizing lastEntry with
  | nil => rfl
  | cons call calls ih => exact congrArg (call.randomUUID :: ·) ih

theorem map_chainPosition_built {calls : List AppendCall} {start : Nat}
    (hstart : (lastEntry.map fun last => last.chainPosition + 1).getD 0 = (start : Int)) :
    (built P identity lastEntry calls).map (fun entry => entry.chainPosition.toNat) =
      List.range' start calls.length := by
  induction calls generalizing lastEntry start with
  | nil => rfl
  | cons call calls ih =>
      have hnext : (builtEntry P identity lastEntry call).chainPosition = start := hstart
      have hrest := @ih (some (builtEntry P identity lastEntry call)) (start + 1)
        (congrArg (· + 1) hnext)
      simp only [built, List.map_cons, List.length_cons, List.range'_succ, hrest, hnext,
        Int.toNat_natCast]

/-- The links of a chain: where it starts, and the hash of each payload but the last. -/
theorem map_previousHash_built {calls : List AppendCall} :
    (built P identity lastEntry calls).map HashChainEntry.previousHash =
      ((lastEntry.map HashChainEntry.canonicalPayloadHash).getD genesisPreviousHash ::
        calls.map fun call => payloadHash P identity
          (canonicalizeHashChainEntryToString P call.payload)).dropLast := by
  induction calls generalizing lastEntry with
  | nil => rfl
  | cons call calls ih =>
      rw [List.map_cons, List.dropLast_cons_cons]
      exact congrArg (List.cons _) (@ih (some (builtEntry P identity lastEntry call)))

/-- A column of the rows that join a table: unique together with the columns of the index that
name the chain if it is unique among them. -/
theorem nodup_map_append {β : Type} {key : String × String × String} {column : ChainEntryRow → β}
    {rows more : List ChainEntryRow}
    (hrows : (rows.map fun row => (row.indexKey, column row)).Nodup)
    (hother : ∀ row ∈ rows, row.indexKey ≠ key) (hmore : ∀ row ∈ more, row.indexKey = key) :
    ((rows ++ more).map fun row => (row.indexKey, column row)).Nodup ↔
      (more.map column).Nodup := by
  have hkeyed : (more.map fun row => (row.indexKey, column row)) =
      (more.map column).map (Prod.mk key) := by
    rw [List.map_map]
    exact List.map_congr_left fun row hrow => congrArg (·, column row) (hmore row hrow)
  have hdisjoint : (rows.map fun row => (row.indexKey, column row)).Disjoint
      ((more.map column).map (Prod.mk key)) := by
    intro pair hpair hpair'
    obtain ⟨row, hrow, rfl⟩ := List.mem_map.mp hpair
    obtain ⟨value, -, hvalue⟩ := List.mem_map.mp hpair'
    exact hother row hrow (congrArg Prod.fst hvalue).symm
  rw [List.map_append, hkeyed, List.nodup_append', List.nodup_map_iff (Prod.mk_right_injective key)]
  exact ⟨fun h => h.2.1, fun h => ⟨hrows, h, hdisjoint⟩⟩

/-- The link of the first entry is none of the others, and these are unique exactly if the texts
in front of the last one are. -/
theorem nodup_links_iff {calls : List AppendCall} (hapart : DigestsApart P identity
      (calls.map fun call => canonicalizeHashChainEntryToString P call.payload)) :
    ((built P identity none calls).map HashChainEntry.previousHash).Nodup ↔
      ((calls.map fun call =>
        canonicalizeHashChainEntryToString P call.payload).dropLast).Nodup := by
  rw [map_previousHash_built]
  cases calls with
  | nil => simp
  | cons call calls =>
      set texts := (call :: calls).map fun call =>
        canonicalizeHashChainEntryToString P call.payload
      have hhashes : ((call :: calls).map fun call => payloadHash P identity
          (canonicalizeHashChainEntryToString P call.payload)) =
            texts.map (payloadHash P identity) := by
        rw [List.map_map]
        rfl
      have hmem := fun text (htext : text ∈ texts.dropLast) => List.mem_of_mem_dropLast htext
      have hgenesis : genesisPreviousHash ∉ texts.dropLast.map (payloadHash P identity) := by
        intro hmap
        obtain ⟨text, htext, hhash⟩ := List.mem_map.mp hmap
        exact payloadHash_ne_genesis hapart (hmem text htext) hhash
      have hhashed : (texts.dropLast.map (payloadHash P identity)).Nodup ↔
          texts.dropLast.Nodup :=
        ⟨List.Nodup.of_map _, List.Nodup.map_on fun x hx y hy =>
          payloadHash_inj hapart x (hmem x hx) y (hmem y hy)⟩
      rw [hhashes, List.dropLast_cons_of_ne_nil (by simp [texts]), ← List.map_dropLast,
        Option.map_none, Option.getD_none, List.nodup_cons, hhashed, and_iff_right hgenesis]

/-! ## Which chains the table takes -/

section Storing

variable {t : HashChainEntries} {calls : List AppendCall}

/-- The chain of the builder, into a table that has no row of it and none of its identifiers. -/
theorem exists_store_built_iff
    (hdistinct : (calls.map AppendCall.randomUUID).Nodup)
    (hother : ∀ row ∈ t.rows,
      row.indexKey ≠ identity.indexKey ∧ row.entryId ∉ calls.map AppendCall.randomUUID)
    (hentries : ∀ entry ∈ built P identity none calls,
      entry.chainPosition ≤ maxSafeInteger ∧ validateHashChainEntrySchema P entry = true) :
    (∃ t', t.store (built P identity none calls) = .ok t') ↔
      (calls ≠ [] → identity.Storable) ∧
        ((built P identity none calls).map HashChainEntry.previousHash).Nodup := by
  have hrow : ∀ entry ∈ built P identity none calls, ∀ row,
      insertedRow entry = .ok row ↔ identity.Storable ∧ row = entry.row := by
    intro entry hentry row
    obtain ⟨hroom, hschema⟩ := hentries entry hentry
    have hcolumns := @insertedRow_eq_ok P entry row (isColumnText_built entry hentry) hroom hschema
    rwa [chainIdentity_built entry hentry] at hcolumns
  have hempty : built P identity none calls ≠ [] ↔ calls ≠ [] := by
    cases calls with
    | nil => simp [built]
    | cons call calls => simp [built]
  have hkeys : ∀ row ∈ (built P identity none calls).map HashChainEntry.row,
      row.indexKey = identity.indexKey := by
    intro row hrow
    obtain ⟨entry, hentry, rfl⟩ := List.mem_map.mp hrow
    rw [← chainIdentity_built entry hentry]
    rfl
  have hapart := fun row hrow => (hother row hrow).1
  have hpositions := @map_chainPosition_built P identity none calls 0 rfl
  have hslots : (((built P identity none calls).map HashChainEntry.row).map
      ChainEntryRow.chainPosition).Nodup := by
    rw [List.map_map]
    exact hpositions ▸ List.nodup_range'
  have hlinks := nodup_map_append t.links hapart hkeys
  rw [List.map_map] at hlinks
  rw [exists_store_iff]
  constructor
  · rintro ⟨rows, hrows, hunique⟩
    obtain ⟨htaken, rfl⟩ := (mapM_insertedRow_eq_ok hrow).mp hrows
    exact ⟨fun hcalls => htaken (hempty.mpr hcalls), hlinks.mp hunique.links⟩
  · rintro ⟨htaken, hnodup⟩
    refine ⟨_, (mapM_insertedRow_eq_ok hrow).mpr ⟨fun hbuilt => htaken (hempty.mp hbuilt), rfl⟩,
      ?_, (nodup_map_append t.slots hapart hkeys).mpr hslots, hlinks.mpr hnodup⟩
    have hids : ((built P identity none calls).map HashChainEntry.row).map ChainEntryRow.entryId =
        calls.map AppendCall.randomUUID := by
      rw [List.map_map]
      exact map_entryId_built
    rw [List.map_append, hids, List.nodup_append']
    refine ⟨t.ids, hdistinct, fun id hid hid' => ?_⟩
    obtain ⟨row, hrow, rfl⟩ := List.mem_map.mp hid
    exact (hother row hrow).2 hid'

/-- A chain is stored exactly if the columns take its identity and no canonical text comes twice
in front of the last one. -/
theorem stored_iff {entries : List HashChainEntry}
    (huuid : ∀ call ∈ calls, isUuidV4 call.randomUUID = true)
    (hdistinct : (calls.map AppendCall.randomUUID).Nodup)
    (hapart : DigestsApart P identity
      (calls.map fun call => canonicalizeHashChainEntryToString P call.payload))
    (hother : ∀ row ∈ t.rows,
      row.indexKey ≠ identity.indexKey ∧ row.entryId ∉ calls.map AppendCall.randomUUID)
    (happended : appendAll P identity none calls = .ok entries) :
    (∃ t', t.store entries = .ok t') ↔
      (calls ≠ [] → identity.Storable) ∧
        ((calls.map fun call =>
          canonicalizeHashChainEntryToString P call.payload).dropLast).Nodup := by
  obtain ⟨rfl, hentries⟩ := eq_built huuid (by simp) happended
  rw [exists_store_built_iff hdistinct hother hentries, nodup_links_iff hapart]

end Storing

end Appended

namespace Repeated

open Relink

def drawn (entryId amount : String) : AppendCall := { appended amount with randomUUID := entryId }

def distinct : List AppendCall :=
  [drawn "00000000-0000-4000-8000-000000000001" "10",
    drawn "00000000-0000-4000-8000-000000000002" "20"]

def repeated : List AppendCall :=
  [drawn "00000000-0000-4000-8000-000000000001" "10",
    drawn "00000000-0000-4000-8000-000000000002" "10",
    drawn "00000000-0000-4000-8000-000000000003" "10"]

theorem drawn_served {entryId amount : String} (huuid : isUuidV4 entryId = true)
    (hamount : amount ∈ ["10", "20"]) : (drawn entryId amount).Served ports := by
  have hserved : (appended amount).Served ports := by
    simp only [List.mem_cons, List.not_mem_nil, or_false] at hamount
    rcases hamount with rfl | rfl
    · exact appended_served _ (by simp)
    · exact appended_served _ (by simp)
  exact ⟨huuid, huuid, hserved.dateTime, hserved.reparsed⟩

theorem distinct_served : ∀ call ∈ distinct, call.Served ports := by
  simp only [distinct, List.forall_mem_cons, List.not_mem_nil, false_imp_iff, implies_true,
    and_true]
  exact ⟨drawn_served (by decide) (by simp), drawn_served (by decide) (by simp)⟩

theorem repeated_served : ∀ call ∈ repeated, call.Served ports := by
  simp only [repeated, List.forall_mem_cons, List.not_mem_nil, false_imp_iff, implies_true,
    and_true]
  exact ⟨drawn_served (by decide) (by simp), drawn_served (by decide) (by simp),
    drawn_served (by decide) (by simp)⟩

theorem distinct_digestsApart : DigestsApart ports policyIdentity
    (distinct.map fun call => canonicalizeHashChainEntryToString ports call.payload) := by
  constructor
  · decide
  · decide

theorem distinct_stored :
    ∃ entries t', appendAll ports policyIdentity none distinct = .ok entries ∧
      HashChainEntries.empty.store entries = .ok t' := by
  have happended : appendAll ports policyIdentity none distinct =
      .ok (built ports policyIdentity none distinct) :=
    appendAll_eq_ok length_sha256 policyIdentity_valid distinct distinct_served (by decide)
      (by simp [Continues])
  obtain ⟨t', hstored⟩ := (stored_iff (t := HashChainEntries.empty)
    (fun call hcall => (distinct_served call hcall).uuid) (by decide) distinct_digestsApart
    (by simp [HashChainEntries.empty]) happended).mpr
    ⟨fun _ => ⟨by decide, by simp [policyIdentity]⟩, by decide⟩
  exact ⟨_, t', happended, hstored⟩

/-- An honest writer is refused: the second of three equal payloads has the hash of the first
one, so the third entry names a previous hash that the chain has already. -/
theorem repeated_refused :
    ¬ ∀ (identity : ChainIdentity) (calls : List AppendCall), identity.Valid ports →
      (∀ call ∈ calls, call.Served ports) → (calls.map AppendCall.randomUUID).Nodup →
        ∀ entries, appendAll ports identity none calls = .ok entries →
          ∃ t', HashChainEntries.empty.store entries = .ok t' := by
  intro h
  have happended : appendAll ports policyIdentity none repeated =
      .ok (built ports policyIdentity none repeated) :=
    appendAll_eq_ok length_sha256 policyIdentity_valid repeated repeated_served (by decide)
      (by simp [Continues])
  have hdistinct : (repeated.map AppendCall.randomUUID).Nodup := by decide
  obtain ⟨-, hentries⟩ := eq_built (fun call hcall => (repeated_served call hcall).uuid)
    (by simp) happended
  have hstored := (exists_store_built_iff hdistinct (by simp [HashChainEntries.empty]) hentries).mp
    (h policyIdentity repeated policyIdentity_valid repeated_served hdistinct _ happended)
  rw [map_previousHash_built] at hstored
  simp [repeated, drawn, appended] at hstored

end Repeated

end Coivitas.Crypto
