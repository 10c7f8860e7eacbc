import Coivitas.Foundation.Run
import Coivitas.Policy.CrossDomainSettle

/-! # Reconciliation under interleaving

Calls of `appendSettle` read the clock before their insert is committed, and
calls of `reconcile` read the cursor, pull, confirm and store the cursor as
separate statements. A pull misses nothing that is committed after what the
cursors have passed.
-/

namespace Coivitas.Policy.CrossDomain

open Foundation Coivitas.Types

inductive ReconcileStage where
  | opened
  /-- The batch and its results, with what is left to be confirmed. -/
  | pulled (records : List SettleRecord) (results : List ReconciliationResult)
      (unconfirmed : List String)
  | over
  deriving DecidableEq

/-- A call of `reconcile` with the cursor it has read. -/
structure ReconcileCall where
  key : CursorKey
  recipientPublicKey : String
  reconcileBatchSize : Nat
  cursor : Option ReconciliationCursor
  stage : ReconcileStage
  deriving DecidableEq

/-- The tables of both domains, the inserts and the calls in flight, and all results returned. -/
structure SettleSystem where
  table : SettleTable
  cursors : OrderedMap CursorKey ReconciliationCursor
  inserts : List SettleRow
  calls : Nat → Option ReconcileCall
  callCount : Nat
  returned : List (CursorKey × ReconciliationResult)

namespace SettleSystem

def start : SettleSystem := ⟨Table.empty, OrderedMap.empty, [], fun _ => none, 0, []⟩

def setStage (s : SettleSystem) (j : Nat) (call : ReconcileCall) (stage : ReconcileStage) :
    SettleSystem :=
  { s with calls := Function.update s.calls j (some { call with stage }) }

def returnedIds (s : SettleSystem) (key : CursorKey) : List String :=
  (s.returned.filter fun entry => entry.1 = key).map fun entry => entry.2.settleId

end SettleSystem

inductive SettleEvent where
  /-- A call of `appendSettle` runs up to its insert. -/
  | appendSettle (req : SettleRequest) (senderPublicKey : String) (now : Int)
  | insert (row : SettleRow)
  | failInsert (row : SettleRow)
  /-- A call of `reconcile` reads its cursor. -/
  | getCursor (key : CursorKey) (recipientPublicKey : String) (reconcileBatchSize : Nat)
  | pull (j : Nat)
  | confirm (j : Nat) (now : Int)
  /-- The cursor is stored and the results are returned. -/
  | updateCursor (j : Nat)
  | fail (j : Nat)
  | reap (now : Int)

variable (P : SettlePorts) (H : RecipientSettleHandler)

def SettleSystem.step (s : SettleSystem) : SettleEvent → Option SettleSystem
  | .appendSettle req senderPublicKey now =>
      match prepareSettle P H req senderPublicKey now s.table with
      | .ok (.insert row) => some { s with inserts := row :: s.inserts }
      | _ => some s
  | .insert row =>
      if row ∈ s.inserts then
        some { s with table := s.table.insertOrIgnore row, inserts := s.inserts.erase row }
      else none
  | .failInsert row =>
      if row ∈ s.inserts then some { s with inserts := s.inserts.erase row } else none
  | .getCursor key recipientPublicKey reconcileBatchSize =>
      some { s with
        calls := Function.update s.calls s.callCount (some ⟨key, recipientPublicKey,
          reconcileBatchSize, s.cursors.get? key, .opened⟩)
        callCount := s.callCount + 1 }
  | .pull j =>
      match s.calls j with
      | some call =>
          if call.stage = .opened then
            match pullSettles P call.key call.recipientPublicKey call.cursor
              call.reconcileBatchSize s.table with
            | .error _ => some (s.setStage j call .over)
            | .ok (records, results) =>
                if records = [] then some (s.setStage j call .over)
                else some (s.setStage j call (.pulled records results (confirmedIds results)))
          else none
      | none => none
  | .confirm j now =>
      match s.calls j with
      | some call =>
          match call.stage with
          | .pulled records results unconfirmed =>
              some { s.setStage j call (.pulled records results []) with
                table := confirmSettle unconfirmed now s.table }
          | _ => none
      | none => none
  | .updateCursor j =>
      match s.calls j with
      | some call =>
          match call.stage with
          | .pulled records results [] =>
              match records.getLast? with
              | some lastRecord => some { s.setStage j call .over with
                  cursors := s.cursors.set call.key ⟨lastRecord.createdAt, lastRecord.settleId⟩
                  returned := s.returned ++ results.map fun result => (call.key, result) }
              | none => none
          | _ => none
      | none => none
  | .fail j =>
      match s.calls j with
      | some call => if call.stage ≠ .over then some (s.setStage j call .over) else none
      | none => none
  | .reap now => some { s with table := (reapExpiredPending now s.table).1 }

/-! ## The property and its condition -/

/-- The last record of the batch of a call that has pulled. -/
def ReconcileCall.lastRecord (call : ReconcileCall) : Option SettleRecord :=
  match call.stage with
  | .pulled records _ _ => records.getLast?
  | _ => none

/-- A committed record of the key has been returned, or the next query selects it, the limit
aside; and nothing has been returned twice. -/
structure SkipsNothing (s : SettleSystem) (key : CursorKey) : Prop where
  covered : ∀ row ∈ s.table.rows, key.matches row = true → row.settleId ∈ s.returnedIds key ∨
    ∃ limit, row ∈ selectSettles P key (s.cursors.get? key) limit s.table
  once : (s.returnedIds key).Nodup

/-- A record is committed after every cursor that selects by it, the stored ones and those about
to be stored, and a cursor is stored over the one that its call has read. An identifier that is
falsy is not stored. -/
def InOrder (s : SettleSystem) : SettleEvent → Prop
  | .insert row => row.settleId ∉ s.table.rows.map SettleRow.settleId →
      (∀ entry ∈ s.cursors.entries, entry.1.matches row = true →
        After (cursorClause P (some entry.2)) (row.position P)) ∧
      ∀ j < s.callCount, ∀ call ∈ s.calls j, ∀ lastRecord ∈ call.lastRecord,
        call.key.matches row = true → lastRecord.position P < row.position P
  | .updateCursor j => ∀ call ∈ s.calls j, s.cursors.get? call.key = call.cursor ∧
      ∀ lastRecord ∈ call.lastRecord, lastRecord.settleId ≠ ""
  | _ => True

instance (s : SettleSystem) : DecidablePred (InOrder P s)
  | .insert row => inferInstanceAs (Decidable (row.settleId ∉ _ → _))
  | .updateCursor j => inferInstanceAs (Decidable (∀ call ∈ s.calls j, _))
  | .appendSettle _ _ _ | .failInsert _ | .getCursor _ _ _ | .pull _ | .confirm _ _ | .fail _
  | .reap _ => instDecidableTrue

variable {P H}

/-! ## Cursors -/

def recordIds (records : List SettleRecord) : List String :=
  records.map fun record => record.settleId

/-- What a stored cursor has passed is what has been returned. -/
structure CursorInv (P : SettlePorts) (rows : List SettleRow) (key : CursorKey)
    (cursor : Option ReconciliationCursor) (ids : List String) : Prop where
  covered : ∀ row ∈ rows, key.matches row = true → row.settleId ∈ ids ∨
    After (cursorClause P cursor) (row.position P)
  behind : ∀ row ∈ rows, key.matches row = true → row.settleId ∈ ids →
    ¬ After (cursorClause P cursor) (row.position P)
  known : ∀ id ∈ ids, id ∈ rows.map SettleRow.settleId
  once : ids.Nodup

/-- A batch holds everything from its cursor up to its last record. -/
structure BatchInv (P : SettlePorts) (rows : List SettleRow) (key : CursorKey)
    (cursor : Option ReconciliationCursor) (records : List SettleRecord) : Prop where
  nodup : (recordIds records).Nodup
  source : ∀ record ∈ records, ∃ row ∈ rows, row.settleId = record.settleId ∧
    row.position P = record.position P ∧ key.matches row = true ∧
    After (cursorClause P cursor) (row.position P)
  le_last : ∀ lastRecord ∈ records.getLast?, ∀ record ∈ records,
    record.position P ≤ lastRecord.position P
  complete : ∀ lastRecord ∈ records.getLast?, ∀ row ∈ rows, key.matches row = true →
    After (cursorClause P cursor) (row.position P) →
    row.settleId ∈ recordIds records ∨ lastRecord.position P < row.position P

variable {rows : List SettleRow} {key : CursorKey} {cursor : Option ReconciliationCursor}
  {ids : List String} {records : List SettleRecord} {results : List ReconciliationResult}
  {row : SettleRow}

theorem CursorInv.insert (hinv : CursorInv P rows key cursor ids)
    (hfresh : row.settleId ∉ rows.map SettleRow.settleId)
    (hafter : key.matches row = true → After (cursorClause P cursor) (row.position P)) :
    CursorInv P (rows ++ [row]) key cursor ids where
  covered other hother hmatches := by
    obtain hother | hother := List.mem_append.mp hother
    · exact hinv.covered other hother hmatches
    · rw [List.mem_singleton.mp hother] at hmatches ⊢
      exact .inr (hafter hmatches)
  behind other hother hmatches hid := by
    obtain hother | hother := List.mem_append.mp hother
    · exact hinv.behind other hother hmatches hid
    · rw [List.mem_singleton.mp hother] at hid
      exact absurd (hinv.known _ hid) hfresh
  known id hid := by
    rw [List.map_append]
    exact List.mem_append_left _ (hinv.known id hid)
  once := hinv.once

theorem BatchInv.insert (hinv : BatchInv P rows key cursor records)
    (hafter : ∀ lastRecord ∈ records.getLast?, key.matches row = true →
      lastRecord.position P < row.position P) : BatchInv P (rows ++ [row]) key cursor records where
  nodup := hinv.nodup
  source record hrecord := by
    obtain ⟨source, hsource, hrest⟩ := hinv.source record hrecord
    exact ⟨source, List.mem_append_left _ hsource, hrest⟩
  le_last := hinv.le_last
  complete lastRecord hlast other hother hmatches hother' := by
    obtain hother | hother := List.mem_append.mp hother
    · exact hinv.complete lastRecord hlast other hother hmatches hother'
    · rw [List.mem_singleton.mp hother] at hmatches ⊢
      exact .inr (hafter lastRecord hlast hmatches)

/-- A batch that is returned moves the cursor behind its last record. -/
theorem CursorInv.advance (hinv : CursorInv P rows key cursor ids)
    (hbatch : BatchInv P rows key cursor records)
    (hrows : (rows.map SettleRow.settleId).Nodup) {lastRecord : SettleRecord}
    (hlast : records.getLast? = some lastRecord) (hid : lastRecord.settleId ≠ "") :
    CursorInv P rows key (some ⟨lastRecord.createdAt, lastRecord.settleId⟩)
      (ids ++ recordIds records) := by
  have hclause : cursorClause P (some ⟨lastRecord.createdAt, lastRecord.settleId⟩) =
      some (lastRecord.position P) := by
    simp only [cursorClause, if_neg hid]
    rfl
  -- Every row of the batch was after the old cursor and is not after the new one.
  have hbatched : ∀ row ∈ rows, row.settleId ∈ recordIds records →
      After (cursorClause P cursor) (row.position P) ∧
        row.position P ≤ lastRecord.position P := by
    intro row hrow hmem
    obtain ⟨record, hrecord, hrecordId⟩ := List.mem_map.mp hmem
    obtain ⟨source, hsource, hsourceId, hposition, -, hafter⟩ := hbatch.source record hrecord
    have hsame : source = row :=
      List.inj_on_of_nodup_map hrows hsource hrow (hsourceId.trans hrecordId)
    rw [hsame] at hposition hafter
    rw [hposition]
    exact ⟨hposition ▸ hafter, hbatch.le_last lastRecord hlast record hrecord⟩
  have hlastmem := List.mem_of_getLast? hlast
  constructor
  case covered =>
    intro row hrow hmatches
    rw [hclause, after_some, List.mem_append]
    obtain hreturned | hafter := hinv.covered row hrow hmatches
    · exact .inl (.inl hreturned)
    · obtain hmem | hlt := hbatch.complete lastRecord hlast row hrow hmatches hafter
      · exact .inl (.inr hmem)
      · exact .inr hlt
  case behind =>
    intro row hrow hmatches hreturned
    rw [hclause, after_some, not_lt]
    obtain hreturned | hmem := List.mem_append.mp hreturned
    · obtain ⟨source, -, -, hposition, -, hafter⟩ := hbatch.source lastRecord hlastmem
      rw [← hposition]
      exact (lt_of_after (hinv.behind row hrow hmatches hreturned) hafter).le
    · exact (hbatched row hrow hmem).2
  case known =>
    intro id hmem
    obtain hreturned | hmem := List.mem_append.mp hmem
    · exact hinv.known id hreturned
    · obtain ⟨record, hrecord, rfl⟩ := List.mem_map.mp hmem
      obtain ⟨source, hsource, hsourceId, -⟩ := hbatch.source record hrecord
      exact List.mem_map.mpr ⟨source, hsource, hsourceId⟩
  case once =>
    refine List.nodup_append.mpr ⟨hinv.once, hbatch.nodup, ?_⟩
    rintro id hreturned id' hmem rfl
    obtain ⟨record, hrecord, rfl⟩ := List.mem_map.mp hmem
    obtain ⟨source, hsource, hsourceId, -, hmatches, hafter⟩ := hbatch.source record hrecord
    rw [← hsourceId] at hreturned
    exact hinv.behind source hsource hmatches hreturned hafter

/-! ## Pulls -/

/-- What a query compares of a record is what it compares of its row. -/
theorem tags_eq_of_querySettles {limit : Nat} {table : SettleTable}
    (hquery : querySettles P key cursor limit table = .ok records) :
    records.map (fun record => (record.settleId, record.position P)) =
      (selectSettles P key cursor limit table).map fun row =>
        (row.settleId, row.position P) := by
  refine map_eq_of_collect hquery ?_
  intro row record hrow
  obtain ⟨text, -, rfl⟩ := mapRow_eq_ok.mp hrow
  rfl

theorem position_inj {table : SettleTable} : ∀ a ∈ table.rows.filter key.matches,
    ∀ b ∈ table.rows.filter key.matches, a.position P = b.position P → a = b := by
  intro a ha b hb hposition
  have hid : a.settleId = b.settleId := congrArg (fun p => (ofLex p).2) hposition
  exact List.inj_on_of_nodup_map table.nodup (List.mem_of_mem_filter ha)
    (List.mem_of_mem_filter hb) hid

/-- A pull leaves out no committed record up to its last one. -/
theorem BatchInv.of_query {limit : Nat} {table : SettleTable}
    (hquery : querySettles P key cursor limit table = .ok records) :
    BatchInv P (written table) key cursor records := by
  have htags := tags_eq_of_querySettles hquery
  have hids : recordIds records =
      (selectSettles P key cursor limit table).map SettleRow.settleId := by
    have hfst := congrArg (List.map Prod.fst) htags
    rw [List.map_map, List.map_map] at hfst
    exact hfst
  have hsource : ∀ record ∈ records, ∃ row ∈ selectSettles P key cursor limit table,
      row.settleId = record.settleId ∧ row.position P = record.position P := by
    intro record hrecord
    have htag := List.mem_map_of_mem (f := fun record : SettleRecord =>
      (record.settleId, record.position P)) hrecord
    rw [htags] at htag
    obtain ⟨row, hrow, heq⟩ := List.mem_map.mp htag
    exact ⟨row, hrow, congrArg Prod.fst heq, congrArg Prod.snd heq⟩
  have hlast : ∀ lastRecord ∈ records.getLast?, ∃ lastRow,
      (selectSettles P key cursor limit table).getLast? = some lastRow ∧
      lastRow.position P = lastRecord.position P := by
    intro lastRecord hlastRecord
    have hmap := congrArg List.getLast? htags
    rw [List.getLast?_map, List.getLast?_map, hlastRecord, Option.map_some] at hmap
    obtain ⟨lastRow, hlastRow, heq⟩ := Option.map_eq_some_iff.mp hmap.symm
    exact ⟨lastRow, hlastRow, congrArg Prod.snd heq⟩
  constructor
  case nodup =>
    rw [hids]
    exact nodup_map_page (table.nodup.sublist (List.filter_sublist.map _))
  case source =>
    intro record hrecord
    obtain ⟨row, hrow, hid, hposition⟩ := hsource record hrecord
    obtain ⟨hmem, hafter⟩ := mem_of_mem_page hrow
    obtain ⟨hmem, hmatches⟩ := List.mem_filter.mp hmem
    exact ⟨row.written, mem_written_of_mem hmem, hid, hposition, hmatches, hafter⟩
  case le_last =>
    intro lastRecord hlastRecord record hrecord
    obtain ⟨lastRow, hlastRow, hlastPosition⟩ := hlast lastRecord hlastRecord
    obtain ⟨row, hrow, -, hposition⟩ := hsource record hrecord
    rw [← hposition, ← hlastPosition]
    exact le_last_of_mem_page hlastRow hrow
  case complete =>
    intro lastRecord hlastRecord row' hrow' hmatches hafter
    obtain ⟨lastRow, hlastRow, hlastPosition⟩ := hlast lastRecord hlastRecord
    obtain ⟨row, hrow, rfl⟩ := List.mem_map.mp hrow'
    rw [hids, ← hlastPosition]
    obtain hmem | hlt := mem_page_or_lt position_inj hlastRow
      (List.mem_filter.mpr ⟨hrow, hmatches⟩) hafter
    · exact .inl (List.mem_map.mpr ⟨row, hmem, rfl⟩)
    · exact .inr hlt

/-- There is a result for each record, in their order. -/
theorem ids_of_checked {recipientPublicKey : String}
    (hresults : collect (checkRecord P recipientPublicKey) records = .ok results) :
    results.map ReconciliationResult.settleId = recordIds records := by
  refine map_eq_of_collect (g := fun record : SettleRecord => record.settleId) hresults ?_
  intro record result hrecord
  obtain ⟨verified, -, rfl⟩ := checkRecord_eq_ok.mp hrecord
  rfl

/-! ## Runs -/

structure ReconcileInv (P : SettlePorts) (s : SettleSystem) : Prop where
  cursors : ∀ key, CursorInv P (written s.table) key (s.cursors.get? key) (s.returnedIds key)
  batches : ∀ {j call records results unconfirmed}, s.calls j = some call →
    call.stage = .pulled records results unconfirmed →
    BatchInv P (written s.table) call.key call.cursor records ∧
      results.map ReconciliationResult.settleId = recordIds records
  bound : ∀ {j call}, s.calls j = some call → j < s.callCount

theorem ReconcileInv.start (P : SettlePorts) : ReconcileInv P SettleSystem.start where
  cursors key := by
    constructor
    case covered =>
      intro row hrow
      cases hrow
    case behind =>
      intro row hrow
      cases hrow
    case known =>
      intro id hid
      cases hid
    case once => exact List.nodup_nil
  batches hcall := by cases hcall
  bound hcall := by cases hcall

section Steps

variable {s : SettleSystem} {j : Nat} {call : ReconcileCall}

/-- A statement on the rows that keeps them as they were inserted. -/
theorem ReconcileInv.setTable (hinv : ReconcileInv P s) {table : SettleTable}
    (hwritten : written table = written s.table) : ReconcileInv P { s with table } where
  cursors key := by
    rw [hwritten]
    exact hinv.cursors key
  batches hcall hstage := by
    rw [hwritten]
    exact hinv.batches hcall hstage
  bound := hinv.bound

theorem ReconcileInv.setStage (hinv : ReconcileInv P s) (hcall : s.calls j = some call)
    (stage : ReconcileStage) (hstage : ∀ {records results unconfirmed}, stage = .pulled records results unconfirmed →
      BatchInv P (written s.table) call.key call.cursor records ∧
        results.map ReconciliationResult.settleId = recordIds records) :
    ReconcileInv P (s.setStage j call stage) where
  cursors := hinv.cursors
  batches hcall' hstage' := by
    obtain ⟨-, rfl⟩ | ⟨-, hkeep⟩ := update_eq_some.mp hcall'
    · exact hstage hstage'
    · exact hinv.batches hkeep hstage'
  bound hcall' := by
    obtain ⟨rfl, -⟩ | ⟨-, hkeep⟩ := update_eq_some.mp hcall'
    · exact hinv.bound hcall
    · exact hinv.bound hkeep

theorem ReconcileInv.insert (hinv : ReconcileInv P s) (hgood : InOrder P s (.insert row)) :
    ReconcileInv P { s with
      table := s.table.insertOrIgnore row
      inserts := s.inserts.erase row } := by
  by_cases hkey : row.settleId ∈ s.table.rows.map SettleRow.settleId
  · rw [Table.insertOrIgnore_of_mem hkey]
    exact ⟨hinv.cursors, hinv.batches, hinv.bound⟩
  · have hwritten : written (s.table.insertOrIgnore row) = written s.table ++ [row.written] := by
      rw [written, Table.rows_insertOrIgnore hkey, List.map_append, List.map_singleton, written]
    have hfresh : row.written.settleId ∉ (written s.table).map SettleRow.settleId := by
      rw [written, List.map_map]
      exact hkey
    obtain ⟨hcursors, hcalls⟩ := hgood hkey
    constructor
    case cursors =>
      intro key
      rw [hwritten]
      refine (hinv.cursors key).insert hfresh fun hmatches => ?_
      cases hcursor : s.cursors.get? key with
      | none => exact after_none _
      | some cursor =>
          exact hcursors (key, cursor) ((s.cursors.mem_entries_iff key cursor).mpr hcursor) hmatches
    case batches =>
      intro j call records results unconfirmed hcall hstage
      obtain ⟨hbatch, hids⟩ := hinv.batches hcall hstage
      rw [hwritten]
      refine ⟨hbatch.insert fun lastRecord hlast hmatches => ?_, hids⟩
      refine hcalls j (hinv.bound hcall) call hcall lastRecord ?_ hmatches
      rw [ReconcileCall.lastRecord, hstage]
      exact hlast
    case bound => exact hinv.bound

theorem ReconcileInv.getCursor (hinv : ReconcileInv P s) (key : CursorKey)
    (recipientPublicKey : String) (reconcileBatchSize : Nat) :
    ReconcileInv P { s with
      calls := Function.update s.calls s.callCount (some ⟨key, recipientPublicKey,
        reconcileBatchSize, s.cursors.get? key, .opened⟩)
      callCount := s.callCount + 1 } where
  cursors := hinv.cursors
  batches hcall hstage := by
    obtain ⟨-, rfl⟩ | ⟨-, hkeep⟩ := update_eq_some.mp hcall
    · cases hstage
    · exact hinv.batches hkeep hstage
  bound hcall := by
    obtain ⟨rfl, -⟩ | ⟨-, hkeep⟩ := update_eq_some.mp hcall
    · exact Nat.lt_succ_self _
    · exact Nat.lt_succ_of_lt (hinv.bound hkeep)

theorem returnedIds_append (s : SettleSystem) (key key' : CursorKey)
    (results : List ReconciliationResult) :
    { s with returned := s.returned ++ results.map fun result => (key, result) }.returnedIds key' =
      s.returnedIds key' ++
        if key = key' then results.map ReconciliationResult.settleId else [] := by
  simp only [SettleSystem.returnedIds, List.filter_append, List.map_append, List.filter_map,
    List.map_map]
  congr 1
  by_cases hkey : key = key'
  · rw [if_pos hkey, List.filter_eq_self.mpr]
    · rfl
    · intro result _
      exact decide_eq_true hkey
  · rw [if_neg hkey, List.filter_eq_nil_iff.mpr]
    · rfl
    · intro result _
      simpa using hkey

theorem ReconcileInv.updateCursor (hinv : ReconcileInv P s) (hcall : s.calls j = some call)
    {lastRecord : SettleRecord} (hstage : call.stage = .pulled records results [])
    (hlast : records.getLast? = some lastRecord) (hgood : InOrder P s (.updateCursor j)) :
    ReconcileInv P { s.setStage j call .over with
      cursors := s.cursors.set call.key ⟨lastRecord.createdAt, lastRecord.settleId⟩
      returned := s.returned ++ results.map fun result => (call.key, result) } := by
  obtain ⟨hbatch, hids⟩ := hinv.batches hcall hstage
  obtain ⟨hcursor, hnamed⟩ := hgood call hcall
  have hid : lastRecord.settleId ≠ "" := by
    refine hnamed lastRecord ?_
    rw [ReconcileCall.lastRecord, hstage]
    exact hlast
  have hover := hinv.setStage hcall .over fun hstage => by cases hstage
  constructor
  case cursors =>
    intro key
    have hreturned := returnedIds_append s call.key key results
    simp only [SettleSystem.returnedIds] at hreturned ⊢
    rw [hreturned, OrderedMap.get?_set]
    by_cases hkey : call.key = key
    · subst hkey
      rw [if_pos rfl, if_pos rfl, hids]
      have hstored := hinv.cursors call.key
      rw [hcursor] at hstored
      exact hstored.advance hbatch (written_nodup s.table) hlast hid
    · rw [if_neg hkey, if_neg hkey, List.append_nil]
      exact hinv.cursors key
  case batches => exact hover.batches
  case bound => exact hover.bound

theorem ReconcileInv.step {event : SettleEvent} {s' : SettleSystem} (hinv : ReconcileInv P s)
    (hgood : InOrder P s event) (hstep : s.step P H event = some s') : ReconcileInv P s' := by
  cases event with
  | appendSettle req senderPublicKey now =>
      simp only [SettleSystem.step] at hstep
      split at hstep
      next =>
        cases hstep
        exact ⟨hinv.cursors, hinv.batches, hinv.bound⟩
      next =>
        cases hstep
        exact hinv
  | insert row =>
      simp only [SettleSystem.step, Option.ite_none_right_eq_some, Option.some.injEq] at hstep
      obtain ⟨-, rfl⟩ := hstep
      exact hinv.insert hgood
  | failInsert row =>
      simp only [SettleSystem.step, Option.ite_none_right_eq_some, Option.some.injEq] at hstep
      obtain ⟨-, rfl⟩ := hstep
      exact ⟨hinv.cursors, hinv.batches, hinv.bound⟩
  | getCursor key recipientPublicKey reconcileBatchSize =>
      cases hstep
      exact hinv.getCursor key recipientPublicKey reconcileBatchSize
  | pull j =>
      simp only [SettleSystem.step] at hstep
      split at hstep
      next call hcall =>
        rw [Option.ite_none_right_eq_some] at hstep
        obtain ⟨-, hstep⟩ := hstep
        have hover := hinv.setStage hcall .over fun hstage => by cases hstage
        split at hstep
        next =>
          cases hstep
          exact hover
        next records results hpull =>
          obtain ⟨hquery, hresults⟩ := pullSettles_eq_ok.mp hpull
          split at hstep
          next =>
            cases hstep
            exact hover
          next =>
            cases hstep
            refine hinv.setStage hcall _ fun hstage => ?_
            cases hstage
            exact ⟨.of_query hquery, ids_of_checked hresults⟩
      next => cases hstep
  | confirm j now =>
      simp only [SettleSystem.step] at hstep
      split at hstep
      next call hcall =>
        split at hstep
        next records results unconfirmed hstage =>
          cases hstep
          have hset := hinv.setStage hcall (.pulled records results []) fun hstage' => by
            cases hstage'
            exact hinv.batches hcall hstage
          exact hset.setTable (written_confirmSettle unconfirmed now s.table)
        next => cases hstep
      next => cases hstep
  | updateCursor j =>
      simp only [SettleSystem.step] at hstep
      split at hstep
      next call hcall =>
        split at hstep
        next records results hstage =>
          split at hstep
          next lastRecord hlast =>
            cases hstep
            exact hinv.updateCursor hcall hstage hlast hgood
          next => cases hstep
        next => cases hstep
      next => cases hstep
  | fail j =>
      simp only [SettleSystem.step] at hstep
      split at hstep
      next call hcall =>
        rw [Option.ite_none_right_eq_some] at hstep
        obtain ⟨-, hstep⟩ := hstep
        cases hstep
        exact hinv.setStage hcall _ fun hstage => by cases hstage
      next => cases hstep
  | reap now =>
      cases hstep
      exact hinv.setTable (written_reapExpiredPending now s.table)

theorem ReconcileInv.skipsNothing (hinv : ReconcileInv P s) (key : CursorKey) :
    SkipsNothing P s key where
  covered row hrow hmatches := by
    obtain hreturned | hafter :=
      (hinv.cursors key).covered row.written (mem_written_of_mem hrow) hmatches
    · exact .inl hreturned
    · exact .inr (exists_mem_page_iff.mpr ⟨List.mem_filter.mpr ⟨hrow, hmatches⟩, hafter⟩)
  once := (hinv.cursors key).once

end Steps

/-- In every run whose inserts and cursors come in order, a reconciliation skips nothing. -/
theorem skipsNothing_of_inOrder {events : List SettleEvent} {s : SettleSystem}
    (horder : Along (SettleSystem.step P H) (InOrder P) SettleSystem.start events)
    (hrun : run (SettleSystem.step P H) SettleSystem.start events = some s) (key : CursorKey) :
    SkipsNothing P s key :=
  (run_invariant (ReconcileInv P) (fun _ _ _ hinv hgood hstep => hinv.step hgood hstep)
    (.start P) horder hrun).skipsNothing key

/-! ## A slow insert -/

namespace SlowInsert

open Sample

/-- All signatures are genuine: one is the text of the key pair that made it. -/
def ports : SettlePorts where
  numberFormat := NumberFormat.decimal
  sign _ privateKey := .ok privateKey
  verify _ signature publicKey := .ok (signature = publicKey)
  timestamptz := timestamptz
  collation := inferInstance

def payments : CursorKey := ⟨"alpha", "beta", "did:agent:payer", "transaction_amount"⟩

def slow : SettleRequest :=
  ⟨fields "4fa85f64-5717-4562-b3fc-2c963f66afa6" "2026-06-01T00:00:00.000Z" 60,
    tracker.senderPrivateKey, "2026-06-01T09:00:00.000Z"⟩

def quick : SettleRequest :=
  ⟨fields "936da01f-9abd-4d9d-80c7-02af85c822a8" "2026-06-01T00:00:00.000Z" 25,
    tracker.senderPrivateKey, "2026-06-01T09:00:00.000Z"⟩

def rowOf (req : SettleRequest) (now : Int) : SettleRow where
  settleId := req.settleId
  senderDomain := req.senderDomain
  recipientDomain := req.recipientDomain
  agentDid := req.agentDid
  metric := req.metric
  amount := req.amount
  window := req.window
  windowStart := 1780272000000
  senderLedgerSignature := req.senderLedgerSignature
  recipientLedgerSignature := handler.recipientPrivateKey
  state := .pending
  createdAt := now
  settledAt := none
  expiresAt := now + 300000

def reconcile (j : Nat) (now : Int) : List SettleEvent :=
  [.getCursor payments "4d1a" 100, .pull j, .confirm j now, .updateCursor j]

/-- The first request reads the clock first and is committed last. -/
def events : List SettleEvent :=
  ([.appendSettle slow "9c5e" 1780304400000, .appendSettle quick "9c5e" 1780304400001,
    .insert (rowOf quick 1780304400001)] : List SettleEvent) ++ reconcile 0 1780304401000 ++
    ([.insert (rowOf slow 1780304400000)] : List SettleEvent)

/-- The record of the slow insert is behind the cursor and was never returned. -/
theorem slow_skipped :
    ¬ ∀ events s, run (SettleSystem.step ports handler) SettleSystem.start events = some s →
      ∀ key, SkipsNothing ports s key := by
  intro hsafe
  have hrun : (run (SettleSystem.step ports handler) SettleSystem.start events).any (fun s =>
      rowOf slow 1780304400000 ∈ s.table.rows ∧ slow.settleId ∉ s.returnedIds payments ∧
      ¬ After (cursorClause ports (s.cursors.get? payments))
        ((rowOf slow 1780304400000).position ports)) = true := by
    decide +kernel
  obtain ⟨s, hs, hskipped⟩ := (Option.any_eq_true _ _).mp hrun
  obtain ⟨hrow, hreturned, hbehind⟩ := of_decide_eq_true hskipped
  obtain hin | hselected := (hsafe events s hs payments).covered _ hrow rfl
  · exact hreturned hin
  · exact hbehind (exists_mem_page_iff.mp hselected).2

/-- The inserts are committed in the order of the clock, with a reconciliation behind each. -/
def inOrder : List SettleEvent :=
  ([.appendSettle slow "9c5e" 1780304400000, .appendSettle quick "9c5e" 1780304400001,
    .insert (rowOf slow 1780304400000)] : List SettleEvent) ++ reconcile 0 1780304401000 ++
    ([.insert (rowOf quick 1780304400001)] : List SettleEvent) ++ reconcile 1 1780304402000

theorem inOrder_returned :
    ∃ s, run (SettleSystem.step ports handler) SettleSystem.start inOrder = some s ∧
      s.returnedIds payments = [slow.settleId, quick.settleId] ∧ SkipsNothing ports s payments := by
  have horder : Along (SettleSystem.step ports handler) (InOrder ports) SettleSystem.start
      inOrder := by
    decide +kernel
  have hrun : (run (SettleSystem.step ports handler) SettleSystem.start inOrder).any (fun s =>
      s.returnedIds payments = [slow.settleId, quick.settleId]) = true := by
    decide +kernel
  obtain ⟨s, hs, hreturned⟩ := (Option.any_eq_true _ _).mp hrun
  exact ⟨s, hs, of_decide_eq_true hreturned, skipsNothing_of_inOrder horder hs payments⟩

end SlowInsert

end Coivitas.Policy.CrossDomain
