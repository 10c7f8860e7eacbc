import Coivitas.Policy.CrossDomainSettle

/-! # Accepted settles and their records

What a request signs is a text, and what a record is checked against is the text
that its columns give back. The two agree where the window's start is written the
way it is read, and where a settle that is already stored is the same settle.
-/

namespace Coivitas.Policy.CrossDomain

open Foundation Coivitas.Types

/-- The table after further statements of the handler's calls. -/
inductive Evolves (table : SettleTable) : SettleTable → Prop where
  | refl : Evolves table table
  | insert {later : SettleTable} (row : SettleRow) (hlater : Evolves table later) :
      Evolves table (later.insertOrIgnore row)
  | confirm {later : SettleTable} (settleIds : List String) (now : Int)
      (hlater : Evolves table later) : Evolves table (confirmSettle settleIds now later)
  | reap {later : SettleTable} (now : Int) (hlater : Evolves table later) :
      Evolves table (reapExpiredPending now later).1

/-- The record carries the fields of the request, and any later reconciliation that comes across
the settle reports it as verified. -/
structure RoundTrips (P : SettlePorts) (recipientPublicKey : String) (req : SettleRequest)
    (record : SettleRecord) (table : SettleTable) : Prop where
  fields : record.toSettleFields = req.toSettleFields
  reported : ∀ later, Evolves table later → ∃ row stored,
    later.find? req.settleId = some row ∧ mapRow row = .ok stored ∧
      checkRecord P recipientPublicKey stored =
        .ok ⟨req.settleId, row.state, row.recipientLedgerSignature, true⟩
  reconciled : ∀ later, Evolves table later → ∀ key cursor limit records results,
    pullSettles P key recipientPublicKey cursor limit later = .ok (records, results) →
      ∀ result ∈ results, result.settleId = req.settleId → result.verified = true

/-- For a new settle, the text of the window's start is the one its instant is read back as. A
stored settle has the fields of the request, with a countersignature for them. -/
def ReadsBack (P : SettlePorts) (recipientPublicKey : String) (req : SettleRequest)
    (table : SettleTable) : Prop :=
  match table.find? req.settleId with
  | none => ∃ ms, P.timestamptz req.windowStart = .ok ms ∧
      Calendar.toISOString ms = some req.windowStart
  | some row => ∃ text, Calendar.toISOString row.windowStart = some text ∧
      (row.record text).toSettleFields = req.toSettleFields ∧
      P.verify (payloadBytes P req.toSettleFields) row.recipientLedgerSignature
        recipientPublicKey = .ok true

variable {P : SettlePorts} {H : RecipientSettleHandler} {recipientPublicKey : String}
  {table later : SettleTable} {row : SettleRow} {req : SettleRequest}

/-! ## Stored rows -/

theorem Evolves.written_subset (hlater : Evolves table later) :
    written table ⊆ written later := by
  induction hlater with
  | refl => exact List.Subset.refl _
  | insert row _ ih =>
      intro kept hkept
      obtain ⟨old, hold, rfl⟩ := List.mem_map.mp (ih hkept)
      exact mem_written_of_mem (Table.mem_insertOrIgnore_of_mem hold)
  | confirm settleIds now _ ih =>
      rw [written_confirmSettle]
      exact ih
  | reap now _ ih =>
      rw [written_reapExpiredPending]
      exact ih

theorem Evolves.find? (hlater : Evolves table later) (hkept : row.written ∈ written table) :
    ∃ row', later.find? row.settleId = some row' ∧ row'.written = row.written :=
  exists_find?_of_written (hlater.written_subset hkept)

/-- Nothing the text of a record is rebuilt from is touched by an update. -/
theorem record_of_written {row' : SettleRow} (hwritten : row'.written = row.written) :
    row'.windowStart = row.windowStart ∧
      row'.recipientLedgerSignature = row.recipientLedgerSignature ∧
      ∀ text, (row'.record text).toSettleFields = (row.record text).toSettleFields := by
  simp only [SettleRow.written, SettleRow.mk.injEq] at hwritten
  obtain ⟨hsettleId, hsender, hrecipient, hagent, hmetric, hamount, hwindow, hstart, -, hsignature,
    -⟩ := hwritten
  refine ⟨hstart, hsignature, fun text => ?_⟩
  simp only [SettleRow.record, SettleFields.mk.injEq, and_true]
  exact ⟨hsettleId, hsender, hrecipient, hagent, hmetric, hamount, hwindow⟩

theorem mem_of_pullSettles {key : CursorKey} {cursor : Option ReconciliationCursor} {limit : Nat}
    {records : List SettleRecord} {results : List ReconciliationResult}
    (hpull : pullSettles P key recipientPublicKey cursor limit table = .ok (records, results))
    {result : ReconciliationResult} (hresult : result ∈ results) :
    ∃ row ∈ table.rows, ∃ stored, mapRow row = .ok stored ∧
      checkRecord P recipientPublicKey stored = .ok result := by
  obtain ⟨hquery, hchecked⟩ := pullSettles_eq_ok.mp hpull
  obtain ⟨stored, hstored, hcheck⟩ := mem_of_collect hchecked hresult
  obtain ⟨row, hrow, hmap⟩ := mem_of_collect hquery hstored
  exact ⟨row, List.mem_of_mem_filter (mem_of_mem_page hrow).1, stored, hmap, hcheck⟩

/-- What a later reconciliation makes of a row that is kept. -/
theorem checkRecord_of_kept {text : String} {row' : SettleRow}
    (hwritten : row'.written = row.written)
    (htext : Calendar.toISOString row.windowStart = some text) {stored : SettleRecord}
    (hstored : mapRow row' = .ok stored) :
    checkRecord P recipientPublicKey stored = (do
      let verified ← P.verify (payloadBytes P (row.record text).toSettleFields)
        row.recipientLedgerSignature recipientPublicKey
      return ⟨row.settleId, row'.state, row.recipientLedgerSignature, verified⟩) := by
  obtain ⟨hstart, hsignature, hfields⟩ := record_of_written hwritten
  obtain ⟨text', htext', rfl⟩ := mapRow_eq_ok.mp hstored
  rw [hstart, htext, Option.some.injEq] at htext'
  subst htext'
  simp only [checkRecord, hfields]
  rw [← hsignature]
  rfl

/-- The round trip of a stored row: its text reads back as the request's, and the
countersignature in it is one for that text. -/
theorem roundTrips_iff_of_row {text : String} (hrow : row.written ∈ written table)
    (hid : row.settleId = req.settleId)
    (htext : Calendar.toISOString row.windowStart = some text) :
    RoundTrips P recipientPublicKey req (row.record text) table ↔
      (row.record text).toSettleFields = req.toSettleFields ∧
        P.verify (payloadBytes P req.toSettleFields) row.recipientLedgerSignature
          recipientPublicKey = .ok true := by
  constructor
  · intro htrip
    refine ⟨htrip.fields, ?_⟩
    obtain ⟨row', stored, hfind, hstored, hcheck⟩ := htrip.reported table .refl
    obtain ⟨row'', hfind', hwritten⟩ := Evolves.refl.find? hrow
    rw [hid, hfind] at hfind'
    cases hfind'
    rw [checkRecord_of_kept hwritten htext hstored, htrip.fields] at hcheck
    simp only [bind_eq_ok, pure_eq_ok, ReconciliationResult.mk.injEq] at hcheck
    obtain ⟨verified, hverified, -, -, -, rfl⟩ := hcheck
    exact hverified
  · rintro ⟨hfields, hverified⟩
    have hcheck : ∀ {row' stored}, row'.written = row.written → mapRow row' = .ok stored →
        checkRecord P recipientPublicKey stored =
          .ok ⟨req.settleId, row'.state, row'.recipientLedgerSignature, true⟩ := by
      intro row' stored hwritten hstored
      rw [checkRecord_of_kept hwritten htext hstored, hfields, hverified,
        (record_of_written hwritten).2.1, hid]
      rfl
    constructor
    case fields => exact hfields
    case reported =>
      intro later hlater
      obtain ⟨row', hfind, hwritten⟩ := hlater.find? hrow
      have hmap : mapRow row' = .ok (row'.record text) := by
        refine mapRow_eq_ok.mpr ⟨text, ?_, rfl⟩
        rw [(record_of_written hwritten).1, htext]
      exact ⟨row', _, hid ▸ hfind, hmap, hcheck hwritten hmap⟩
    case reconciled =>
      intro later hlater key cursor limit records results hpull result hresult hsettle
      obtain ⟨row', hrow', stored, hmap, hresult⟩ := mem_of_pullSettles hpull hresult
      obtain ⟨row'', hfind, hwritten⟩ := hlater.find? hrow
      obtain ⟨text', -, rfl⟩ := mapRow_eq_ok.mp hmap
      obtain ⟨verified, -, hfound⟩ := checkRecord_eq_ok.mp hresult
      -- The result is for the row of the settle, since that is the only one of its identifier.
      have hsame : row' = row'' := by
        refine List.inj_on_of_nodup_map later.nodup hrow' (Table.find?_eq_some.mp hfind).1 ?_
        rw [(Table.find?_eq_some.mp hfind).2, hid, ← hsettle, ← hfound]
        rfl
      rw [hcheck (hsame ▸ hwritten) hmap] at hresult
      cases hresult
      rfl

/-! ## Accepted requests -/

theorem prepareSettle_eq_ok {senderPublicKey : String} {now : Int} {prepared : Prepared}
    (hprepared : prepareSettle P H req senderPublicKey now table = .ok prepared) :
    (∃ row, table.find? req.settleId = some row ∧ prepared = .existing row) ∨
      ∃ row, table.find? req.settleId = none ∧ pendingRow P H req now = .ok row ∧
        prepared = .insert row := by
  simp only [prepareSettle, bind_eq_ok, exists_unit] at hprepared
  obtain ⟨-, hprepared⟩ := hprepared
  split at hprepared
  next row hfind => exact .inl ⟨row, hfind, (pure_eq_ok.mp hprepared).symm⟩
  next hfind =>
    simp only [bind_eq_ok, pure_eq_ok] at hprepared
    obtain ⟨row, hpending, hinsert⟩ := hprepared
    exact .inr ⟨row, hfind, hpending, hinsert.symm⟩

/-- The row that is inserted holds the fields of the request, the window's start as an instant,
under a countersignature for the request's own text. -/
theorem pendingRow_spec {now : Int} (hpending : pendingRow P H req now = .ok row) :
    row.settleId = req.settleId ∧
      (∀ text, (row.record text).toSettleFields = req.toSettleFields ↔ text = req.windowStart) ∧
      P.sign (payloadBytes P req.toSettleFields) H.recipientPrivateKey =
        .ok row.recipientLedgerSignature ∧
      P.timestamptz req.windowStart = .ok row.windowStart := by
  simp only [pendingRow, bind_eq_ok, pure_eq_ok] at hpending
  obtain ⟨recipientSig, hsign, expiresText, -, windowStart, hread, rfl⟩ := hpending
  refine ⟨rfl, fun text => ?_, hsign, hread⟩
  constructor
  · intro hfields
    exact congrArg SettleFields.windowStart hfields
  · rintro rfl
    rfl

/-- What an accepted call has stored or found, and what it makes of it. -/
theorem accepted_cases {senderPublicKey : String} {now : Int}
    {selected inserted retried : SettleTable} {record : SettleRecord}
    (hinserted : Evolves selected inserted) (hretried : Evolves inserted retried)
    (haccepted : appendSettle P H req senderPublicKey now selected inserted retried =
      (.ok record, table)) :
    ∃ row text, row.written ∈ written table ∧ row.settleId = req.settleId ∧
      Calendar.toISOString row.windowStart = some text ∧ row.record text = record ∧
      ((inserted.find? req.settleId = none ∧ pendingRow P H req now = .ok row) ∨
        ∃ found, inserted.find? req.settleId = some found ∧ row.written = found.written) := by
  unfold appendSettle at haccepted
  split at haccepted
  next => cases haccepted
  next row hprepared =>
    -- The first `SELECT` has found the row, which is still there.
    obtain ⟨hmap, rfl⟩ := Prod.mk.injEq .. ▸ haccepted
    obtain ⟨text, htext, hrecord⟩ := mapRow_eq_ok.mp hmap
    obtain ⟨_, hfind, heq⟩ | ⟨_, -, -, heq⟩ := prepareSettle_eq_ok hprepared
    · cases heq
      obtain ⟨hmem, hid⟩ := Table.find?_eq_some.mp hfind
      have hkept := mem_written_of_mem hmem
      obtain ⟨found, hfound, hwritten⟩ := hinserted.find? hkept
      exact ⟨row, text, hinserted.written_subset hkept, hid, htext, hrecord,
        .inr ⟨found, hid ▸ hfound, hwritten.symm⟩⟩
    · cases heq
  next row hprepared =>
    have hpending : pendingRow P H req now = .ok row := by
      obtain ⟨_, -, heq⟩ | ⟨_, -, hpending, heq⟩ := prepareSettle_eq_ok hprepared
      · cases heq
      · cases heq
        exact hpending
    have hid := (pendingRow_spec hpending).1
    split at haccepted
    next table' hinsert =>
      obtain ⟨hmap, rfl⟩ := Prod.mk.injEq .. ▸ haccepted
      obtain ⟨text, htext, hrecord⟩ := mapRow_eq_ok.mp hmap
      refine ⟨row, text, ?_, hid, htext, hrecord, .inl ⟨?_, hpending⟩⟩
      · rw [written_insert? hinsert]
        exact List.mem_append_right _ (List.mem_singleton.mpr rfl)
      · obtain ⟨hnew, -⟩ := Table.insert?_eq_some.mp hinsert
        rw [Table.find?_eq_none]
        intro other hother hsame
        exact hnew (List.mem_map.mpr ⟨other, hother, hsame.trans hid.symm⟩)
    next hconflict =>
      split at haccepted
      next row' hfind =>
        obtain ⟨hmap, rfl⟩ := Prod.mk.injEq .. ▸ haccepted
        obtain ⟨text, htext, hrecord⟩ := mapRow_eq_ok.mp hmap
        -- The row of the other call was there when the insert gave way to it.
        obtain ⟨found, hfound, hkey⟩ := List.mem_map.mp (Table.insert?_eq_none.mp hconflict)
        have hkey' : found.settleId = req.settleId := hkey.trans hid
        obtain ⟨row'', hfind', hwritten⟩ := hretried.find? (mem_written_of_mem hfound)
        rw [hkey', hfind] at hfind'
        cases hfind'
        refine ⟨row', text, ?_, (Table.find?_eq_some.mp hfind).2, htext, hrecord,
          .inr ⟨found, Table.find?_eq_some.mpr ⟨hfound, hkey'⟩, hwritten⟩⟩
        rw [hwritten]
        exact mem_written_of_mem hfound
      next => cases haccepted

/-- An accepted request and its record agree on every signed field, now and in any later
reconciliation, exactly when the window's start reads back as it is written and a settle stored
before is the same settle. -/
theorem roundTrips_iff {senderPublicKey : String} {now : Int}
    {selected inserted retried : SettleTable} {record : SettleRecord}
    (hverify : ∀ payload signature, P.sign payload H.recipientPrivateKey = .ok signature →
      P.verify payload signature recipientPublicKey = .ok true)
    (hinserted : Evolves selected inserted) (hretried : Evolves inserted retried)
    (haccepted : appendSettle P H req senderPublicKey now selected inserted retried =
      (.ok record, table)) :
    RoundTrips P recipientPublicKey req record table ↔
      ReadsBack P recipientPublicKey req inserted := by
  obtain ⟨row, text, hrow, hid, htext, rfl, ⟨hnone, hpending⟩ | ⟨found, hfound, hwritten⟩⟩ :=
    accepted_cases hinserted hretried haccepted
  · obtain ⟨-, hfields, hsign, hread⟩ := pendingRow_spec hpending
    rw [roundTrips_iff_of_row hrow hid htext, ReadsBack, hnone, hfields]
    simp only [hverify _ _ hsign, and_true, hread, Except.ok.injEq, exists_eq_left', htext,
      Option.some.injEq]
  · obtain ⟨hstart, hsignature, hfields⟩ := record_of_written hwritten
    rw [roundTrips_iff_of_row hrow hid htext, ReadsBack, hfound, hsignature, hfields]
    rw [hstart] at htext
    simp only [htext, Option.some.injEq, exists_eq_left']

/-! ## A window's start without milliseconds -/

namespace Respelled

open Sample

/-- A signature spells its key and the signed bytes; a key pair is one text. -/
def signature (payload : List UInt8) (key : String) : String :=
  key ++ ":" ++ String.ofList (payload.map fun byte => Char.ofNat byte.toNat)

def ports : SettlePorts where
  numberFormat := NumberFormat.decimal
  sign payload privateKey := .ok (signature payload privateKey)
  verify payload found publicKey := .ok (found = signature payload publicKey)
  timestamptz := timestamptz
  collation := inferInstance

def request (windowStart : String) : SettleRequest :=
  let fields := fields "4fa85f64-5717-4562-b3fc-2c963f66afa6" windowStart 60
  ⟨fields, signature (payloadBytes ports fields) tracker.senderPrivateKey,
    "2026-06-01T09:00:00.000Z"⟩

/-- A genuine request for a new settle is accepted whatever its window's start looks like. -/
theorem accepted (windowStart text : String) (ms : Int)
    (hread : timestamptz windowStart = .ok ms) (htext : Calendar.toISOString ms = some text) :
    ∃ (row : SettleRow) (table : SettleTable),
      appendSettle ports handler (request windowStart) "9c5e" 1780304400000
        Table.empty Table.empty Table.empty = (.ok (row.record text), table) := by
  have hverified : verifySender ports (request windowStart) "9c5e" = .ok () := by
    rw [verifySender_eq_ok]
    simp [ports, request, tracker]
  have hexpires : toISOString (1780304400000 + handler.pendingTtlMs) =
      .ok "2026-06-01T09:05:00.000Z" := by
    rw [toISOString_eq_ok]
    decide +kernel
  have hread' : ports.timestamptz (request windowStart).windowStart = .ok ms := hread
  obtain ⟨row, hpending⟩ : ∃ row, pendingRow ports handler (request windowStart) 1780304400000 =
      .ok row := by
    simp only [pendingRow, hexpires, hread', bind_eq_ok, pure_eq_ok]
    exact ⟨_, _, rfl, _, rfl, _, rfl, rfl⟩
  have hms := (pendingRow_spec hpending).2.2.2
  rw [hread', Except.ok.injEq] at hms
  have hprepared : prepareSettle ports handler (request windowStart) "9c5e" 1780304400000
      Table.empty = .ok (.insert row) := by
    simp only [prepareSettle, hverified, bind, Except.bind, Table.find?, Table.empty,
      List.find?_nil, hpending]
    rfl
  obtain ⟨table, hinsert⟩ : ∃ table, (Table.empty : SettleTable).insert? row = some table :=
    ⟨_, rfl⟩
  refine ⟨row, table, ?_⟩
  simp only [appendSettle, hprepared, hinsert, mapRow, toISOString, ← hms, htext, bind,
    Except.bind]
  rfl

/-- The record has another text for the window's start than the request it was made from. -/
theorem windowStart_respelled :
    ¬ ∀ (req : SettleRequest) (record : SettleRecord) (table : SettleTable),
      appendSettle ports handler req "9c5e" 1780304400000 Table.empty Table.empty Table.empty =
        (.ok record, table) → RoundTrips ports "4d1a" req record table := by
  intro hall
  obtain ⟨row, table, haccepted⟩ := accepted "2026-06-01T00:00:00Z" "2026-06-01T00:00:00.000Z"
    1780272000000 (by decide +kernel) (by decide +kernel)
  have hstart : "2026-06-01T00:00:00.000Z" = "2026-06-01T00:00:00Z" :=
    congrArg SettleFields.windowStart (hall _ _ _ haccepted).fields
  exact absurd hstart (by decide)

theorem canonical_roundTrips :
    ∃ record table, appendSettle ports handler (request "2026-06-01T00:00:00.000Z") "9c5e"
      1780304400000 Table.empty Table.empty Table.empty = (.ok record, table) ∧
      RoundTrips ports "4d1a" (request "2026-06-01T00:00:00.000Z") record table := by
  obtain ⟨row, table, haccepted⟩ := accepted "2026-06-01T00:00:00.000Z" "2026-06-01T00:00:00.000Z"
    1780272000000 (by decide +kernel) (by decide +kernel)
  refine ⟨_, table, haccepted, (roundTrips_iff ?_ .refl .refl haccepted).mpr ?_⟩
  · intro payload found hsign
    cases hsign
    simp [ports, handler]
  · exact ⟨1780272000000, by decide +kernel, by decide +kernel⟩

end Respelled

end Coivitas.Policy.CrossDomain
