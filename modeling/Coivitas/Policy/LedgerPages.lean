import Coivitas.Foundation.PageRuns
import Coivitas.Policy.IntegrityCheck

/-! # Reading the ledger page by page

A caller follows `nextCursor` from query to query, oldest records first. The cursor keeps the
time of the last record of a page as the text of a JavaScript date, in whole milliseconds, and
the next query compares it with a column of microseconds.
-/

namespace Coivitas.Policy

open Foundation Crypto

/-! ## Following the cursors -/

/-- The pages of the queries from the cursor on, up to the one without a next cursor. -/
inductive QueryPages (P : LedgerPorts) {records : ActionRecords} (ids : RowIds records)
    (filters : ActionRecordQueryFilters) :
    Option String → List (List ActionRecordRow) → Prop
  | last {cursor : Option String} {rows : List ActionRecordRow}
      (hquery : query P ids { filters with cursor } = some (rows, none)) :
      QueryPages P ids filters cursor [rows]
  | more {cursor : Option String} {rows : List ActionRecordRow} {next : String}
      {rest : List (List ActionRecordRow)}
      (hquery : query P ids { filters with cursor } = some (rows, some next))
      (hrest : QueryPages P ids filters (some next) rest) :
      QueryPages P ids filters cursor (rows :: rest)

/-- The cursor behind a record. -/
def cursorText (P : LedgerPorts) {records : ActionRecords} (ids : RowIds records)
    (row : ActionRecordRow) : String :=
  P.toTimestamp row.createdAt ++ "|" ++ toString (ids.id row.recordId)

/-- The records that the conditions on the columns select. -/
def selectedRows (records : ActionRecords) (selection : ActionRecordSelection) :
    List ActionRecordRow :=
  records.rows.filter fun row => selection.Selects row

/-- What the database and the JavaScript date do with the times of the rows: the text of a date
has no bar, and a text that is read is read as the time without its microseconds. The `id`
column is a `BIGINT`. -/
structure MillisecondDates (P : LedgerPorts) {records : ActionRecords} (ids : RowIds records) :
    Prop where
  bar : ∀ row ∈ records.rows, '|' ∉ (P.toTimestamp row.createdAt).toList
  read : ∀ row ∈ records.rows, ∀ createdAt ∈ P.timestamptz (P.toTimestamp row.createdAt),
    createdAt = row.createdAt / 1000 * 1000
  bigint : ∀ row ∈ records.rows, ids.id row.recordId < 2 ^ 63

section

variable {P : LedgerPorts} {records : ActionRecords} {ids : RowIds records}
  {filters : ActionRecordQueryFilters} {selection : ActionRecordSelection}
  {cursor : Option String} {pages : List (List ActionRecordRow)}

theorem parseCursor_append {text : String} (hbar : '|' ∉ text.toList) (id : Nat) :
    parseCursor (text ++ "|" ++ toString id) = some (text, (id : Int)) := by
  have hpos : ∀ c ∈ text.toList, (decide (c ≠ '|')) = true := by
    intro c hc
    rw [decide_eq_true_eq]
    rintro rfl
    exact hbar hc
  have hlist : (text ++ "|" ++ toString id).toList =
      text.toList ++ '|' :: (toString id).toList := by
    simp
  have hstop : ¬ (decide ('|' ≠ '|')) = true := by decide
  rw [parseCursor, hlist, List.dropWhile_append_of_pos hpos, List.takeWhile_append_of_pos hpos,
    List.dropWhile_cons_of_neg (p := fun c => decide (c ≠ '|')) hstop,
    List.takeWhile_cons_of_neg (p := fun c => decide (c ≠ '|')) hstop]
  simp only [String.ofList_toList, List.append_nil, bigInt_toString, Option.map_some]

/-- The cursor behind a record is read as its time in whole milliseconds and its serial number. -/
theorem readCursor_cursorText (hdates : MillisecondDates P ids) {row : ActionRecordRow}
    (hrow : row ∈ records.rows) :
    readCursor P (cursorText P ids row) = (P.timestamptz (P.toTimestamp row.createdAt)).map
      fun createdAt => toLex (createdAt, (ids.id row.recordId : Int)) := by
  have hid : readBigint (ids.id row.recordId) = some (ids.id row.recordId : Int) := by
    have hbigint := hdates.bigint row hrow
    rw [readBigint, if_pos (by omega)]
  rw [readCursor, cursorText, parseCursor_append (hdates.bar row hrow)]
  cases hread : P.timestamptz (P.toTimestamp row.createdAt) with
  | none => simp [hread]
  | some createdAt => simp [hread, hid]

/-- A cursor is not behind its record, and it is at its record exactly when the time of the
record is a whole number of milliseconds that the database reads. -/
theorem readCursor_eq_position_iff (hdates : MillisecondDates P ids) {row : ActionRecordRow}
    (hrow : row ∈ records.rows) :
    readCursor P (cursorText P ids row) = some (ids.position row) ↔
      (P.timestamptz (P.toTimestamp row.createdAt)).isSome ∧ 1000 ∣ row.createdAt := by
  rw [readCursor_cursorText hdates hrow, RowIds.position]
  cases hread : P.timestamptz (P.toTimestamp row.createdAt) with
  | none => simp
  | some createdAt =>
      have htime := hdates.read row hrow createdAt hread
      simp only [Option.map_some, Option.some.injEq, EmbeddingLike.apply_eq_iff_eq, Prod.mk.injEq,
        and_true, Option.isSome_some, true_and]
      omega

theorem readCursor_le (hdates : MillisecondDates P ids) {row : ActionRecordRow}
    (hrow : row ∈ records.rows) :
    ∀ next ∈ readCursor P (cursorText P ids row), next ≤ ids.position row := by
  intro next hnext
  rw [readCursor_cursorText hdates hrow, Option.mem_def, Option.map_eq_some_iff] at hnext
  obtain ⟨createdAt, hread, rfl⟩ := hnext
  have htime := hdates.read row hrow createdAt hread
  rw [RowIds.position, Prod.Lex.toLex_le_toLex]
  have hle : createdAt ≤ row.createdAt := by omega
  obtain hlt | heq := hle.lt_or_eq
  · exact .inl hlt
  · exact .inr ⟨heq, le_rfl⟩

/-! ## The queries as pages -/

theorem read_with_cursor (hread : { filters with cursor := none }.read P = some selection)
    (cursor : Option String) :
    { filters with cursor }.read P =
      (cursor.mapM (readCursor P)).map fun cursor => { selection with cursor } := by
  simp only [ActionRecordQueryFilters.read, Option.bind_eq_bind, Option.pure_def,
    Option.bind_eq_some_iff, Option.some.injEq] at hread
  obtain ⟨createdFrom, hfrom, createdTo, hto, position, hposition, limit, hlimit, rfl⟩ := hread
  simp only [ActionRecordQueryFilters.read, hfrom, hto, hlimit, Option.bind_eq_bind,
    Option.bind_some]
  cases cursor.mapM (readCursor P) <;> rfl

theorem order_of_read (hread : { filters with cursor := none }.read P = some selection) :
    selection.order = filters.order := by
  simp only [ActionRecordQueryFilters.read, Option.bind_eq_bind, Option.pure_def,
    Option.bind_eq_some_iff, Option.some.injEq] at hread
  obtain ⟨createdFrom, hfrom, createdTo, hto, position, hposition, limit, hlimit, rfl⟩ := hread
  rfl

/-- A query returns the page behind its cursor, and a cursor when there are more rows. -/
theorem query_eq_page (hread : { filters with cursor := none }.read P = some selection)
    (horder : filters.order = .asc) (hlimit : 1 ≤ selection.limit) {position : Option (Int ×ₗ Int)}
    (hcursor : cursor.mapM (readCursor P) = some position) :
    query P ids { filters with cursor } =
      if selection.limit.toNat < (page ids.position (selectedRows records selection) position
          (selection.limit.toNat + 1)).length then
        some (page ids.position (selectedRows records selection) position selection.limit.toNat,
          (page ids.position (selectedRows records selection) position
            selection.limit.toNat).getLast?.map (cursorText P ids))
      else some (page ids.position (selectedRows records selection) position
        (selection.limit.toNat + 1), none) := by
  have horder' : selection.order = .asc := (order_of_read hread).trans horder
  have hcount : (selection.limit + 1).toNat = selection.limit.toNat + 1 := by omega
  have hrows : selectRows ids { selection with cursor := position } =
      page ids.position (selectedRows records selection) position (selection.limit.toNat + 1) := by
    simp only [selectRows, horder', hcount]
    rfl
  have hmore : ∀ n : Nat, selection.limit < n ↔ selection.limit.toNat < n := fun n => by omega
  have hslice : ∀ rows : List ActionRecordRow,
      sliceTo selection.limit rows = rows.take selection.limit.toNat := fun rows => by
    rw [sliceTo, if_pos (by omega)]
  rw [query, read_with_cursor hread, hcursor]
  simp only [Option.map_some, Option.bind_eq_bind, Option.bind_some, hrows, hmore, hslice,
    take_page, Option.pure_def]
  split
  · rfl
  · rfl

/-- A query that returns has read its cursor. -/
theorem exists_position {answer : List ActionRecordRow × Option String}
    (hread : { filters with cursor := none }.read P = some selection)
    (hquery : query P ids { filters with cursor } = some answer) :
    ∃ position, cursor.mapM (readCursor P) = some position := by
  rw [query, read_with_cursor hread] at hquery
  cases hposition : cursor.mapM (readCursor P) with
  | none => simp [hposition] at hquery
  | some position => exact ⟨position, rfl⟩

theorem QueryPages.exists_position (hread : { filters with cursor := none }.read P = some selection)
    (hpages : QueryPages P ids filters cursor pages) :
    ∃ position, cursor.mapM (readCursor P) = some position := by
  cases hpages with
  | last hquery => exact Policy.exists_position hread hquery
  | more hquery => exact Policy.exists_position hread hquery

/-- The table that a caller pages through: the selected records at their positions, each resumed
where its cursor is read. -/
abbrev LedgerPages (P : LedgerPorts) {records : ActionRecords} (ids : RowIds records)
    (selection : ActionRecordSelection) :
    Option (Int ×ₗ Int) → List (List ActionRecordRow) → Prop :=
  Pages ids.position (fun row => readCursor P (cursorText P ids row))
    (selectedRows records selection) selection.limit.toNat

theorem QueryPages.toPages (hread : { filters with cursor := none }.read P = some selection)
    (horder : filters.order = .asc) (hlimit : 1 ≤ selection.limit)
    (hpages : QueryPages P ids filters cursor pages) {position : Option (Int ×ₗ Int)}
    (hcursor : cursor.mapM (readCursor P) = some position) :
    LedgerPages P ids selection position pages := by
  induction hpages generalizing position with
  | @last cursor rows hquery =>
      rw [query_eq_page hread horder hlimit hcursor] at hquery
      split at hquery
      next hmore =>
        rw [Option.some.injEq, Prod.mk.injEq, Option.map_eq_none_iff, List.getLast?_eq_none_iff]
          at hquery
        rw [← take_page, List.take_eq_nil_iff] at hquery
        obtain hzero | hempty := hquery.2
        · omega
        · rw [hempty] at hmore
          exact absurd hmore (Nat.not_lt_zero _)
      next hmore =>
        cases hquery
        exact .last (not_lt.mp hmore)
  | @more cursor rows next rest hquery hrest ih =>
      rw [query_eq_page hread horder hlimit hcursor] at hquery
      split at hquery
      next hmore =>
        rw [Option.some.injEq, Prod.mk.injEq, Option.map_eq_some_iff] at hquery
        obtain ⟨rfl, row, hlast, rfl⟩ := hquery
        obtain ⟨position, hposition⟩ := hrest.exists_position hread
        obtain ⟨next, hnext, rfl⟩ : ∃ next, readCursor P (cursorText P ids row) = some next ∧
            some next = position := by
          simpa using hposition
        exact .more hmore hlast hnext (ih hposition)
      next hmore => cases hquery

theorem queryPages_of_pages (hread : { filters with cursor := none }.read P = some selection)
    (horder : filters.order = .asc) (hlimit : 1 ≤ selection.limit)
    {position : Option (Int ×ₗ Int)} (hpages : LedgerPages P ids selection position pages)
    (hcursor : cursor.mapM (readCursor P) = some position) :
    QueryPages P ids filters cursor pages := by
  induction hpages generalizing cursor with
  | @last position hlength =>
      refine .last ?_
      rw [query_eq_page hread horder hlimit hcursor, if_neg (not_lt.mpr hlength)]
  | @more position row next rest hlength hlast hnext hrest ih =>
      refine @QueryPages.more _ _ _ _ _ _ (cursorText P ids row) _ ?_ (ih (by simp [hnext]))
      rw [query_eq_page hread horder hlimit hcursor, if_pos hlength, hlast, Option.map_some]

/-! ## Exactness -/

theorem nodup_selectedRows (ids : RowIds records) (selection : ActionRecordSelection) :
    (selectedRows records selection).Nodup := by
  have hnodup : records.rows.Nodup := ids.increasing.imp fun hid heq => by
    rw [heq] at hid
    exact lt_irrefl _ hid
  exact hnodup.sublist List.filter_sublist

/-- The records that end a page with more records behind it have times of whole milliseconds,
in years that the database reads in the spelling of a JavaScript date. -/
def WholeMillisecondPages (P : LedgerPorts) (limit : Nat) (rows : List ActionRecordRow) : Prop :=
  ∀ k row, (k + 1) * limit < rows.length → rows[(k + 1) * limit - 1]? = some row →
    (P.timestamptz (P.toTimestamp row.createdAt)).isSome ∧ 1000 ∣ row.createdAt

theorem resumesExactly_iff (hdates : MillisecondDates P ids) (selection : ActionRecordSelection)
    (limit : Nat) :
    ResumesExactly ids.position (fun row => readCursor P (cursorText P ids row))
        (sorted ids.position (selectedRows records selection)) limit ↔
      WholeMillisecondPages P limit (sorted ids.position (selectedRows records selection)) := by
  refine forall_congr' fun k => forall_congr' fun row => forall_congr' fun _ =>
    forall_congr' fun hrow => ?_
  have hmem := (List.mem_insertionSort _).mp (List.mem_of_getElem? hrow)
  exact readCursor_eq_position_iff hdates (List.mem_of_mem_filter hmem)

theorem exists_queryPages_iff (hdates : MillisecondDates P ids)
    (hread : { filters with cursor := none }.read P = some selection)
    (horder : filters.order = .asc) (hlimit : 1 ≤ selection.limit) :
    (∃ pages, QueryPages P ids filters none pages ∧
        pages.flatten = sorted ids.position (selectedRows records selection)) ↔
      ResumesExactly ids.position (fun row => readCursor P (cursorText P ids row))
        (sorted ids.position (selectedRows records selection)) selection.limit.toNat := by
  have hsame : ∀ pages, QueryPages P ids filters none pages ↔
      LedgerPages P ids selection none pages := fun pages =>
    ⟨fun hpages => hpages.toPages hread horder hlimit rfl,
      fun hpages => queryPages_of_pages hread horder hlimit hpages rfl⟩
  have hinj : ∀ a ∈ selectedRows records selection, ∀ b ∈ selectedRows records selection,
      ids.position a = ids.position b → a = b := fun a ha b hb =>
    ids.position_inj a (List.mem_of_mem_filter ha) b (List.mem_of_mem_filter hb)
  simp only [hsame]
  exact pages_exact_iff hinj (nodup_selectedRows ids selection) (by omega)
    fun row hrow => readCursor_le hdates (List.mem_of_mem_filter hrow)

/-- Following the cursors from the first query on ends, and returns every selected record
exactly once and in the order of time and serial number, exactly when the records that end the
pages have times of whole milliseconds. -/
theorem queryPages_exact_iff (hdates : MillisecondDates P ids)
    (hread : { filters with cursor := none }.read P = some selection)
    (horder : filters.order = .asc) (hlimit : 1 ≤ selection.limit) :
    (∃ pages, QueryPages P ids filters none pages ∧
        pages.flatten = sorted ids.position (selectedRows records selection)) ↔
      WholeMillisecondPages P selection.limit.toNat
        (sorted ids.position (selectedRows records selection)) := by
  rw [exists_queryPages_iff hdates hread horder hlimit]
  exact resumesExactly_iff hdates selection _

end

/-! ## Two records of one second -/

namespace Audit

open Identity Identity.Relay

/-- A database that keeps microseconds, and dates that drop them. -/
def microsecondPorts : LedgerPorts :=
  { ports with
    timestamptz := fun text => (Calendar.getTime text).map (· * 1000)
    toTimestamp := fun createdAt => toTimestamp (createdAt / 1000) }

def stored (recordId previousRecordHash : String) (createdAt : Int) : ActionRecordRow where
  recordId := recordId
  agentDid := editor
  principalDid := owner
  actionType := "PUBLISH"
  parametersSummary := .obj [("channel", .str "blog")]
  authorizationRef := .null
  resultSummary := none
  recordHash := hashOf recordId noonText previousRecordHash
  previousRecordHash := previousRecordHash
  actorSignature := ""
  ledgerSignature := ""
  delegationDepth := none
  sessionId := none
  createdAt := createdAt

/-- Two records from noon on, the given numbers of microseconds after it. -/
def noonRows (first second : Int) : List ActionRecordRow :=
  [stored firstId "" (1781956800000000 + first),
    stored secondId (hashOf firstId noonText "") (1781956800000000 + second)]

def noonRecords (first second : Int) : ActionRecords :=
  ⟨noonRows first second, by simp [noonRows, stored, ids_ne]⟩

def noonIds (first second : Int) : RowIds (noonRecords first second) :=
  ⟨serial, by simp [noonRecords, noonRows, stored, serial, ids_ne.symm]⟩

/-- One record a page. -/
def oneByOne : ActionRecordQueryFilters :=
  ⟨none, none, none, none, none, some (.finite 1), none, .asc⟩

theorem read_oneByOne : { oneByOne with cursor := none }.read microsecondPorts =
    some ⟨none, none, none, none, none, none, 1, .asc⟩ := by
  have hlimit : readLimit (.finite 1) = some 1 := by decide
  simp [ActionRecordQueryFilters.read, oneByOne, hlimit]

variable {first second : Int}

/-- All times of the noon rows are written as noon. -/
theorem noon_row (hfirst : 0 ≤ first ∧ first < 1000) (hsecond : 0 ≤ second ∧ second < 1000)
    {row : ActionRecordRow} (hrow : row ∈ noonRows first second) :
    microsecondPorts.toTimestamp row.createdAt = noonText ∧
      row.createdAt / 1000 * 1000 = 1781956800000000 := by
  have hnoon : row.createdAt / 1000 = 1781956800000 := by
    obtain rfl | rfl : row = stored firstId "" (1781956800000000 + first) ∨
        row = stored secondId (hashOf firstId noonText "") (1781956800000000 + second) := by
      simpa [noonRows] using hrow
    · show (1781956800000000 + first) / 1000 = _
      omega
    · show (1781956800000000 + second) / 1000 = _
      omega
  constructor
  · show toTimestamp (row.createdAt / 1000) = noonText
    rw [hnoon, toTimestamp, if_pos rfl]
  · rw [hnoon]
    norm_num

theorem noon_dates (hfirst : 0 ≤ first ∧ first < 1000) (hsecond : 0 ≤ second ∧ second < 1000) :
    MillisecondDates microsecondPorts (noonIds first second) := by
  have hserial : ∀ recordId, serial recordId < 2 ^ 63 := fun recordId => by
    rw [serial]
    split <;> norm_num
  refine ⟨fun row hrow => ?_, fun row hrow createdAt hread => ?_, fun row _ => hserial _⟩
  · rw [(noon_row hfirst hsecond hrow).1]
    decide
  · rw [(noon_row hfirst hsecond hrow).1] at hread
    have hnoon : microsecondPorts.timestamptz noonText = some 1781956800000000 := by
      simp [microsecondPorts, noon_time]
    rw [(noon_row hfirst hsecond hrow).2]
    exact (Option.some.inj (hnoon.symm.trans hread)).symm

/-- The first of two noon rows comes first. -/
theorem sorted_noonRows (hle : first ≤ second) :
    sorted (noonIds first second).position (selectedRows (noonRecords first second)
      ⟨none, none, none, none, none, none, 1, .asc⟩) = noonRows first second := by
  have hselected : selectedRows (noonRecords first second)
      ⟨none, none, none, none, none, none, 1, .asc⟩ = noonRows first second := by
    simp [selectedRows, ActionRecordSelection.Selects, noonRecords]
  rw [hselected]
  have hfirst : (noonIds first second).position (stored firstId "" (1781956800000000 + first)) ≤
      (noonIds first second).position
        (stored secondId (hashOf firstId noonText "") (1781956800000000 + second)) := by
    rw [RowIds.position, RowIds.position, Prod.Lex.toLex_le_toLex]
    obtain hlt | heq := hle.lt_or_eq
    · exact .inl (by simpa [stored] using hlt)
    · exact .inr ⟨by simp [stored, heq], by simp [noonIds, stored, serial, ids_ne.symm]⟩
  rw [noonRows, sorted, List.insertionSort_cons, List.insertionSort_cons, List.insertionSort_nil,
    List.orderedInsert_nil, List.orderedInsert_cons, if_pos hfirst]

/-- The exactness fails: with one record a page, the record at half a millisecond past noon is
behind its own cursor. -/
theorem microseconds_read_again : ¬ ∃ pages,
    QueryPages microsecondPorts (noonIds 500 700) oneByOne none pages ∧
      pages.flatten = sorted (noonIds 500 700).position (selectedRows (noonRecords 500 700)
        ⟨none, none, none, none, none, none, 1, .asc⟩) := by
  have hdates : MillisecondDates microsecondPorts (noonIds 500 700) :=
    noon_dates (by decide) (by decide)
  rw [exists_queryPages_iff hdates read_oneByOne rfl (by decide), resumesExactly_iff hdates,
    sorted_noonRows (by decide)]
  intro hwhole
  have hboundary := (hwhole 0 (stored firstId "" 1781956800000500) Nat.one_lt_two rfl).2
  exact absurd hboundary (by decide)

/-- From noon on the pages are exact. -/
theorem noon_exact : ∃ pages,
    QueryPages microsecondPorts (noonIds 0 0) oneByOne none pages ∧
      pages.flatten = sorted (noonIds 0 0).position (selectedRows (noonRecords 0 0)
        ⟨none, none, none, none, none, none, 1, .asc⟩) := by
  refine (queryPages_exact_iff (noon_dates (by decide) (by decide)) read_oneByOne rfl
    (by decide)).mpr ?_
  rw [sorted_noonRows le_rfl]
  intro k row _ hrow
  obtain ⟨htext, htime⟩ := noon_row (by decide) (by decide) (List.mem_of_getElem? hrow)
  have hnoon : row.createdAt = 1781956800000000 := by
    obtain rfl | rfl : row = stored firstId "" 1781956800000000 ∨
        row = stored secondId (hashOf firstId noonText "") 1781956800000000 := by
      simpa [noonRows] using List.mem_of_getElem? hrow
    · rfl
    · rfl
  rw [htext, hnoon]
  exact ⟨by simp [microsecondPorts, noon_time], by decide⟩

end Audit

end Coivitas.Policy
