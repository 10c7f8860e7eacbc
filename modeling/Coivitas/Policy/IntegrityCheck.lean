import Coivitas.Foundation.BackLinks
import Coivitas.Foundation.JsText
import Coivitas.Foundation.Paging
import Coivitas.Policy.LedgerRuns
import Mathlib.Data.Prod.Lex

/-! # The integrity checker behind the query

The query of the action recorder with its filters, and the checker over the page that the
query returns. The checker takes the first record of any page for the first one of the
agent's chain, and the last record of a page for the last one.
-/

namespace Coivitas.Policy

open Foundation Crypto

/-! ## The query -/

inductive QueryOrder where
  | asc
  | desc
  deriving DecidableEq

structure ActionRecordQueryFilters where
  agentDid : Option String
  principalDid : Option String
  actionType : Option String
  createdFrom : Option String
  createdTo : Option String
  limit : Option JsNumber
  cursor : Option String
  order : QueryOrder

/-- The `id` column: serial numbers in the order of insertion. -/
structure RowIds (records : ActionRecords) where
  id : String → Nat
  increasing : records.rows.Pairwise fun a b => id a.recordId < id b.recordId

/-- Without a bar, `indexOf` answers `-1` for both slices. -/
def parseCursor (cursor : String) : Option (String × Int) :=
  match cursor.toList.dropWhile (· ≠ '|') with
  | [] => (bigInt cursor).map fun id => (String.ofList cursor.toList.dropLast, id)
  | _ :: id => (bigInt (String.ofList id)).map fun id =>
      (String.ofList (cursor.toList.takeWhile (· ≠ '|')), id)

/-- `LIMIT` takes a number of rows, and the statement asks for one more. -/
def readLimit : JsNumber → Option Int
  | .finite value =>
      if value.den = 1 ∧ -1 ≤ value.num ∧ value.num + 1 < 2 ^ 63 then some value.num else none
  | _ => none

def readBigint (value : Int) : Option Int :=
  if -2 ^ 63 ≤ value ∧ value < 2 ^ 63 then some value else none

/-- The filters as the database reads them. -/
structure ActionRecordSelection where
  agentDid : Option String
  principalDid : Option String
  actionType : Option String
  createdFrom : Option Int
  createdTo : Option Int
  cursor : Option (Int ×ₗ Int)
  limit : Int
  order : QueryOrder

def readCursor (P : LedgerPorts) (cursor : String) : Option (Int ×ₗ Int) := do
  let (ts, id) ← parseCursor cursor
  let ts ← P.timestamptz ts
  let id ← readBigint id
  return toLex (ts, id)

/-- `none` when the cursor is malformed or the database refuses a value. -/
def ActionRecordQueryFilters.read (P : LedgerPorts) (filters : ActionRecordQueryFilters) :
    Option ActionRecordSelection := do
  let createdFrom ← filters.createdFrom.mapM P.timestamptz
  let createdTo ← filters.createdTo.mapM P.timestamptz
  let cursor ← filters.cursor.mapM (readCursor P)
  let limit ← readLimit (filters.limit.getD (.finite 100))
  return {
    agentDid := filters.agentDid
    principalDid := filters.principalDid
    actionType := filters.actionType
    createdFrom
    createdTo
    cursor
    limit
    order := filters.order }

/-- The conditions on the columns, without the one of the cursor. -/
def ActionRecordSelection.Selects (selection : ActionRecordSelection) (row : ActionRecordRow) :
    Prop :=
  (∀ did ∈ selection.agentDid, row.agentDid = did) ∧
    (∀ did ∈ selection.principalDid, row.principalDid = did) ∧
    (∀ actionType ∈ selection.actionType, row.actionType = actionType) ∧
    (∀ createdFrom ∈ selection.createdFrom, createdFrom ≤ row.createdAt) ∧
    ∀ createdTo ∈ selection.createdTo, row.createdAt ≤ createdTo

instance (selection : ActionRecordSelection) (row : ActionRecordRow) :
    Decidable (selection.Selects row) := by
  unfold ActionRecordSelection.Selects
  infer_instance

/-- `(created_at, id)`. -/
def RowIds.position {records : ActionRecords} (ids : RowIds records) (row : ActionRecordRow) :
    Int ×ₗ Int :=
  toLex (row.createdAt, (ids.id row.recordId : Int))

/-- `values.slice(0, stop)`. -/
def sliceTo {α : Type} (stop : Int) (values : List α) : List α :=
  values.take (if 0 ≤ stop then stop else values.length + stop).toNat

/-- The rows of the statement, one more than the limit if there are. -/
def selectRows {records : ActionRecords} (ids : RowIds records)
    (selection : ActionRecordSelection) : List ActionRecordRow :=
  let selected := records.rows.filter fun row => selection.Selects row
  match selection.order with
  | .asc => page ids.position selected selection.cursor (selection.limit + 1).toNat
  | .desc =>
      (page ids.position selected selection.cursor selected.length).reverse.take
        (selection.limit + 1).toNat

/-- `ActionRecorder.query`: the records and the next cursor. -/
def query (P : LedgerPorts) {records : ActionRecords} (ids : RowIds records)
    (filters : ActionRecordQueryFilters) : Option (List ActionRecordRow × Option String) := do
  let selection ← filters.read P
  let rows := selectRows ids selection
  let hasMore := selection.limit < rows.length
  let pageRows := if hasMore then sliceTo selection.limit rows else rows
  let nextCursor := if hasMore then
      pageRows.getLast?.map fun row =>
        P.toTimestamp row.createdAt ++ "|" ++ toString (ids.id row.recordId)
    else none
  return (pageRows, nextCursor)

def verifyPage (P : LedgerPorts) (keys : CheckerKeys) :
    Option (List ActionRecordRow × Option String) → IntegrityCheckResult
  | none => .threw
  | some (rows, _) => if rows = [] then .valid else verifyRecords P keys "" rows

/-- `IntegrityChecker.verifyIntegrity` with its filters; the agent in them is ignored. -/
def verifyIntegrityOf (P : LedgerPorts) (keys : CheckerKeys) {records : ActionRecords}
    (ids : RowIds records) (agentDid : String) (filters : ActionRecordQueryFilters) :
    IntegrityCheckResult :=
  verifyPage P keys (query P ids { filters with
    agentDid := some agentDid
    limit := some (filters.limit.getD (.finite 10000)) })

/-! ## The records that a query returns -/

section Query

variable {P : LedgerPorts} {records : ActionRecords} {ids : RowIds records}
  {selection : ActionRecordSelection} {agentDid : String}

theorem RowIds.position_inj (ids : RowIds records) :
    ∀ a ∈ records.rows, ∀ b ∈ records.rows, ids.position a = ids.position b → a = b := by
  intro a ha b hb hpos
  have hnodup : (records.rows.map fun row => ids.id row.recordId).Nodup :=
    List.pairwise_map.mpr (ids.increasing.imp fun hid => hid.ne)
  refine List.inj_on_of_nodup_map hnodup ha hb ?_
  have hsnd := congrArg (fun p => (ofLex p).2) hpos
  simpa [RowIds.position] using hsnd

/-- The agent's rows are in the order of their positions. -/
theorem agentRows_eq_sorted (ids : RowIds records) (agentDid : String) :
    agentRows agentDid records =
      (records.rows.filter fun row => row.agentDid = agentDid).insertionSort
        fun a b => ids.position a ≤ ids.position b := by
  refine insertionSort_congr ?_
  refine (ids.increasing.sublist List.filter_sublist).imp ?_
  intro a b hid
  rw [RowIds.position, RowIds.position, Prod.Lex.toLex_le_toLex]
  constructor
  · intro hle
    obtain hlt | heq := hle.lt_or_eq
    · exact .inl hlt
    · exact .inr ⟨heq, by simpa using hid.le⟩
  · rintro (hlt | ⟨heq, -⟩)
    · exact hlt.le
    · exact heq.le

/-- The row lies between the times and behind the cursor. -/
def ActionRecordSelection.InRange (selection : ActionRecordSelection) (ids : RowIds records)
    (row : ActionRecordRow) : Prop :=
  (∀ createdFrom ∈ selection.createdFrom, createdFrom ≤ row.createdAt) ∧
    (∀ createdTo ∈ selection.createdTo, row.createdAt ≤ createdTo) ∧
    After selection.cursor (ids.position row)

instance (selection : ActionRecordSelection) (row : ActionRecordRow) :
    Decidable (selection.InRange ids row) := by
  unfold ActionRecordSelection.InRange
  infer_instance

/-- An agent's rows in a range of time, oldest first. -/
structure ActionRecordSelection.RangeOf (selection : ActionRecordSelection) (agentDid : String) :
    Prop where
  agentDid : selection.agentDid = some agentDid
  principalDid : selection.principalDid = none
  actionType : selection.actionType = none
  order : selection.order = .asc

theorem selectRows_eq (hrange : selection.RangeOf agentDid) :
    selectRows ids selection = ((agentRows agentDid records).filter fun row =>
      selection.InRange ids row).take (selection.limit + 1).toNat := by
  have hselected : (records.rows.filter fun row => selection.Selects row) =
      (records.rows.filter fun row => row.agentDid = agentDid).filter fun row =>
        (∀ createdFrom ∈ selection.createdFrom, createdFrom ≤ row.createdAt) ∧
          ∀ createdTo ∈ selection.createdTo, row.createdAt ≤ createdTo := by
    rw [List.filter_filter]
    refine List.filter_congr fun row _ => ?_
    rw [Bool.eq_iff_iff]
    simp only [ActionRecordSelection.Selects, hrange.agentDid, hrange.principalDid,
      hrange.actionType, Bool.and_eq_true, decide_eq_true_eq, Option.mem_def, Option.some.injEq,
      forall_eq', reduceCtorEq, false_imp_iff, implies_true, true_and]
    exact and_comm
  have hinj : ∀ a ∈ records.rows.filter fun row => row.agentDid = agentDid,
      ∀ b ∈ records.rows.filter fun row => row.agentDid = agentDid,
        ids.position a = ids.position b → a = b := fun a ha b hb =>
    ids.position_inj a (List.mem_of_mem_filter ha) b (List.mem_of_mem_filter hb)
  have hinj' : ∀ a ∈ records.rows.filter fun row => selection.Selects row,
      ∀ b ∈ records.rows.filter fun row => selection.Selects row,
        ids.position a = ids.position b → a = b := fun a ha b hb =>
    ids.position_inj a (List.mem_of_mem_filter ha) b (List.mem_of_mem_filter hb)
  unfold selectRows
  simp only [hrange.order]
  rw [page_eq_take_filter hinj', hselected, insertionSort_filter hinj, ← agentRows_eq_sorted,
    List.filter_filter]
  congr 1
  refine List.filter_congr fun row _ => ?_
  rw [Bool.eq_iff_iff]
  simp only [Bool.and_eq_true, decide_eq_true_eq]
  rw [ActionRecordSelection.InRange, and_comm, and_assoc]

/-- The limit cuts off the row that shows whether there are more. -/
theorem slice_take {α : Type} {limit : Int} (hlimit : -1 ≤ limit) (values : List α) :
    (if limit < (values.take (limit + 1).toNat).length
      then sliceTo limit (values.take (limit + 1).toNat) else values.take (limit + 1).toNat) =
      values.take limit.toNat := by
  obtain hneg | hnonneg := lt_or_ge limit 0
  · have hlimit : limit = -1 := by omega
    subst hlimit
    simp [sliceTo]
  · split
    next =>
      rw [sliceTo, if_pos hnonneg, List.take_take]
      congr 1
      omega
    next hall =>
      rw [List.length_take] at hall
      rw [List.take_of_length_le (by omega), List.take_of_length_le (by omega)]

theorem query_eq {filters : ActionRecordQueryFilters} (hread : filters.read P = some selection)
    (hrange : selection.RangeOf agentDid) (hlimit : -1 ≤ selection.limit) :
    ∃ nextCursor, query P ids filters = some (((agentRows agentDid records).filter fun row =>
      selection.InRange ids row).take selection.limit.toNat, nextCursor) := by
  rw [← slice_take hlimit, ← selectRows_eq hrange]
  unfold query
  rw [hread]
  exact ⟨_, rfl⟩

end Query

/-! ## What an intact chain is -/

section Chain

variable {P : LedgerPorts} {keys : CheckerKeys} {records : ActionRecords} {ids : RowIds records}
  {agentDid : String} {rows : List ActionRecordRow}

/-- Hash and both signatures of the record are right. -/
def Verified (P : LedgerPorts) (keys : CheckerKeys) (row : ActionRecordRow) : Prop :=
  verifyRecord P keys row.previousRecordHash row = .valid

/-- Every record names the hash before it, the first one none, and is verified. -/
structure Intact (P : LedgerPorts) (keys : CheckerKeys) (rows : List ActionRecordRow) : Prop where
  linked : BackLinked (fun row => some row.previousRecordHash) ActionRecordRow.recordHash (some "")
    rows
  verified : ∀ row ∈ rows, Verified P keys row

theorem verifyRecord_eq_valid {expectedPreviousRecordHash : String} {row : ActionRecordRow} :
    verifyRecord P keys expectedPreviousRecordHash row = .valid ↔
      row.previousRecordHash = expectedPreviousRecordHash ∧ Verified P keys row := by
  by_cases hprev : row.previousRecordHash = expectedPreviousRecordHash
  · rw [Verified, hprev]
    exact (and_iff_right rfl).symm
  · simp [verifyRecord, hprev]

theorem verifyRecords_eq_valid {expectedPreviousRecordHash : String} :
    verifyRecords P keys expectedPreviousRecordHash rows = .valid ↔
      BackLinked (fun row => some row.previousRecordHash) ActionRecordRow.recordHash
        (some expectedPreviousRecordHash) rows ∧ ∀ row ∈ rows, Verified P keys row := by
  induction rows generalizing expectedPreviousRecordHash with
  | nil => simp [verifyRecords, BackLinked]
  | cons row rows ih =>
      have hrow : verifyRecord P keys expectedPreviousRecordHash row = .valid ↔
          row.previousRecordHash = expectedPreviousRecordHash ∧ Verified P keys row :=
        verifyRecord_eq_valid
      simp only [verifyRecords, BackLinked, Option.some.injEq, List.forall_mem_cons]
      split
      next hvalid =>
        obtain ⟨hprev, hverified⟩ := hrow.mp hvalid
        rw [ih]
        tauto
      next hinvalid =>
        constructor
        · intro hvalid
          exact absurd hvalid hinvalid
        · rintro ⟨⟨hprev, -⟩, hverified, -⟩
          exact absurd (hrow.mpr ⟨hprev, hverified⟩) hinvalid

theorem intact_iff : Intact P keys rows ↔ verifyRecords P keys "" rows = .valid := by
  rw [verifyRecords_eq_valid]
  exact ⟨fun h => ⟨h.linked, h.verified⟩, fun h => ⟨h.1, h.2⟩⟩

theorem Verified.hash_ne_empty {row : ActionRecordRow} (hverified : Verified P keys row) :
    row.recordHash ≠ "" := by
  intro hempty
  simp [Verified, verifyRecord, hempty] at hverified

/-- In an intact chain only the first record names no hash. -/
theorem Intact.eq_head {first row : ActionRecordRow} (hintact : Intact P keys (first :: rows))
    (hrow : row ∈ first :: rows) (hprev : row.previousRecordHash = "") : row = first := by
  obtain rfl | hrest := List.mem_cons.mp hrow
  · rfl
  · exfalso
    obtain ⟨earlier, hearlier, hhash⟩ | hhash :=
      exists_digest_of_previous hintact.linked.2 hrest (congrArg some hprev)
    · exact (hintact.verified earlier (List.mem_cons_of_mem _ hearlier)).hash_ne_empty hhash
    · exact (hintact.verified first List.mem_cons_self).hash_ne_empty (Option.some.inj hhash)

/-- The first record that breaks the chain, if there is one, is among the first ones. -/
def BreaksWithin (P : LedgerPorts) (keys : CheckerKeys) (count : Nat)
    (rows : List ActionRecordRow) : Prop :=
  ∀ before row after, rows = before ++ row :: after → Intact P keys before →
    ¬ Intact P keys (before ++ [row]) → before.length < count

/-- A chain that is not intact has a first record that breaks it. -/
theorem exists_break (hbroken : ¬ Intact P keys rows) :
    ∃ before row after, rows = before ++ row :: after ∧ Intact P keys before ∧
      ¬ Intact P keys (before ++ [row]) := by
  induction rows using List.reverseRecOn with
  | nil => exact absurd (intact_iff.mpr rfl) hbroken
  | append_singleton rows row ih =>
      by_cases hrows : Intact P keys rows
      · exact ⟨rows, row, [], rfl, hrows, hbroken⟩
      · obtain ⟨before, row', after, rfl, hbefore, hbreak⟩ := ih hrows
        exact ⟨before, row', after ++ [row], by simp, hbefore, hbreak⟩

theorem Intact.take (hintact : Intact P keys rows) (count : Nat) :
    Intact P keys (rows.take count) :=
  intact_iff.mpr (verifyRecords_take count (intact_iff.mp hintact))

theorem take_length_succ {α : Type} (before after : List α) (a : α) :
    (before ++ a :: after).take (before.length + 1) = before ++ [a] := by
  simp [List.take_append]

/-- Looking at the first records only is enough exactly when the chain breaks among them. -/
theorem sound_take_iff (count : Nat) :
    (Intact P keys (rows.take count) → Intact P keys rows) ↔ BreaksWithin P keys count rows := by
  constructor
  · intro hsound before row after hrows hbefore hbreak
    by_contra hcount
    have htake : rows.take count = before.take count := by
      rw [hrows, List.take_append_of_le_length (by omega)]
    have hintact : Intact P keys rows := hsound (htake ▸ hbefore.take count)
    have hfront := hintact.take (before.length + 1)
    rw [hrows, take_length_succ] at hfront
    exact hbreak hfront
  · intro hbreaks htake
    by_contra hbroken
    obtain ⟨before, row, after, hrows, hbefore, hbreak⟩ := exists_break hbroken
    have hcount := hbreaks before row after hrows hbefore hbreak
    have hfront := htake.take (before.length + 1)
    rw [List.take_take, min_eq_left (by omega), hrows, take_length_succ] at hfront
    exact hbreak hfront

/-- Nothing is read, or the agent's first record is read if any is. -/
def ActionRecordSelection.FromGenesis (selection : ActionRecordSelection) (ids : RowIds records)
    (rows : List ActionRecordRow) : Prop :=
  selection.limit ≤ 0 ∨ ∀ row ∈ rows, selection.InRange ids row →
    ∀ first ∈ rows.head?, selection.InRange ids first

theorem agentRows_pairwise (ids : RowIds records) (agentDid : String) :
    (agentRows agentDid records).Pairwise fun a b => ids.position a ≤ ids.position b := by
  rw [agentRows_eq_sorted ids]
  exact pairwise_sorted ids.position _

theorem createdAt_le_of_position_le {a b : ActionRecordRow}
    (hle : ids.position a ≤ ids.position b) : a.createdAt ≤ b.createdAt := by
  rw [RowIds.position, RowIds.position, Prod.Lex.toLex_le_toLex] at hle
  obtain hlt | ⟨heq, -⟩ := hle
  · exact hlt.le
  · exact heq.le

/-- Behind a first record in the range, the range ends but does not begin. -/
theorem filter_inRange_prefix {selection : ActionRecordSelection}
    (hsorted : rows.Pairwise fun a b => ids.position a ≤ ids.position b)
    (hfirst : ∀ first ∈ rows.head?, selection.InRange ids first) :
    (rows.filter fun row => selection.InRange ids row) <+: rows := by
  cases rows with
  | nil => exact List.nil_prefix
  | cons first rows =>
      obtain ⟨hfrom, -, hafter⟩ := hfirst first rfl
      obtain ⟨hlow, -⟩ := List.pairwise_cons.mp hsorted
      have hfront : ∀ row ∈ first :: rows, ids.position first ≤ ids.position row := by
        intro row hrow
        obtain rfl | hrow := List.mem_cons.mp hrow
        · exact le_rfl
        · exact hlow row hrow
      refine filter_prefix (hsorted.imp_of_mem ?_)
      intro a b ha _ hab hb
      rw [decide_eq_true_iff] at hb ⊢
      obtain ⟨-, hto, -⟩ := hb
      have hfirsta := hfront a ha
      exact ⟨fun createdFrom h => (hfrom createdFrom h).trans (createdAt_le_of_position_le hfirsta),
        fun createdTo h => (createdAt_le_of_position_le hab).trans (hto createdTo h),
        fun cursor h => (hafter cursor h).trans_le hfirsta⟩

/-- A page of an intact chain is accepted exactly when it is empty or starts with the first
record of the chain. -/
theorem intact_page_iff {selection : ActionRecordSelection}
    (hsorted : rows.Pairwise fun a b => ids.position a ≤ ids.position b)
    (hintact : Intact P keys rows) :
    Intact P keys ((rows.filter fun row => selection.InRange ids row).take
      selection.limit.toNat) ↔ selection.FromGenesis ids rows := by
  constructor
  · intro hpage
    by_cases hlimit : selection.limit ≤ 0
    · exact .inl hlimit
    · refine .inr fun row hrow hin first hfirst => ?_
      cases rows with
      | nil => cases hfirst
      | cons first' rows =>
          cases hfirst
          cases hfilter : (first :: rows).filter fun row => selection.InRange ids row with
          | nil => exact absurd hin (by simpa using List.filter_eq_nil_iff.mp hfilter row hrow)
          | cons head tail =>
              have hhead : head ∈ (first :: rows).filter fun row => selection.InRange ids row :=
                hfilter ▸ List.mem_cons_self
              rw [List.mem_filter, decide_eq_true_eq] at hhead
              obtain ⟨count, hcount⟩ : ∃ count, selection.limit.toNat = count + 1 :=
                ⟨selection.limit.toNat - 1, by omega⟩
              rw [hfilter, hcount, List.take_succ_cons] at hpage
              have hprev : head.previousRecordHash = "" := Option.some.inj hpage.linked.1
              rw [← hintact.eq_head hhead.1 hprev]
              exact hhead.2
  · rintro (hlimit | hgenesis)
    · rw [Int.toNat_of_nonpos hlimit]
      exact intact_iff.mpr rfl
    · cases hfilter : rows.filter fun row => selection.InRange ids row with
      | nil =>
          rw [List.take_nil]
          exact intact_iff.mpr rfl
      | cons head tail =>
          have hhead : head ∈ rows.filter fun row => selection.InRange ids row :=
            hfilter ▸ List.mem_cons_self
          rw [List.mem_filter, decide_eq_true_eq] at hhead
          have hprefix := filter_inRange_prefix hsorted (hgenesis head hhead.1 hhead.2)
          rw [← hfilter, List.prefix_iff_eq_take.mp hprefix]
          exact (hintact.take _).take _

/-- A range of the agent's records, as the caller of the checker gives it. -/
structure RangeFilters where
  createdFrom : Option String
  createdTo : Option String
  limit : Option JsNumber
  cursor : Option String

def RangeFilters.filters (range : RangeFilters) : ActionRecordQueryFilters where
  agentDid := none
  principalDid := none
  actionType := none
  createdFrom := range.createdFrom
  createdTo := range.createdTo
  limit := range.limit
  cursor := range.cursor
  order := .asc

def RangeFilters.none : RangeFilters := ⟨.none, .none, .none, .none⟩

/-- The filters that the checker queries with. -/
def RangeFilters.queried (range : RangeFilters) (agentDid : String) : ActionRecordQueryFilters :=
  { range.filters with
    agentDid := some agentDid
    limit := some (range.limit.getD (.finite 10000)) }

theorem le_of_readLimit {value : JsNumber} {limit : Int} (hlimit : readLimit value = some limit) :
    -1 ≤ limit := by
  unfold readLimit at hlimit
  split at hlimit
  next =>
    split at hlimit
    next hvalue =>
      cases hlimit
      exact hvalue.2.1
    next => cases hlimit
  next => cases hlimit

theorem rangeOf_of_read {range : RangeFilters} {selection : ActionRecordSelection}
    (hread : (range.queried agentDid).read P = some selection) :
    selection.RangeOf agentDid ∧ -1 ≤ selection.limit := by
  simp only [ActionRecordQueryFilters.read, Option.bind_eq_bind, Option.bind_eq_some_iff,
    Option.pure_def, Option.some.injEq] at hread
  obtain ⟨createdFrom, -, createdTo, -, cursor, -, limit, hlimit, rfl⟩ := hread
  exact ⟨⟨rfl, rfl, rfl, rfl⟩, le_of_readLimit hlimit⟩

theorem verifyIntegrityOf_eq {range : RangeFilters} {selection : ActionRecordSelection}
    (hread : (range.queried agentDid).read P = some selection) :
    verifyIntegrityOf P keys ids agentDid range.filters = verifyRecords P keys ""
      (((agentRows agentDid records).filter fun row => selection.InRange ids row).take
        selection.limit.toNat) := by
  obtain ⟨hrange, hlimit⟩ := rangeOf_of_read hread
  obtain ⟨nextCursor, hquery⟩ : ∃ nextCursor, query P ids (range.queried agentDid) = some (_,
      nextCursor) := query_eq hread hrange hlimit
  show verifyPage P keys (query P ids (range.queried agentDid)) = _
  rw [hquery, verifyPage]
  split
  next hempty => rw [hempty, verifyRecords]
  next => rfl

theorem read_none : (RangeFilters.none.queried agentDid).read P =
    some ⟨some agentDid, none, none, none, none, none, 10000, .asc⟩ := by
  have hlimit : readLimit (.finite 10000) = some 10000 := by decide
  simp only [ActionRecordQueryFilters.read, RangeFilters.queried, RangeFilters.filters,
    RangeFilters.none, Option.getD_none, Option.getD_some, hlimit]
  rfl

/-- Without a range the checker is the one over the first ten thousand records. -/
theorem verifyIntegrityOf_none :
    verifyIntegrityOf P keys ids agentDid RangeFilters.none.filters =
      verifyIntegrity P keys agentDid records := by
  have hall : ((agentRows agentDid records).filter fun row =>
      (⟨some agentDid, none, none, none, none, none, 10000, .asc⟩ :
        ActionRecordSelection).InRange ids row) = agentRows agentDid records := by
    rw [List.filter_eq_self]
    intro row _
    simp [ActionRecordSelection.InRange]
  rw [verifyIntegrityOf_eq read_none, hall]
  rfl

/-- The checker without a range vouches for all records of the agent, and the checker with a
range accepts an intact ledger, exactly when the ledger breaks within the first ten thousand
records, if at all, and the range of an intact ledger can be read and holds the agent's first
record, if any. -/
theorem integrity_iff (range : RangeFilters) :
    (verifyIntegrityOf P keys ids agentDid RangeFilters.none.filters = .valid →
        Intact P keys (agentRows agentDid records)) ∧
      (Intact P keys (agentRows agentDid records) →
        verifyIntegrityOf P keys ids agentDid range.filters = .valid) ↔
    BreaksWithin P keys 10000 (agentRows agentDid records) ∧
      (Intact P keys (agentRows agentDid records) →
        ∃ selection, (range.queried agentDid).read P = some selection ∧
          selection.FromGenesis ids (agentRows agentDid records)) := by
  rw [verifyIntegrityOf_none, verifyIntegrity, ← intact_iff]
  refine and_congr (sound_take_iff 10000) (forall_congr' fun hintact => ?_)
  cases hread : (range.queried agentDid).read P with
  | none =>
      have hquery : query P ids (range.queried agentDid) = none := by
        rw [query, hread]
        rfl
      have hthrew : verifyIntegrityOf P keys ids agentDid range.filters = .threw := by
        show verifyPage P keys (query P ids (range.queried agentDid)) = _
        rw [hquery]
        rfl
      simp [hthrew]
  | some selection =>
      rw [verifyIntegrityOf_eq hread, ← intact_iff,
        intact_page_iff (agentRows_pairwise ids agentDid) hintact]
      simp

end Chain

/-! ## The second of two records -/

namespace Audit

open Identity Identity.Relay

/-- The records of the last second. -/
def lastSecond : RangeFilters := ⟨some laterText, none, none, none⟩

def serial (recordId : String) : Nat := if recordId = firstId then 1 else 2

/-- An intact ledger of two records, a second apart. -/
theorem exists_two_records : ∃ (records : ActionRecords) (row row' : ActionRecordRow),
    agentRows editor records = [row, row'] ∧ records.rows = [row, row'] ∧
      row.recordId = firstId ∧ row'.recordId = secondId ∧
      row.createdAt = 1781956800000 ∧ row'.createdAt = 1781956801000 ∧
      Intact ports keys [row, row'] := by
  obtain ⟨s₁, s₂, row, row', hrun₁, hrun₂, hcall, hlock, hrow, hrow', hrows₁, hrows⟩ :=
    run_two waiting 0 1 rfl (fun _ => rfl) (by decide) rfl rfl ids_ne
      (by simp [noon_time]) (by simp [later_time]) first_signed second_after_first_signed
  have htime : row.createdAt = 1781956800000 :=
    (Option.some.inj (noon_time.symm.trans hrow.createdAt)).symm
  have htime' : row'.createdAt = 1781956801000 :=
    (Option.some.inj (later_time.symm.trans hrow'.createdAt)).symm
  have hagent : row.agentDid = editor := hrow.agentDid
  have hagent' : row'.agentDid = editor := hrow'.agentDid
  refine ⟨s₂.records, row, row', ?_, hrows, hrow.recordId, hrow'.recordId, htime, htime', ?_⟩
  · simp [agentRows, hrows, hagent, hagent', htime, htime']
  · have hfirst : verifyRecord ports keys "" row = .valid :=
      verifyRecord_of_records hrow (keyed firstId) (by rw [htime]; rfl)
    have hsecond : verifyRecord ports keys row.recordHash row' = .valid :=
      verifyRecord_of_records hrow' (keyed secondId) (by rw [htime']; rfl)
    rw [intact_iff, verifyRecords, hfirst]
    show verifyRecords ports keys row.recordHash [row'] = .valid
    rw [verifyRecords, hsecond]
    rfl

/-- The completeness of the checker fails: on the intact ledger of two records, the range that
holds the second one only is reported as broken. -/
theorem lastSecond_refused : ∃ (records : ActionRecords) (ids : RowIds records),
    Intact ports keys (agentRows editor records) ∧
      verifyIntegrityOf ports keys ids editor lastSecond.filters =
        .invalid secondId .previousRecordHashMismatch := by
  obtain ⟨records, row, row', hagent, hrows, hid, hid', htime, htime', hintact⟩ :=
    exists_two_records
  have hincreasing : records.rows.Pairwise fun a b => serial a.recordId < serial b.recordId := by
    simp [hrows, hid, hid', serial, ids_ne.symm]
  refine ⟨records, ⟨serial, hincreasing⟩, hagent ▸ hintact, ?_⟩
  have hread : (lastSecond.queried editor).read ports =
      some ⟨some editor, none, none, some 1781956801000, none, none, 10000, .asc⟩ := by
    have hlimit : readLimit (.finite 10000) = some 10000 := by decide
    have hfrom : ports.timestamptz laterText = some 1781956801000 := later_time
    simp [ActionRecordQueryFilters.read, RangeFilters.queried, RangeFilters.filters, lastSecond,
      hlimit, hfrom]
  have hpage : ([row, row'].filter fun row =>
      (⟨some editor, none, none, some 1781956801000, none, none, 10000, .asc⟩ :
        ActionRecordSelection).InRange ⟨serial, hincreasing⟩ row) = [row'] := by
    simp [ActionRecordSelection.InRange, htime, htime']
  have hlinked : row'.previousRecordHash = row.recordHash := by
    simpa using hintact.linked.2.1
  have hhash : row.recordHash ≠ "" := (hintact.verified row List.mem_cons_self).hash_ne_empty
  rw [verifyIntegrityOf_eq hread, hagent, hpage]
  show verifyRecords ports keys "" [row'] = _
  simp [verifyRecords, verifyRecord, hlinked, hhash, hid']

end Audit

end Coivitas.Policy
