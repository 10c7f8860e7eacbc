import Coivitas.Crypto.ChainMigration

/-! # What a migration keeps

The rows to migrate are migrated in one order, whatever the batches and the failures: by
partition, and within a partition by position. Only the first row of a batch takes its
link from the table, so a division into batches and the number of rows done determine the
table.
-/

namespace Coivitas.Crypto

open Foundation

/-! ## Rows in the order of the migration -/

theorem filter_notMem_take {α : Type} [DecidableEq α] {l : List α} (hnodup : l.Nodup) (n : Nat) :
    (l.filter fun a => a ∉ l.take n) = l.drop n := by
  have hsplit : (l.take n ++ l.drop n).filter (fun a => a ∉ l.take n) =
      (l.take n).filter (fun a => a ∉ l.take n) ++ (l.drop n).filter fun a => a ∉ l.take n :=
    List.filter_append _ _
  rw [List.take_append_drop] at hsplit
  have hdisjoint : List.Disjoint (l.take n) (l.drop n) := by
    rw [← List.take_append_drop n l] at hnodup
    exact (List.nodup_append'.mp hnodup).2.2
  rw [hsplit, List.filter_eq_nil_iff.mpr (by simp), List.nil_append, List.filter_eq_self]
  intro a ha
  simpa using fun htake => hdisjoint htake ha

variable (P : HccPorts)

namespace ChainEntryRow

def newHash (row : ChainEntryRow) : String :=
  toHex (P.sha256 (concatPreimage row.canonicalPayload (row.key.jcs P)))

/-- The identity has a text and the hash the length of a digest. -/
def Hashable (row : ChainEntryRow) : Prop :=
  recomputeRow P row = .ok (row.key.jcs P, row.newHash P)

theorem recomputeRow_eq_ok {row : ChainEntryRow} {jcs hash : String}
    (h : recomputeRow P row = .ok (jcs, hash)) :
    jcs = row.key.jcs P ∧ hash = row.newHash P ∧ row.Hashable P := by
  have hcomputed := h
  simp only [recomputeRow, computeCanonicalPayloadHashHex, bind_eq_ok, exists_unit, require_eq_ok,
    pure_eq_ok, Prod.mk.injEq] at hcomputed
  obtain ⟨jcs', hjcs, hash', ⟨-, rfl⟩, rfl, rfl⟩ := hcomputed
  obtain rfl := canonicalizeChainIdentity_eq P hjcs
  exact ⟨rfl, rfl, h⟩

/-- The columns of the index of the links. -/
def linkKey (row : ChainEntryRow) : (String × String × String) × String :=
  (row.indexKey, row.previousHash)

def place (row : ChainEntryRow) : ChainPartitionKey ×ₗ (Nat ×ₗ String) :=
  toLex (row.key, row.position)

theorem chainPosition_le_of_place_le [LinearOrder ChainPartitionKey] {a b : ChainEntryRow}
    (hkey : a.key = b.key) (hle : a.place ≤ b.place) : a.chainPosition ≤ b.chainPosition := by
  rw [place, place, Prod.Lex.toLex_le_toLex, hkey, position, position,
    Prod.Lex.toLex_le_toLex] at hle
  rcases hle with hlt | ⟨-, hlt | ⟨heq, -⟩⟩
  · exact absurd hlt (lt_irrefl _)
  · exact hlt.le
  · exact heq.le

theorem key_le_of_place_le [LinearOrder ChainPartitionKey] {a b : ChainEntryRow}
    (hle : a.place ≤ b.place) : a.key ≤ b.key := by
  rw [place, place, Prod.Lex.toLex_le_toLex] at hle
  rcases hle with hlt | ⟨heq, -⟩
  · exact hlt.le
  · exact heq.le

end ChainEntryRow

namespace HashChainEntries

variable {t : HashChainEntries} {q r : ChainEntryRow}

theorem eq_of_entryId (hq : q ∈ t.rows) (hr : r ∈ t.rows) (hid : q.entryId = r.entryId) : q = r :=
  List.inj_on_of_nodup_map t.ids hq hr hid

theorem eq_of_slot (hq : q ∈ t.rows) (hr : r ∈ t.rows) (hkey : q.key = r.key)
    (hposition : q.chainPosition = r.chainPosition) : q = r := by
  refine List.inj_on_of_nodup_map t.slots hq hr ?_
  simp only [ChainEntryRow.key, ChainIdentity.mk.injEq] at hkey
  obtain ⟨hnamespace, htenant, hclass⟩ := hkey
  simp only [ChainEntryRow.indexKey, hnamespace, htenant, hclass, hposition]

/-- No two rows to migrate are at one place. -/
theorem place_inj (t : HashChainEntries) : ∀ a ∈ t.unmigrated, ∀ b ∈ t.unmigrated,
    a.place = b.place → a = b := by
  intro a ha b hb hplace
  simp only [ChainEntryRow.place, ChainEntryRow.position, EmbeddingLike.apply_eq_iff_eq,
    Prod.mk.injEq] at hplace
  exact eq_of_slot (List.mem_filter.mp ha).1 (List.mem_filter.mp hb).1 hplace.1 hplace.2.1

variable [LinearOrder ChainPartitionKey]

/-- The rows to migrate, by partition and position. -/
def pending (t : HashChainEntries) : List ChainEntryRow :=
  t.unmigrated.insertionSort fun a b => a.place ≤ b.place

theorem mem_pending : r ∈ t.pending ↔ r ∈ t.rows ∧ r.Unmigrated := by
  rw [pending, List.mem_insertionSort, unmigrated, List.mem_filter, decide_eq_true_eq]

theorem nodup_pending (t : HashChainEntries) : t.pending.Nodup := by
  refine (List.perm_insertionSort _ _).nodup_iff.mpr ?_
  exact (List.Nodup.of_map _ t.ids).filter _

theorem pairwise_pending (t : HashChainEntries) :
    t.pending.Pairwise fun a b => a.place ≤ b.place :=
  pairwise_sorted ChainEntryRow.place _

/-- The row of the partition that is migrated just before. -/
def before (t : HashChainEntries) (row : ChainEntryRow) : Option ChainEntryRow :=
  (t.pending.filter fun q => q.key = row.key ∧ q.chainPosition < row.chainPosition).getLast?

theorem before_eq_none : t.before r = none ↔
    ∀ q ∈ t.pending, q.key = r.key → r.chainPosition ≤ q.chainPosition := by
  rw [before, List.getLast?_eq_none_iff, List.filter_eq_nil_iff]
  simp

theorem before_eq_some (hbefore : t.before r = some q) :
    q ∈ t.pending ∧ q.key = r.key ∧ q.chainPosition < r.chainPosition ∧
      ∀ q' ∈ t.pending, q'.key = r.key → q'.chainPosition < r.chainPosition →
        q'.chainPosition ≤ q.chainPosition := by
  obtain ⟨front, hfront⟩ := List.getLast?_eq_some_iff.mp hbefore
  have hmem : q ∈ t.pending.filter fun q => q.key = r.key ∧ q.chainPosition < r.chainPosition := by
    rw [hfront]
    simp
  rw [List.mem_filter, decide_eq_true_eq] at hmem
  refine ⟨hmem.1, hmem.2.1, hmem.2.2, fun q' hq' hkey hlt => ?_⟩
  have hmem' : q' ∈ front ++ [q] := by
    rw [← hfront, List.mem_filter, decide_eq_true_eq]
    exact ⟨hq', hkey, hlt⟩
  rcases List.mem_append.mp hmem' with hfrontmem | hlast
  · have hsorted : (front ++ [q]).Pairwise fun a b => a.place ≤ b.place :=
      hfront ▸ (pairwise_pending t).sublist List.filter_sublist
    exact ChainEntryRow.chainPosition_le_of_place_le (hkey.trans hmem.2.1.symm)
      ((List.pairwise_append.mp hsorted).2.2 q' hfrontmem q (by simp))
  · rw [List.mem_singleton.mp hlast]

/-- The last of the rows before is the one with the greatest position. -/
theorem before_eq_of_greatest (hq : q ∈ t.pending) (hkey : q.key = r.key)
    (hlt : q.chainPosition < r.chainPosition)
    (hgreatest : ∀ q' ∈ t.pending, q'.key = r.key → q'.chainPosition < r.chainPosition →
      q'.chainPosition ≤ q.chainPosition) : t.before r = some q := by
  cases hbefore : t.before r with
  | none => exact absurd hlt (before_eq_none.mp hbefore q hq hkey).not_gt
  | some q' =>
      obtain ⟨hq', hkey', hlt', hgreatest'⟩ := before_eq_some hbefore
      have heq := le_antisymm (hgreatest q' hq' hkey' hlt') (hgreatest' q hq hkey hlt)
      rw [eq_of_slot (mem_pending.mp hq').1 (mem_pending.mp hq).1 (hkey'.trans hkey.symm) heq]

/-- What is migrated before a row of its partition is at an earlier place. -/
theorem mem_take_of_lt {i : Nat} (hr : t.pending[i]? = some r) (hq : q ∈ t.pending)
    (hkey : q.key = r.key) (hlt : q.chainPosition < r.chainPosition) : q ∈ t.pending.take i := by
  rw [← List.take_append_drop i t.pending] at hq
  refine (List.mem_append.mp hq).resolve_right fun hdrop => ?_
  have hrest : t.pending.drop i = r :: t.pending.drop (i + 1) := by
    obtain ⟨hi, rfl⟩ := List.getElem?_eq_some_iff.mp hr
    exact List.drop_eq_getElem_cons hi
  have hsorted : (r :: t.pending.drop (i + 1)).Pairwise fun a b => a.place ≤ b.place :=
    hrest ▸ (pairwise_pending t).sublist (List.drop_sublist _ _)
  rw [hrest] at hdrop
  rcases List.mem_cons.mp hdrop with rfl | htail
  · exact lt_irrefl _ hlt
  · have hle := ChainEntryRow.chainPosition_le_of_place_le hkey.symm
      ((List.pairwise_cons.mp hsorted).1 q htail)
    omega

theorem place_le_of_mem_take {i : Nat} (hq : t.pending[i]? = some q) {q' : ChainEntryRow}
    (hq' : q' ∈ t.pending.take (i + 1)) : q'.place ≤ q.place := by
  obtain ⟨hi, rfl⟩ := List.getElem?_eq_some_iff.mp hq
  have hsplit : t.pending.take (i + 1) = t.pending.take i ++ [t.pending[i]] := by
    rw [List.take_append_getElem hi]
  rw [hsplit] at hq'
  have hsorted : (t.pending.take i ++ [t.pending[i]]).Pairwise fun a b => a.place ≤ b.place :=
    hsplit ▸ (pairwise_pending t).sublist (List.take_sublist _ _)
  rcases List.mem_append.mp hq' with hfront | hlast
  · exact (List.pairwise_append.mp hsorted).2.2 q' hfront _ (by simp)
  · rw [List.mem_singleton.mp hlast]

theorem place_le_succ {i : Nat} (hq : t.pending[i]? = some q) (hr : t.pending[i + 1]? = some r) :
    q.place ≤ r.place := by
  obtain ⟨hi, rfl⟩ := List.getElem?_eq_some_iff.mp hq
  obtain ⟨hi', rfl⟩ := List.getElem?_eq_some_iff.mp hr
  exact List.pairwise_iff_getElem.mp (pairwise_pending t) i (i + 1) hi hi' (Nat.lt_succ_self i)

/-- Two rows of a partition that follow each other. -/
theorem before_of_getElem? {i : Nat} (hq : t.pending[i]? = some q)
    (hr : t.pending[i + 1]? = some r) (hkey : q.key = r.key) : t.before r = some q := by
  have hqmem := List.mem_of_getElem? hq
  have hrmem := List.mem_of_getElem? hr
  have hle : q.place ≤ r.place := place_le_succ hq hr
  have hne : q ≠ r := by
    rintro rfl
    obtain ⟨hi, hqi⟩ := List.getElem?_eq_some_iff.mp hq
    obtain ⟨hi', hqi'⟩ := List.getElem?_eq_some_iff.mp hr
    have hsame := (nodup_pending t).getElem_inj_iff.mp (hqi.trans hqi'.symm)
    omega
  have hlt : q.chainPosition < r.chainPosition := by
    refine lt_of_le_of_ne (ChainEntryRow.chainPosition_le_of_place_le hkey hle) fun heq => hne ?_
    exact eq_of_slot (mem_pending.mp hqmem).1 (mem_pending.mp hrmem).1 hkey heq
  refine before_eq_of_greatest hqmem hkey hlt fun q' hq' hkey' hlt' => ?_
  exact ChainEntryRow.chainPosition_le_of_place_le (hkey'.trans hkey.symm)
    (place_le_of_mem_take hq (mem_take_of_lt hr hq' hkey' hlt'))

/-! ## The table after some of the rows -/

/-- The link of a row that is first in its batch, given the rows that are done by then. -/
def anchor (t : HashChainEntries) (row : ChainEntryRow) : Option String :=
  if row.chainPosition = 0 then some genesisPreviousHash
  else
    ((t.partition row.key).find? fun q => q.chainPosition = row.chainPosition - 1).bind fun q =>
      if q.Unmigrated then some (q.newHash P)
      else if q.hccVersion = "2.0.0" then some q.canonicalPayloadHash else none

/-- The link of a row, given which rows are first in a batch. -/
def link (t : HashChainEntries) (starts : String → Bool) (row : ChainEntryRow) : Option String :=
  match if starts row.entryId then none else t.before row with
  | none => t.anchor P row
  | some q => some (q.newHash P)

def relinkRow (t : HashChainEntries) (starts : String → Bool) (row : ChainEntryRow) :
    ChainEntryRow :=
  row.relink (row.key.jcs P) (row.newHash P) ((t.link P starts row).getD "")

/-- The rows when so many of them are migrated. -/
def relinked (t : HashChainEntries) (starts : String → Bool) (count : Nat) : List ChainEntryRow :=
  t.rows.map fun row => if row ∈ t.pending.take count then t.relinkRow P starts row else row

/-- Nothing stops the migration of so many rows. -/
structure Clear (t : HashChainEntries) (starts : String → Bool) (count : Nat) : Prop where
  hashable : ∀ row ∈ t.pending.take count, row.Hashable P
  linked : ∀ row ∈ t.pending.take count, (t.link P starts row).isSome
  indexed : ∀ done ≤ count, ((t.relinked P starts done).map ChainEntryRow.linkKey).Nodup

/-- The table `u` is the table `t` with so many rows migrated. -/
structure At (t : HashChainEntries) (starts : String → Bool) (count : Nat)
    (u : HashChainEntries) : Prop where
  rows : u.rows = t.relinked P starts count
  clear : t.Clear P starts count

variable {P} {starts starts' : String → Bool} {count i : Nat} {u u' : HashChainEntries}

theorem relinked_zero : t.relinked P starts 0 = t.rows := by
  simp [relinked]

theorem At.zero : t.At P starts 0 t := by
  refine ⟨relinked_zero.symm, by simp, by simp, ?_⟩
  intro done hdone
  obtain rfl := Nat.le_zero.mp hdone
  rw [relinked_zero]
  exact t.links

theorem not_unmigrated_relinkRow : ¬ (t.relinkRow P starts r).Unmigrated := by
  simp [relinkRow, ChainEntryRow.relink, ChainEntryRow.Unmigrated]

/-- The migrated rows are no longer among the rows to migrate. -/
theorem At.unmigrated (hat : t.At P starts count u) :
    u.unmigrated = t.unmigrated.filter fun row => row ∉ t.pending.take count := by
  rw [HashChainEntries.unmigrated, hat.rows, relinked, List.filter_map, HashChainEntries.unmigrated,
    List.filter_filter]
  have hfilter : t.rows.filter ((fun row => decide row.Unmigrated) ∘ fun row =>
        if row ∈ t.pending.take count then t.relinkRow P starts row else row) =
      t.rows.filter fun row => decide (row ∉ t.pending.take count) && decide row.Unmigrated := by
    refine List.filter_congr fun row _ => ?_
    show decide
      (if row ∈ t.pending.take count then t.relinkRow P starts row else row).Unmigrated = _
    split
    next hdone => simp [not_unmigrated_relinkRow, hdone]
    next hdone => simp [hdone]
  rw [hfilter]
  refine (List.map_congr_left fun row hrow => ?_).trans (List.map_id _)
  rw [List.mem_filter, Bool.and_eq_true, decide_eq_true_eq] at hrow
  exact if_neg hrow.2.1

theorem At.pending_eq (hat : t.At P starts count u) : u.pending = t.pending.drop count := by
  rw [pending, hat.unmigrated, insertionSort_filter (place_inj t)]
  exact filter_notMem_take (nodup_pending t) count

/-- The rows depend on the batches through the links of the rows done only. -/
theorem relinked_congr (hsame : ∀ row ∈ t.pending.take count,
    t.link P starts row = t.link P starts' row) :
    t.relinked P starts count = t.relinked P starts' count := by
  refine List.map_congr_left fun row _ => ?_
  split
  next hdone => simp only [relinkRow, hsame row hdone]
  next => rfl

theorem Clear.congr (hclear : t.Clear P starts count) (hsame : ∀ row ∈ t.pending.take count,
    t.link P starts row = t.link P starts' row) : t.Clear P starts' count where
  hashable := hclear.hashable
  linked row hrow := hsame row hrow ▸ hclear.linked row hrow
  indexed done hdone := by
    rw [← relinked_congr fun row hrow => hsame row (List.take_subset_take_left _ hdone hrow)]
    exact hclear.indexed done hdone

theorem Clear.of_le {count' : Nat} (hclear : t.Clear P starts count) (hle : count' ≤ count) :
    t.Clear P starts count' where
  hashable row hrow := hclear.hashable row (List.take_subset_take_left _ hle hrow)
  linked row hrow := hclear.linked row (List.take_subset_take_left _ hle hrow)
  indexed done hdone := hclear.indexed done (hdone.trans hle)

theorem At.congr (hat : t.At P starts count u) (hsame : ∀ row ∈ t.pending.take count,
    starts row.entryId = starts' row.entryId) : t.At P starts' count u := by
  have hlinks : ∀ row ∈ t.pending.take count, t.link P starts row = t.link P starts' row :=
    fun row hrow => by rw [link, link, hsame row hrow]
  exact ⟨hat.rows.trans (relinked_congr hlinks), hat.clear.congr hlinks⟩

theorem mem_take_succ (hr : t.pending[i]? = some r) {row : ChainEntryRow} :
    row ∈ t.pending.take (i + 1) ↔ row ∈ t.pending.take i ∨ row = r := by
  obtain ⟨hi, rfl⟩ := List.getElem?_eq_some_iff.mp hr
  rw [← List.take_append_getElem hi, List.mem_append, List.mem_singleton]

theorem mem_take_max (hr : t.pending[i]? = some r) (hi : i ≤ count) {row : ChainEntryRow} :
    row ∈ t.pending.take (max count (i + 1)) ↔ row ∈ t.pending.take count ∨ row = r := by
  rcases Nat.lt_or_ge i count with hlt | hge
  · rw [max_eq_left hlt]
    refine ⟨Or.inl, fun h => h.elim id ?_⟩
    rintro rfl
    exact List.take_subset_take_left _ hlt ((mem_take_succ hr).mpr (.inr rfl))
  · obtain rfl := le_antisymm hi hge
    rw [max_eq_right (Nat.le_succ i), mem_take_succ hr]

/-- The rows after the update of the next row, or once more of a row that is done. -/
theorem At.updated_eq (hat : t.At P starts count u) (hr : t.pending[i]? = some r) (hi : i ≤ count)
    {previous : String} (hlink : t.link P starts r = some previous) :
    updated u.rows r.entryId (r.key.jcs P) (r.newHash P) previous =
      t.relinked P starts (max count (i + 1)) := by
  have hrmem := (mem_pending.mp (List.mem_of_getElem? hr)).1
  rw [updated, hat.rows, relinked, relinked, List.map_map]
  refine List.map_congr_left fun row hrow => ?_
  simp only [Function.comp_apply, mem_take_max hr hi]
  by_cases hsame : row = r
  · subst hsame
    rw [if_pos (Or.inr rfl)]
    split
    next hdone => simp [relinkRow, ChainEntryRow.relink, hlink]
    next hdone => simp [relinkRow, ChainEntryRow.relink, hlink]
  · have hid : row.entryId ≠ r.entryId := fun hid => hsame (eq_of_entryId hrow hrmem hid)
    by_cases hdone : row ∈ t.pending.take count
    · simp [hdone, relinkRow, ChainEntryRow.relink, hid]
    · simp [hdone, hid, hsame]

theorem At.update (hat : t.At P starts count u) (hr : t.pending[i]? = some r) (hi : i ≤ count)
    (hhash : r.Hashable P) {previous : String} (hlink : t.link P starts r = some previous)
    (hupdate : u.update r.entryId (r.key.jcs P) (r.newHash P) previous = some u') :
    t.At P starts (max count (i + 1)) u' := by
  rw [HashChainEntries.update] at hupdate
  split at hupdate
  next hlinks =>
    obtain rfl := Option.some.inj hupdate
    have hrows := hat.updated_eq hr hi hlink
    refine ⟨hrows, ?_, ?_, ?_⟩
    · intro row hrow
      rcases (mem_take_max hr hi).mp hrow with hdone | rfl
      · exact hat.clear.hashable row hdone
      · exact hhash
    · intro row hrow
      rcases (mem_take_max hr hi).mp hrow with hdone | rfl
      · exact hat.clear.linked row hdone
      · rw [hlink]
        rfl
    · intro done hdone
      rcases Nat.lt_or_ge count done with hlt | hge
      · obtain rfl : done = max count (i + 1) := by omega
        rw [← hrows]
        exact hlinks
      · exact hat.clear.indexed done hge
  next => cases hupdate

/-- The next row can be updated if the index of the links admits it. -/
theorem At.exists_update (hat : t.At P starts count u) (hr : t.pending[count]? = some r)
    {previous : String} (hlink : t.link P starts r = some previous)
    (hclear : t.Clear P starts (count + 1)) :
    ∃ u', u.update r.entryId (r.key.jcs P) (r.newHash P) previous = some u' := by
  have hrows := hat.updated_eq hr le_rfl hlink
  rw [max_eq_right (Nat.le_succ count)] at hrows
  refine ⟨_, dif_pos ?_⟩
  rw [hrows]
  exact hclear.indexed _ le_rfl

end HashChainEntries

end Coivitas.Crypto
