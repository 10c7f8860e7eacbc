import Mathlib.Data.List.Induction

/-! # Records linked to their predecessors

A record may name the digest of the record before it. In a linked list the
first record names none and every other one names its predecessor's digest, so
where digests bind the records, the last digest binds the whole list.
-/

namespace Foundation

variable {α β δ : Type*} (previous : α → Option δ) (digest : α → δ)

/-- Every record names the digest of the one before it; the first names `link`. -/
def BackLinked : Option δ → List α → Prop
  | _, [] => True
  | link, record :: rest => previous record = link ∧ BackLinked (some (digest record)) rest

/-- What the next record of a linked list has to name. -/
def lastDigest (records : List α) : Option δ := records.getLast?.map digest

variable {previous digest}

theorem lastDigest_concat (records : List α) (record : α) :
    lastDigest digest (records ++ [record]) = some (digest record) := by
  simp [lastDigest]

theorem backLinked_concat_of_link {link : Option δ} (records : List α) (record : α) :
    BackLinked previous digest link (records ++ [record]) ↔
      BackLinked previous digest link records ∧
        previous record = (lastDigest digest records).or link := by
  induction records generalizing link with
  | nil => simp [BackLinked, lastDigest]
  | cons first rest ih =>
      simp only [List.cons_append, BackLinked, ih, and_assoc]
      refine and_congr_right fun _ => and_congr_right fun _ => ?_
      cases rest with
      | nil => simp [lastDigest]
      | cons second rest =>
          rw [lastDigest, lastDigest, List.getLast?_cons_cons]
          simp [List.getLast?_cons]

/-- A linked list grows by a record that names the last digest. -/
theorem backLinked_concat (records : List α) (record : α) :
    BackLinked previous digest none (records ++ [record]) ↔
      BackLinked previous digest none records ∧ previous record = lastDigest digest records := by
  rw [backLinked_concat_of_link, Option.or_none]

/-- The links of a list, one record after the other. -/
theorem backLinked_iff_getElem? {link : Option δ} {records : List α} :
    BackLinked previous digest link records ↔
      (∀ record, records[0]? = some record → previous record = link) ∧
        ∀ k earlier record, records[k]? = some earlier → records[k + 1]? = some record →
          previous record = some (digest earlier) := by
  induction records generalizing link with
  | nil => simp [BackLinked]
  | cons first rest ih =>
      rw [BackLinked, ih]
      constructor
      · rintro ⟨hfirst, hsecond, hrest⟩
        refine ⟨fun record hrecord => Option.some.inj hrecord ▸ hfirst, ?_⟩
        intro k earlier record hearlier hrecord
        cases k with
        | zero => exact Option.some.inj hearlier ▸ hsecond record hrecord
        | succ k => exact hrest k earlier record hearlier hrecord
      · rintro ⟨hfirst, hrest⟩
        exact ⟨hfirst first rfl, fun record hrecord => hrest 0 first record rfl hrecord,
          fun k earlier record hearlier hrecord => hrest (k + 1) earlier record hearlier hrecord⟩

/-- A first record may name a root instead of nothing, as long as no digest is the root. -/
theorem BackLinked.of_root [DecidableEq δ] {named : α → δ} {root : δ} {records : List α}
    (hlinked : BackLinked (fun record => some (named record)) digest (some root) records)
    (hroot : ∀ record ∈ records, digest record ≠ root) :
    BackLinked (fun record => if named record = root then none else some (named record)) digest
      none records := by
  induction records using List.reverseRecOn with
  | nil => trivial
  | append_singleton records record ih =>
      rw [backLinked_concat_of_link] at hlinked
      rw [backLinked_concat]
      obtain ⟨hrest, hnamed⟩ := hlinked
      refine ⟨ih hrest fun other hother => hroot other (List.mem_append_left _ hother), ?_⟩
      cases records using List.reverseRecOn with
      | nil =>
          rw [if_pos (Option.some.inj hnamed)]
          rfl
      | append_singleton earlier predecessor =>
          rw [lastDigest_concat] at hnamed ⊢
          have hname : named record = digest predecessor := Option.some.inj hnamed
          rw [if_neg, hname]
          rw [hname]
          exact hroot predecessor (by simp)

/-- A named digest is one of the list, or the link the list starts from. -/
theorem exists_digest_of_previous {link : Option δ} {records : List α} {record : α} {d : δ}
    (hlinked : BackLinked previous digest link records) (hrecord : record ∈ records)
    (hprevious : previous record = some d) :
    (∃ earlier ∈ records, digest earlier = d) ∨ link = some d := by
  induction records generalizing link with
  | nil => cases hrecord
  | cons first rest ih =>
      obtain ⟨hfirst, hrest⟩ := hlinked
      rcases List.mem_cons.mp hrecord with rfl | hmem
      · exact Or.inr (hfirst.symm.trans hprevious)
      · refine Or.inl ?_
        rcases ih hrest hmem with ⟨earlier, hearlier, hdigest⟩ | hlink
        · exact ⟨earlier, List.mem_cons_of_mem _ hearlier, hdigest⟩
        · exact ⟨first, List.mem_cons_self, Option.some.inj hlink⟩

/-- Two linked lists with the same last digest agree on everything their digests
bind, the links included. The induction is from the tail: equal last digests give
equal links, and these are the last digests of the remaining lists. -/
theorem map_eq_of_lastDigest_eq {bound : α → β} {left right : List α}
    (hleft : BackLinked previous digest none left)
    (hright : BackLinked previous digest none right)
    (hbinds : ∀ l ∈ left, ∀ r ∈ right, digest l = digest r →
      bound l = bound r ∧ previous l = previous r)
    (hlast : lastDigest digest left = lastDigest digest right) :
    left.map bound = right.map bound := by
  induction left using List.reverseRecOn generalizing right with
  | nil =>
      cases right using List.reverseRecOn with
      | nil => rfl
      | append_singleton right r => simp [lastDigest] at hlast
  | append_singleton left l ih =>
      cases right using List.reverseRecOn with
      | nil => simp [lastDigest] at hlast
      | append_singleton right r =>
          rw [lastDigest_concat, lastDigest_concat, Option.some.injEq] at hlast
          rw [backLinked_concat] at hleft hright
          obtain ⟨hbound, hprevious⟩ := hbinds l (by simp) r (by simp) hlast
          have hlinks : lastDigest digest left = lastDigest digest right := by
            rw [← hleft.2, ← hright.2, hprevious]
          have hrest := ih hleft.1 hright.1 (fun l hl r hr =>
            hbinds l (List.mem_append_left _ hl) r (List.mem_append_left _ hr)) hlinks
          rw [List.map_append, List.map_append, hrest, List.map_singleton, List.map_singleton,
            hbound]

end Foundation
