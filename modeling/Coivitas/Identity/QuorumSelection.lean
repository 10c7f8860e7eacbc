import Coivitas.Crypto.Sha256
import Coivitas.Identity.FederatedBinding
import Mathlib.Data.List.Perm.Basic

/-! # Selection by quorum

The answers are voted on by version. At most one version has a strict majority,
and that majority does not depend on the order in which the answers arrived; only
which of the equal documents is returned does.
-/

namespace Coivitas.Identity.Federation

open Foundation Coivitas.Types Policy

/-! ## Strict majorities -/

section Majority

variable {α κ : Type*} [DecidableEq κ]

/-- More than half of the votes are for the key. -/
def StrictMajority (key : α → κ) (votes : List α) (k : κ) : Prop :=
  votes.length < 2 * (votes.filter fun vote => key vote = k).length

instance (key : α → κ) (votes : List α) (k : κ) : Decidable (StrictMajority key votes k) :=
  inferInstanceAs (Decidable (_ < _))

variable {key : α → κ} {votes votes' : List α} {k k' : κ}

theorem StrictMajority.perm (h : StrictMajority key votes k) (hperm : votes.Perm votes') :
    StrictMajority key votes' k := by
  rw [StrictMajority, ← hperm.length_eq, ← (hperm.filter _).length_eq]
  exact h

/-- Two keys share no vote, so they cannot both have more than half of them. -/
theorem StrictMajority.unique (h : StrictMajority key votes k)
    (h' : StrictMajority key votes k') : k = k' := by
  by_contra hne
  have hdisjoint : ((votes.filter fun vote => key vote = k).length +
      (votes.filter fun vote => key vote = k').length) ≤ votes.length := by
    clear h h'
    induction votes with
    | nil => simp
    | cons vote rest ih =>
        have hone : ¬ (key vote = k ∧ key vote = k') := by
          rintro ⟨hk, hk'⟩
          exact hne (hk.symm.trans hk')
        simp only [List.filter_cons, List.length_cons]
        split <;> split <;> simp_all <;> omega
  unfold StrictMajority at h h'
  omega

theorem StrictMajority.exists_vote (h : StrictMajority key votes k) :
    ∃ vote ∈ votes, key vote = k := by
  by_contra hnone
  push Not at hnone
  have hempty : (votes.filter fun vote => key vote = k) = [] := by
    simpa [List.filter_eq_nil_iff] using hnone
  simp [StrictMajority, hempty] at h

end Majority

/-! ## The groups of numeric versions -/

variable {P : ResolverPorts} {candidates : List Json} {version : ℚ} {document : Json}

/-- The candidates of a version, in the order they arrived. -/
def holders (candidates : List Json) (version : ℚ) : List Json :=
  candidates.filter fun document => documentVersion document = version

theorem mem_holders :
    document ∈ holders candidates version ↔
      document ∈ candidates ∧ documentVersion document = version := by
  simp [holders]

theorem versionKey_of_numeric (h : IsNumeric document) (candidate : Nat) :
    versionKey P candidate (versionOr 1 document) = .num (documentVersion document) := by
  rw [h, versionKey]

/-- Positions play no part when every version is a number. -/
theorem filter_zipIdx_of_numeric (hnumeric : ∀ document ∈ candidates, IsNumeric document)
    (start : Nat) :
    (((candidates.zipIdx start).filter fun entry =>
      versionKey P entry.2 (versionOr 1 entry.1) = .num version).map Prod.fst) =
        holders candidates version := by
  induction candidates generalizing start with
  | nil => rfl
  | cons document rest ih =>
      obtain ⟨hdocument, hrest⟩ := List.forall_mem_cons.mp hnumeric
      simp only [List.zipIdx_cons, List.filter_cons, versionKey_of_numeric hdocument,
        VersionKey.num.injEq, holders]
      split
      · rw [List.map_cons, ih hrest (start + 1), holders]
      · rw [ih hrest (start + 1), holders]

theorem get?_byVersion (hnumeric : ∀ document ∈ candidates, IsNumeric document)
    (group : List Json) :
    (byVersion P candidates).get? (.num version) = some group ↔
      (∃ document ∈ candidates, documentVersion document = version) ∧
        group = holders candidates version := by
  rw [byVersion, OrderedMap.get?_groupBy_eq_some, filter_zipIdx_of_numeric hnumeric]
  refine and_congr_left fun _ => ?_
  constructor
  · rintro ⟨⟨document, i⟩, hzip, hkey⟩
    have hmem := List.fst_mem_of_mem_zipIdx hzip
    rw [versionKey_of_numeric (hnumeric document hmem)] at hkey
    exact ⟨document, hmem, VersionKey.num.inj hkey⟩
  · rintro ⟨document, hmem, rfl⟩
    obtain ⟨i, hi, rfl⟩ := List.mem_iff_getElem.mp hmem
    refine ⟨(candidates[i], i), List.mem_iff_getElem.mpr ⟨i, by simpa using hi, by simp⟩, ?_⟩
    exact versionKey_of_numeric (hnumeric _ hmem) _

/-- Every group is the one of a number. -/
theorem key_of_mem_entries (hnumeric : ∀ document ∈ candidates, IsNumeric document)
    {entry : VersionKey × List Json} (hentry : entry ∈ (byVersion P candidates).entries) :
    ∃ version, entry = (.num version, holders candidates version) ∧
      ∃ document ∈ candidates, documentVersion document = version := by
  obtain ⟨key, group⟩ := entry
  have hget := (OrderedMap.mem_entries_iff _ _ _).mp hentry
  obtain ⟨⟨⟨document, i⟩, hzip, rfl⟩, -⟩ := (OrderedMap.get?_groupBy_eq_some _ _ _ _ _).mp hget
  have hmem := List.fst_mem_of_mem_zipIdx hzip
  rw [versionKey_of_numeric (hnumeric document hmem)] at hget ⊢
  obtain ⟨hexists, rfl⟩ := (get?_byVersion hnumeric group).mp hget
  exact ⟨_, rfl, hexists⟩

/-! ## The choice -/

/-- More than half of the candidates have the version. -/
abbrev HasMajority (candidates : List Json) (version : ℚ) : Prop :=
  StrictMajority documentVersion candidates version

theorem threshold_le_iff {n count : Nat} :
    computeQuorumThreshold n ≤ count ↔ n < 2 * count := by
  unfold computeQuorumThreshold
  omega

theorem mem_qualifiedVersions (hnumeric : ∀ document ∈ candidates, IsNumeric document)
    (key : VersionKey) :
    key ∈ qualifiedVersions P candidates ↔
      ∃ version, key = .num version ∧ HasMajority candidates version := by
  simp only [qualifiedVersions, List.mem_map, List.mem_filter, decide_eq_true_eq,
    threshold_le_iff]
  constructor
  · rintro ⟨entry, ⟨hentry, hcount⟩, rfl⟩
    obtain ⟨version, rfl, -⟩ := key_of_mem_entries hnumeric hentry
    exact ⟨version, rfl, hcount⟩
  · rintro ⟨version, rfl, hmajority⟩
    have hget : (byVersion P candidates).get? (.num version) = some (holders candidates version) :=
      (get?_byVersion hnumeric _).mpr ⟨hmajority.exists_vote, rfl⟩
    exact ⟨_, ⟨(OrderedMap.mem_entries_iff _ _ _).mpr hget, hmajority⟩, rfl⟩

/-- A version with a majority is the only one that qualifies. -/
theorem qualifiedVersions_of_majority (hnumeric : ∀ document ∈ candidates, IsNumeric document)
    (hmajority : HasMajority candidates version) :
    qualifiedVersions P candidates = [.num version] := by
  have hnodup : (qualifiedVersions P candidates).Nodup :=
    (byVersion P candidates).nodup.sublist (List.filter_sublist.map Prod.fst)
  have hall : ∀ key ∈ qualifiedVersions P candidates, key = .num version := by
    intro key hkey
    obtain ⟨other, rfl, hother⟩ := (mem_qualifiedVersions hnumeric key).mp hkey
    rw [hother.unique hmajority]
  have hmem : .num version ∈ qualifiedVersions P candidates :=
    (mem_qualifiedVersions hnumeric _).mpr ⟨version, rfl, hmajority⟩
  refine List.perm_singleton.mp ((List.perm_ext_iff_of_nodup hnodup (List.nodup_singleton _)).mpr ?_)
  intro key
  rw [List.mem_singleton]
  constructor
  · intro hkey
    exact hall key hkey
  · rintro rfl
    exact hmem

/-- What the selection comes to: the candidates of the majority version have to
agree, and without a majority there is no choice. -/
theorem selectByQuorum_of_majority (hnumeric : ∀ document ∈ candidates, IsNumeric document)
    {total : Nat} (htotal : 3 ≤ total) (hmajority : HasMajority candidates version) :
    selectByQuorum P candidates total = some (agreed P (holders candidates version)) := by
  have hget : (byVersion P candidates).get? (.num version) = some (holders candidates version) :=
    (get?_byVersion hnumeric _).mpr ⟨hmajority.exists_vote, rfl⟩
  have hmax : mathMax ([.num version].map (VersionKey.number P)) = .finite version := rfl
  rw [selectByQuorum, if_neg (by omega), qualifiedVersions_of_majority hnumeric hmajority]
  simp only [selectAmong, hmax, winnersAt, hget, Option.map_some]

theorem selectByQuorum_of_no_majority (hnumeric : ∀ document ∈ candidates, IsNumeric document)
    {total : Nat} (htotal : 3 ≤ total) (hnone : ∀ version, ¬ HasMajority candidates version) :
    selectByQuorum P candidates total = some none := by
  have hempty : qualifiedVersions P candidates = [] := by
    rw [List.eq_nil_iff_forall_not_mem]
    intro key hkey
    obtain ⟨version, -, hmajority⟩ := (mem_qualifiedVersions hnumeric key).mp hkey
    exact hnone version hmajority
  rw [selectByQuorum, if_neg (by omega), hempty]

/-! ## Agreement of the winners -/

def content (P : ResolverPorts) (document : Json) : String :=
  Json.canonicalize P.numberFormat document

/-- The digest tells the contents of the candidates apart. -/
def CollisionFree (P : ResolverPorts) (candidates : List Json) : Prop :=
  Set.InjOn P.hash { bytes | ∃ document ∈ candidates, bytes = utf8 (content P document) }

theorem content_eq_of_hash (hfree : CollisionFree P candidates) {other : Json}
    (hdocument : document ∈ candidates) (hother : other ∈ candidates)
    (h : contentHash P document = contentHash P other) : content P document = content P other :=
  utf8_injective (hfree ⟨document, hdocument, rfl⟩ ⟨other, hother, rfl⟩ h)

theorem eq_of_length_le_one {α : Type*} {l : List α} {a b : α} (h : l.length ≤ 1) (ha : a ∈ l)
    (hb : b ∈ l) : a = b := by
  cases l with
  | nil => simp at ha
  | cons head rest =>
      obtain rfl := List.length_eq_zero_iff.mp (by simpa using h)
      rw [List.mem_singleton.mp ha, List.mem_singleton.mp hb]

theorem agreed_eq_some {winners : List Json} (h : agreed P winners = some document) :
    document ∈ winners ∧ ∀ other ∈ winners, contentHash P other = contentHash P document := by
  refine ⟨mem_of_agreed h, ?_⟩
  unfold agreed at h
  split at h
  next => cases h
  next hle =>
    intro other hother
    have hmem := List.mem_dedup.mpr (List.mem_map_of_mem (f := contentHash P) hother)
    have hmem' := List.mem_dedup.mpr
      (List.mem_map_of_mem (f := contentHash P) (List.mem_of_head? h))
    exact eq_of_length_le_one (not_lt.mp hle) hmem hmem'

/-- Both calls choose nothing, or documents with the same canonical content. -/
inductive SameChoice (P : ResolverPorts) : Option (Option Json) → Option (Option Json) → Prop
  | neither : SameChoice P (some none) (some none)
  | both {document document' : Json} (h : content P document = content P document') :
      SameChoice P (some (some document)) (some (some document'))

/-- Winners in another order agree or disagree alike. -/
theorem agreed_perm {winners winners' : List Json} (hne : winners ≠ [])
    (hperm : winners.Perm winners') (hfree : CollisionFree P winners) :
    SameChoice P (some (agreed P winners)) (some (agreed P winners')) := by
  have hlength : (winners.map (contentHash P)).dedup.length =
      (winners'.map (contentHash P)).dedup.length :=
    ((hperm.map _).dedup).length_eq
  obtain ⟨first, hfirst⟩ := Option.ne_none_iff_exists'.mp (mt List.head?_eq_none_iff.mp hne)
  have hne' : winners' ≠ [] := by
    rintro rfl
    exact hne hperm.eq_nil
  obtain ⟨first', hfirst'⟩ := Option.ne_none_iff_exists'.mp (mt List.head?_eq_none_iff.mp hne')
  have hmem' : first' ∈ winners := hperm.mem_iff.mpr (List.mem_of_head? hfirst')
  by_cases hdiffer : 1 < (winners.map (contentHash P)).dedup.length
  · rw [agreed, if_pos hdiffer, agreed, if_pos (hlength ▸ hdiffer)]
    exact .neither
  · have hagreed : agreed P winners = some first := by
      rw [agreed, if_neg hdiffer, hfirst]
    have hagreed' : agreed P winners' = some first' := by
      rw [agreed, if_neg (hlength ▸ hdiffer), hfirst']
    rw [hagreed, hagreed']
    have hhash := (agreed_eq_some hagreed).2 first' hmem'
    exact .both (content_eq_of_hash hfree (List.mem_of_head? hfirst) hmem' hhash.symm)

/-! ## Soundness, and independence of the order -/

/-- A returned document is one of the candidates, more than half of them have its version,
and those that do have its content. The candidates in another order lead to the same
choice. -/
theorem selectByQuorum_sound {total : Nat} (htotal : 3 ≤ total)
    (hnumeric : ∀ document ∈ candidates, IsNumeric document)
    (hfree : CollisionFree P candidates) :
    (∀ document, selectByQuorum P candidates total = some (some document) →
      document ∈ candidates ∧ HasMajority candidates (documentVersion document) ∧
        ∀ other ∈ candidates, documentVersion other = documentVersion document →
          content P other = content P document) ∧
      ∀ permuted, candidates.Perm permuted →
        SameChoice P (selectByQuorum P candidates total) (selectByQuorum P permuted total) := by
  have hholders : ∀ version, ∀ document ∈ holders candidates version, document ∈ candidates :=
    fun version document hdocument => (mem_holders.mp hdocument).1
  refine ⟨?_, ?_⟩
  · intro document hselected
    by_cases hmajority : ∃ version, HasMajority candidates version
    · obtain ⟨version, hmajority⟩ := hmajority
      rw [selectByQuorum_of_majority hnumeric htotal hmajority, Option.some.injEq] at hselected
      obtain ⟨hmem, hall⟩ := agreed_eq_some hselected
      obtain ⟨hcandidate, rfl⟩ := mem_holders.mp hmem
      refine ⟨hcandidate, hmajority, ?_⟩
      intro other hother hversion
      exact content_eq_of_hash hfree hother hcandidate
        (hall other (mem_holders.mpr ⟨hother, hversion⟩))
    · rw [selectByQuorum_of_no_majority hnumeric htotal (not_exists.mp hmajority)] at hselected
      cases hselected
  · intro permuted hperm
    have hnumeric' : ∀ document ∈ permuted, IsNumeric document :=
      fun document hdocument => hnumeric document (hperm.mem_iff.mpr hdocument)
    by_cases hmajority : ∃ version, HasMajority candidates version
    · obtain ⟨version, hmajority⟩ := hmajority
      rw [selectByQuorum_of_majority hnumeric htotal hmajority,
        selectByQuorum_of_majority hnumeric' htotal (hmajority.perm hperm)]
      obtain ⟨document, hdocument, hversion⟩ := hmajority.exists_vote
      refine agreed_perm (List.ne_nil_of_mem (mem_holders.mpr ⟨hdocument, hversion⟩))
        (hperm.filter _) ?_
      refine hfree.mono ?_
      rintro bytes ⟨winner, hwinner, rfl⟩
      exact ⟨winner, hholders version winner hwinner, rfl⟩
    · have hnone := not_exists.mp hmajority
      rw [selectByQuorum_of_no_majority hnumeric htotal hnone,
        selectByQuorum_of_no_majority hnumeric' htotal
          fun version h => hnone version (h.perm hperm.symm)]
      exact .neither

/-! Three nodes answer; two of them have the rotated document. -/

namespace TwoOfThree

theorem schemaErrors_eq_nil (document : AgentIdentityDocument) :
    report (document.isValid = true) "/" "validation failed" = [] ↔ document.isValid = true :=
  report_eq_nil

def ports : ResolverPorts where
  numberFormat := NumberFormat.decimal
  verify := verifyIn []
  hash bytes := toHex (Crypto.Sha256.sha256 bytes)
  schemaErrors document := report (document.isValid = true) "/" "validation failed"
  schemaErrors_eq_nil := schemaErrors_eq_nil
  numberOfText := fun _ => .nan
  getTime := Calendar.getTime

def first : Json := .obj [("id", .str "did:agent:a"), ("version", .num 1)]

def rotated : Json := .obj [("id", .str "did:agent:a"), ("version", .num 2)]

/-- The same members in another order. -/
def rotated' : Json := .obj [("version", .num 2), ("id", .str "did:agent:a")]

theorem collisionFree : CollisionFree ports [rotated, first, rotated'] := by
  have hcontent : content ports rotated' = content ports rotated := by decide +kernel
  have hhash : ports.hash (utf8 (content ports first)) ≠
      ports.hash (utf8 (content ports rotated)) := by decide +kernel
  rintro _ ⟨a, ha, rfl⟩ _ ⟨b, hb, rfl⟩ h
  simp only [List.mem_cons, List.not_mem_nil, or_false] at ha hb
  rcases ha with rfl | rfl | rfl <;> rcases hb with rfl | rfl | rfl <;>
    simp_all [eq_comm]

theorem rotated_selected :
    selectByQuorum ports [rotated, first, rotated'] 3 = some (some rotated) ∧
      HasMajority [rotated, first, rotated'] (documentVersion rotated) ∧
      SameChoice ports (selectByQuorum ports [rotated, first, rotated'] 3)
        (selectByQuorum ports [first, rotated', rotated] 3) := by
  have hselected : selectByQuorum ports [rotated, first, rotated'] 3 = some (some rotated) := by
    decide +kernel
  have hnumeric : ∀ document ∈ [rotated, first, rotated'], IsNumeric document := by
    simp only [List.forall_mem_cons, List.not_mem_nil, false_imp_iff, implies_true, and_true]
    exact ⟨rfl, rfl, rfl⟩
  obtain ⟨hsound, hstable⟩ :=
    selectByQuorum_sound (Nat.le_refl 3) hnumeric collisionFree
  exact ⟨hselected, (hsound rotated hselected).2.1, hstable _ (by decide)⟩

end TwoOfThree

end Coivitas.Identity.Federation
