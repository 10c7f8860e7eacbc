import Coivitas.Crypto.ChainAcceptance
import Coivitas.Crypto.HashChainPython

/-! # The two hash chains agree

The Python SDK against the TypeScript package: on values that both languages print alike
they append the same entries, and on lists that are not empty and pass the schema of the
one they are accepted by both or by neither.
-/

namespace Coivitas.Crypto.Python

open Foundation

/-! ## Values that print alike -/

/-- Names whose order by code points is their order by UTF-16 code units. -/
def SortAlike (names : List String) : Prop :=
  ∀ a ∈ names, ∀ b ∈ names, (a ≤ b ↔ TextLe a b)

namespace PyValue

mutual

/-- Every integer is a safe one, and the floats and the names of the members are of a kind. -/
def Interoperable (float : ℚ → Prop) (names : List String → Prop) : PyValue → Prop
  | .none => True
  | .bool _ => True
  | .int value => -maxSafeInteger ≤ value ∧ value ≤ maxSafeInteger
  | .float value => float value
  | .str _ => True
  | .list items => InteroperableItems float names items
  | .dict members => names (members.map Prod.fst) ∧ InteroperableMembers float names members

def InteroperableItems (float : ℚ → Prop) (names : List String → Prop) : List PyValue → Prop
  | [] => True
  | item :: items => Interoperable float names item ∧ InteroperableItems float names items

def InteroperableMembers (float : ℚ → Prop) (names : List String → Prop) :
    List (String × PyValue) → Prop
  | [] => True
  | (_, value) :: members =>
      Interoperable float names value ∧ InteroperableMembers float names members

end

variable {float : ℚ → Prop} {names : List String → Prop}

theorem interoperableMembers_iff {members : List (String × PyValue)} :
    InteroperableMembers float names members ↔
      ∀ member ∈ members, Interoperable float names member.2 := by
  induction members with
  | nil => simp [InteroperableMembers]
  | cons member members ih => simp only [InteroperableMembers, ih, List.forall_mem_cons]

theorem toJsonMembers_eq (members : List (String × PyValue)) :
    toJsonMembers members = members.map fun member => (member.1, member.2.toJson) := by
  induction members with
  | nil => rfl
  | cons member members ih => rw [toJsonMembers, ih, List.map_cons]

theorem sortKeysMembers_eq (members : List (String × PyValue)) :
    sortKeysMembers members = members.map fun member => (member.1, member.2.sortKeys) := by
  induction members with
  | nil => rfl
  | cons member members ih => rw [sortKeysMembers, ih, List.map_cons]

theorem map_fst_sortKeysMembers (members : List (String × PyValue)) :
    (sortKeysMembers members).map Prod.fst = members.map Prod.fst := by
  simp [sortKeysMembers_eq]

mutual

/-- Sorting in the one order or the other gives the same object. -/
theorem toJson_sortKeys (value : PyValue) (halike : value.Interoperable float SortAlike) :
    value.sortKeys.toJson = Json.sortKeys value.toJson := by
  match value with
  | .none => rfl
  | .bool _ => rfl
  | .int _ => rfl
  | .float _ => rfl
  | .str _ => rfl
  | .list items =>
      rw [sortKeys, toJson, toJson, Json.sortKeys, toJsonItems_sortKeysItems items halike]
  | .dict members =>
      obtain ⟨hsort, hmembers⟩ := halike
      have hnames : ∀ a ∈ sortKeysMembers members, ∀ b ∈ sortKeysMembers members,
          (memberLe a b ↔ Json.memberLe (a.1, a.2.toJson) (b.1, b.2.toJson)) := by
        intro a ha b hb
        have hname : ∀ c ∈ sortKeysMembers members, c.1 ∈ members.map Prod.fst := by
          intro c hc
          rw [← map_fst_sortKeysMembers]
          exact List.mem_map_of_mem hc
        exact hsort a.1 (hname a ha) b.1 (hname b hb)
      rw [sortKeys, toJson, toJson, Json.sortKeys, toJsonMembers_eq,
        List.map_insertionSort _ _ _ _ hnames, ← toJsonMembers_eq,
        toJsonMembers_sortKeysMembers members hmembers]

theorem toJsonItems_sortKeysItems (items : List PyValue)
    (halike : InteroperableItems float SortAlike items) :
    toJsonItems (sortKeysItems items) = Json.sortKeysItems (toJsonItems items) := by
  match items with
  | [] => rfl
  | item :: items =>
      rw [sortKeysItems, toJsonItems, toJsonItems, Json.sortKeysItems,
        toJson_sortKeys item halike.1, toJsonItems_sortKeysItems items halike.2]

theorem toJsonMembers_sortKeysMembers (members : List (String × PyValue))
    (halike : InteroperableMembers float SortAlike members) :
    toJsonMembers (sortKeysMembers members) = Json.sortKeysMembers (toJsonMembers members) := by
  match members with
  | [] => rfl
  | (name, value) :: members =>
      rw [sortKeysMembers, toJsonMembers, toJsonMembers, Json.sortKeysMembers,
        toJson_sortKeys value halike.1, toJsonMembers_sortKeysMembers members halike.2]

end

mutual

/-- Sorting the members of a value leaves its numbers as they are. -/
theorem interoperable_sortKeys (value : PyValue) (halike : value.Interoperable float names) :
    value.sortKeys.Interoperable float fun _ => True := by
  match value with
  | .none => trivial
  | .bool _ => trivial
  | .int _ => exact halike
  | .float _ => exact halike
  | .str _ => trivial
  | .list items => exact interoperableItems_sortKeysItems items halike
  | .dict members =>
      refine ⟨trivial, interoperableMembers_iff.mpr fun member hmember => ?_⟩
      rw [List.mem_insertionSort] at hmember
      exact interoperableMembers_iff.mp
        (interoperableMembers_sortKeysMembers members halike.2) member hmember

theorem interoperableItems_sortKeysItems (items : List PyValue)
    (halike : InteroperableItems float names items) :
    InteroperableItems float (fun _ => True) (sortKeysItems items) := by
  match items with
  | [] => trivial
  | item :: items =>
      exact ⟨interoperable_sortKeys item halike.1,
        interoperableItems_sortKeysItems items halike.2⟩

theorem interoperableMembers_sortKeysMembers (members : List (String × PyValue))
    (halike : InteroperableMembers float names members) :
    InteroperableMembers float (fun _ => True) (sortKeysMembers members) := by
  match members with
  | [] => trivial
  | (name, value) :: members =>
      exact ⟨interoperable_sortKeys value halike.1,
        interoperableMembers_sortKeysMembers members halike.2⟩

end

section Printing

variable {F : NumberFormat} {floatRepr : ℚ → List Char}

/-- A safe integer is printed in decimal digits. -/
def PrintsIntegers (F : NumberFormat) : Prop :=
  ∀ value : Int, -maxSafeInteger ≤ value → value ≤ maxSafeInteger →
    F.format value = NumberFormat.integerText value

mutual

theorem print_eq (hintegers : PrintsIntegers F) (value : PyValue)
    (halike : value.Interoperable (fun q => floatRepr q = F.format q) names) :
    value.print floatRepr = Json.print F value.toJson := by
  match value with
  | .none => rfl
  | .bool true => rfl
  | .bool false => rfl
  | .int value =>
      rw [print, toJson, Json.print]
      exact (hintegers value halike.1 halike.2).symm
  | .float value => exact halike
  | .str _ => rfl
  | .list [] => rfl
  | .list (item :: items) =>
      rw [print, toJson, toJsonItems, Json.print, print_eq hintegers item halike.1,
        printItems_eq hintegers items halike.2]
  | .dict [] => rfl
  | .dict ((name, value) :: members) =>
      rw [print, toJson, toJsonMembers, Json.print, print_eq hintegers value halike.2.1,
        printMembers_eq hintegers members halike.2.2]

theorem printItems_eq (hintegers : PrintsIntegers F) (items : List PyValue)
    (halike : InteroperableItems (fun q => floatRepr q = F.format q) names items) :
    printItems floatRepr items = Json.printItems F (toJsonItems items) := by
  match items with
  | [] => rfl
  | item :: items =>
      rw [printItems, toJsonItems, Json.printItems, print_eq hintegers item halike.1,
        printItems_eq hintegers items halike.2]

theorem printMembers_eq (hintegers : PrintsIntegers F) (members : List (String × PyValue))
    (halike : InteroperableMembers (fun q => floatRepr q = F.format q) names members) :
    printMembers floatRepr members = Json.printMembers F (toJsonMembers members) := by
  match members with
  | [] => rfl
  | (name, value) :: members =>
      rw [printMembers, toJsonMembers, Json.printMembers, print_eq hintegers value halike.1,
        printMembers_eq hintegers members halike.2]

end

/-- The standard library prints such a value as the canonical form does. -/
theorem dumps_eq (hintegers : PrintsIntegers F) {value : PyValue}
    (halike : value.Interoperable (fun q => floatRepr q = F.format q) SortAlike) :
    value.dumps floatRepr = Json.canonicalize F value.toJson := by
  rw [dumps, print_eq hintegers _ (interoperable_sortKeys value halike),
    toJson_sortKeys value halike]
  rfl

end Printing

end PyValue

/-! ## Two runtimes -/

/-- What the two languages and their packages document: one SHA-256, integers in decimal
digits, and a `jcs` package that prints the canonical form of RFC 8785. -/
structure SameRuntime (P : HccPorts) (Q : PythonPorts) : Prop where
  sha256 : Q.sha256 = P.sha256
  digest : ∀ bytes, (P.sha256 bytes).length = 32
  integers : PyValue.PrintsIntegers P.numberFormat
  jcs : ∀ canonicalize ∈ Q.jcs, ∀ value : PyValue,
    value.Interoperable (fun _ => True) (fun _ => True) →
      canonicalize value = Json.canonicalize P.numberFormat value.toJson

/-- Integers are safe ones. The standard library moreover wants floats that print alike and
names that sort alike. -/
def Portable (P : HccPorts) (Q : PythonPorts) (value : PyValue) : Prop :=
  match Q.jcs with
  | some _ => value.Interoperable (fun _ => True) fun _ => True
  | none => value.Interoperable (fun q => Q.floatRepr q = P.numberFormat.format q) SortAlike

/-- A text that both languages read as the same value, one that they print alike, or that
neither of them reads. -/
def SharedText (P : HccPorts) (Q : PythonPorts) (text : String) : Prop :=
  (Q.loads text = none ∧ P.parse text = none) ∨
    ∃ value, Q.loads text = some value ∧ P.parse text = some value.toJson ∧ Portable P Q value

section Runtimes

variable {P : HccPorts} {Q : PythonPorts}

theorem jcsCanonicalize_eq (hruntime : SameRuntime P Q) {value : PyValue}
    (hportable : Portable P Q value) :
    jcsCanonicalize Q value = Json.canonicalize P.numberFormat value.toJson := by
  unfold Portable at hportable
  unfold jcsCanonicalize
  split
  next canonicalize hjcs =>
    rw [hjcs] at hportable
    exact hruntime.jcs canonicalize hjcs value hportable
  next hjcs =>
    rw [hjcs] at hportable
    exact PyValue.dumps_eq hruntime.integers hportable

theorem toJson_identityDict (identity : ChainIdentity) :
    (identityDict identity).toJson = chainIdentityObject identity := by
  obtain ⟨chainNamespace, tenantId, auditClass⟩ := identity
  cases tenantId <;> cases auditClass <;> rfl

theorem portable_identityDict (identity : ChainIdentity) :
    Portable P Q (identityDict identity) := by
  have hsort : SortAlike ["chainNamespace", "tenantId", "auditClass"] := by
    unfold SortAlike
    decide
  have hinteroperable : ∀ (float : ℚ → Prop) (names : List String → Prop),
      (∀ l ⊆ ["chainNamespace", "tenantId", "auditClass"], names l) →
        (identityDict identity).Interoperable float names := by
    intro float names hnames
    obtain ⟨chainNamespace, tenantId, auditClass⟩ := identity
    cases tenantId <;> cases auditClass <;>
      simp [identityDict, PyValue.Interoperable, PyValue.InteroperableMembers, hnames]
  unfold Portable
  split
  next => exact hinteroperable _ _ fun _ _ => trivial
  next =>
    exact hinteroperable _ _ fun l hl a ha b hb => hsort a (hl ha) b (hl hb)

theorem canonicalizeChainIdentity_eq_jcs (hruntime : SameRuntime P Q) (identity : ChainIdentity) :
    canonicalizeChainIdentity Q identity = identity.jcs P := by
  rw [canonicalizeChainIdentity, jcsCanonicalize_eq hruntime (portable_identityDict identity),
    toJson_identityDict, ChainIdentity.jcs]

/-! ## Appending -/

theorem hex_of_continues {identity : ChainIdentity} {room : Nat}
    {lastEntry : Option HashChainEntry} (hlast : Continues identity room lastEntry) :
    isSha256Hex ((lastEntry.map HashChainEntry.canonicalPayloadHash).getD hccSentinelHash) =
      true := by
  cases lastEntry with
  | none => exact (by decide : isSha256Hex hccSentinelHash = true)
  | some last =>
      obtain ⟨-, ⟨bytes, hlength, hhash⟩, -⟩ := hlast last rfl
      rw [Option.map_some, Option.getD_some, hhash]
      exact isSha256Hex_toHex hlength

theorem newHashChainEntry_eq_ok {entry entry' : HashChainEntry} :
    newHashChainEntry Q entry = .ok entry' ↔
      isSha256Hex entry.canonicalPayloadHash = true ∧ isSha256Hex entry.previousHash = true ∧
        0 ≤ entry.chainPosition ∧ isTimestamp Q entry.timestamp = true ∧
        entry.hccVersion = hccVersion ∧ entry = entry' := by
  have hfields : invalidFields Q entry = [] ↔
      isSha256Hex entry.canonicalPayloadHash = true ∧ isSha256Hex entry.previousHash = true ∧
        0 ≤ entry.chainPosition ∧ isTimestamp Q entry.timestamp = true ∧
        entry.hccVersion = hccVersion := by
    simp [invalidFields]
  simp only [newHashChainEntry, bind_eq_ok, exists_unit, require_eq_ok, pure_eq_ok, hfields,
    and_assoc]

/-- Both functions append the same entry, but for the identifier and the timestamp. -/
theorem appendHashChainEntry_agrees (hruntime : SameRuntime P Q)
    {payload : List (String × PyValue)} {identity : ChainIdentity}
    {lastEntry : Option HashChainEntry} {randomUUID entryId timestamp timestamp' : String}
    (hportable : Portable P Q (.dict payload)) (hvalid : identity.Valid P)
    (hlast : Continues identity 1 lastEntry)
    (hserved : AppendCall.Served P ⟨PyValue.toJsonMembers payload, randomUUID, timestamp⟩)
    (htimestamp : isTimestamp Q timestamp' = true) :
    ∃ entry, Crypto.appendHashChainEntry P ⟨PyValue.toJsonMembers payload, randomUUID, timestamp⟩
        identity lastEntry = .ok entry ∧
      appendHashChainEntry Q payload identity lastEntry entryId timestamp' =
        .ok { entry with entryId := entryId, timestamp := timestamp' } := by
  refine ⟨_, appendHashChainEntry_eq_ok hruntime.digest hvalid hserved hlast, ?_⟩
  have hpayload : jcsCanonicalize Q (.dict payload) =
      canonicalizeHashChainEntryToString P (PyValue.toJsonMembers payload) :=
    jcsCanonicalize_eq hruntime hportable
  set call : AppendCall := ⟨PyValue.toJsonMembers payload, randomUUID, timestamp⟩
  have hposition : 0 ≤ (builtEntry P identity lastEntry call).chainPosition :=
    (nextPosition_eq_ok hlast).2.1
  have hhash : isSha256Hex (builtEntry P identity lastEntry call).canonicalPayloadHash = true :=
    isSha256Hex_toHex (hruntime.digest _)
  have hprevious : isSha256Hex (builtEntry P identity lastEntry call).previousHash = true :=
    hex_of_continues hlast
  have hcontinuity : ∀ prev ∈ lastEntry, identity = prev.chainIdentity := fun prev hprev =>
    (hlast prev hprev).1.symm
  simp only [appendHashChainEntry, bind_eq_ok, exists_unit, require_eq_ok, newHashChainEntry_eq_ok,
    hpayload, canonicalizeChainIdentity_eq_jcs hruntime, computeCanonicalPayloadHashHex,
    hruntime.sha256]
  exact ⟨hcontinuity, hhash, hprevious, hposition, htimestamp, trivial, rfl⟩

/-! ## Verifying -/

theorem canonicalText_iff (hruntime : SameRuntime P Q) {entry : HashChainEntry} {i : Nat}
    (hshared : SharedText P Q entry.canonicalPayload) :
    assertCanonicalPayloadIsCanonical Q entry i = .ok () ↔
      CanonicalText P entry.canonicalPayload := by
  unfold assertCanonicalPayloadIsCanonical CanonicalText
  rcases hshared with ⟨hloads, hparse⟩ | ⟨value, hloads, hparse, hportable⟩
  · simp [hloads, hparse]
  · simp [hloads, hparse, jcsCanonicalize_eq hruntime hportable]

/-- One entry, whatever its neighbours. -/
theorem verifyEntry_eq_ok (hruntime : SameRuntime P Q) {entry : HashChainEntry} {i : Nat}
    (hshared : SharedText P Q entry.canonicalPayload) :
    verifyEntry Q (entry, i) = .ok () ↔ entry.hccVersion = hccVersion ∧
      CanonicalText P entry.canonicalPayload ∧
      entry.canonicalPayloadHash = toHex (P.sha256 (entryPreimage P entry)) := by
  have hhash : recomputeCanonicalPayloadHash Q entry =
      toHex (P.sha256 (entryPreimage P entry)) := by
    rw [recomputeCanonicalPayloadHash, computeCanonicalPayloadHashHex,
      canonicalizeChainIdentity_eq_jcs hruntime, hruntime.sha256]
    rfl
  simp only [verifyEntry, assertCanonicalPayloadHashConsistent, bind_eq_ok, exists_unit,
    require_eq_ok, canonicalText_iff hruntime hshared, hhash]

theorem forall_mem_zipIdx {α : Type} {l : List α} {k : Nat} {p : α → Prop} {q : α × Nat → Prop}
    (hq : ∀ a i, q (a, i) ↔ p a) : (∀ item ∈ l.zipIdx k, q item) ↔ ∀ a ∈ l, p a := by
  constructor
  · intro h a ha
    rw [← List.zipIdx_map_fst k l] at ha
    obtain ⟨⟨a, i⟩, hmem, rfl⟩ := List.mem_map.mp ha
    exact (hq a i).mp (h _ hmem)
  · rintro h ⟨a, i⟩ hmem
    exact (hq a i).mpr (h a (List.fst_mem_of_mem_zipIdx hmem))

/-- The links from the last one to the first, as the positions and the hashes of the list. -/
theorem verifyLinks_iff {genesis : HashChainEntry} {rest : List HashChainEntry} :
    forEach (((genesis :: rest).zip rest).zipIdx 1).reverse verifyLink = .ok () ↔
      Consecutive (genesis.chainPosition + 1) rest ∧
        Chained genesis.canonicalPayloadHash rest := by
  have hpairs : forEach (((genesis :: rest).zip rest).zipIdx 1).reverse verifyLink = .ok () ↔
      ∀ pair ∈ (genesis :: rest).zip rest, pair.2.chainPosition = pair.1.chainPosition + 1 ∧
        pair.2.previousHash = pair.1.canonicalPayloadHash := by
    simp only [forEach_eq_ok, List.mem_reverse]
    refine forall_mem_zipIdx fun pair i => ?_
    simp only [verifyLink, bind_eq_ok, exists_unit, require_eq_ok]
  rw [hpairs]
  clear hpairs
  induction rest generalizing genesis with
  | nil => simp [Consecutive, Chained, BackLinked]
  | cons entry rest ih =>
      have hrest := @ih entry
      rw [List.zip_cons_cons, List.forall_mem_cons, Consecutive, Chained, BackLinked,
        Option.some.injEq]
      constructor
      · rintro ⟨⟨hposition, hprevious⟩, hpairs⟩
        obtain ⟨hpositions, hlinks⟩ := hrest.mp hpairs
        rw [hposition] at hpositions
        exact ⟨⟨hposition, hpositions⟩, hprevious, hlinks⟩
      · rintro ⟨⟨hposition, hpositions⟩, hprevious, hlinks⟩
        rw [← hposition] at hpositions
        exact ⟨⟨hposition, hprevious⟩, hrest.mpr ⟨hpositions, hlinks⟩⟩

theorem sameIdentities_eq_ok (hruntime : SameRuntime P Q) (genesis : HashChainEntry)
    (rest : List HashChainEntry) : forEach (rest.zipIdx 1) (fun (entry, i) =>
      require (canonicalizeChainIdentity Q entry.chainIdentity =
        canonicalizeChainIdentity Q genesis.chainIdentity)
          (PythonError.hcc .chainIdentityTampered (some i))) = .ok () ↔
      ∀ entry ∈ rest, entry.chainIdentity = genesis.chainIdentity := by
  rw [forEach_eq_ok]
  refine forall_mem_zipIdx fun entry i => ?_
  rw [require_eq_ok, canonicalizeChainIdentity_eq_jcs hruntime,
    canonicalizeChainIdentity_eq_jcs hruntime]
  exact ⟨jcs_injective, fun h => h ▸ rfl⟩

/-- What the Python SDK asks of a list with a first entry. -/
theorem verifyHashChain_eq_ok (hruntime : SameRuntime P Q) {genesis : HashChainEntry}
    {rest : List HashChainEntry} {trustedCheckpoint : Option String}
    {expectedChainIdentity : Option ChainIdentity}
    (hshared : ∀ entry ∈ genesis :: rest, SharedText P Q entry.canonicalPayload) :
    verifyHashChain Q (genesis :: rest) trustedCheckpoint expectedChainIdentity = .ok () ↔
      (∀ checkpoint ∈ trustedCheckpoint, ∀ last ∈ (genesis :: rest).getLast?,
        last.canonicalPayloadHash = checkpoint) ∧
      (∀ expected ∈ expectedChainIdentity, expected = genesis.chainIdentity) ∧
      (∀ entry ∈ rest, entry.chainIdentity = genesis.chainIdentity) ∧
      Consecutive 0 (genesis :: rest) ∧ Chained genesisPreviousHash (genesis :: rest) ∧
      ∀ entry ∈ genesis :: rest, entry.hccVersion = hccVersion ∧
        CanonicalText P entry.canonicalPayload ∧
        entry.canonicalPayloadHash = toHex (P.sha256 (entryPreimage P entry)) := by
  have hidentities := sameIdentities_eq_ok hruntime genesis rest
  have hexpected : ∀ expected : ChainIdentity, canonicalizeChainIdentity Q genesis.chainIdentity =
      canonicalizeChainIdentity Q expected ↔ expected = genesis.chainIdentity := by
    intro expected
    rw [canonicalizeChainIdentity_eq_jcs hruntime, canonicalizeChainIdentity_eq_jcs hruntime]
    exact ⟨fun h => (jcs_injective h).symm, fun h => h ▸ rfl⟩
  have hlast := List.getLast?_eq_some_getLast (List.cons_ne_nil genesis rest)
  have hentries : forEach (genesis :: rest).zipIdx (verifyEntry Q) = .ok () ↔
      ∀ entry ∈ genesis :: rest, entry.hccVersion = hccVersion ∧
        CanonicalText P entry.canonicalPayload ∧
        entry.canonicalPayloadHash = toHex (P.sha256 (entryPreimage P entry)) := by
    rw [forEach_eq_ok]
    constructor
    · intro h entry hentry
      obtain ⟨i, hi⟩ := List.mem_iff_getElem?.mp hentry
      exact (verifyEntry_eq_ok hruntime (hshared entry hentry)).mp
        (h (entry, i) (List.mk_mem_zipIdx_iff_getElem?.mpr hi))
    · rintro h ⟨entry, i⟩ hmem
      have hentry := List.fst_mem_of_mem_zipIdx hmem
      exact (verifyEntry_eq_ok hruntime (hshared entry hentry)).mpr (h entry hentry)
  simp only [verifyHashChain, bind_eq_ok, exists_unit, require_eq_ok, hidentities, hexpected,
    hentries, verifyLinks_iff, hlast, Option.mem_some, forall_eq']
  constructor
  · rintro ⟨hcheckpoint, hexpected, hidentities, hzero, hroot, ⟨hpositions, hlinks⟩, hentries⟩
    rw [hzero] at hpositions
    exact ⟨hcheckpoint, hexpected, hidentities, ⟨hzero, hpositions⟩,
      ⟨congrArg some hroot, hlinks⟩, hentries⟩
  · rintro ⟨hcheckpoint, hexpected, hidentities, ⟨hzero, hpositions⟩, ⟨hroot, hlinks⟩, hentries⟩
    rw [← hzero] at hpositions
    exact ⟨hcheckpoint, hexpected, hidentities, hzero, Option.some.inj hroot,
      ⟨hpositions, hlinks⟩, hentries⟩

/-- A hash is recomputed where the identity passes the guards of the writer. -/
theorem recomputeCanonicalPayloadHash_eq_ok (hruntime : SameRuntime P Q) {entry : HashChainEntry}
    (hschema : validateChainIdentitySchema P entry.chainIdentity = true) {hash : String} :
    Crypto.recomputeCanonicalPayloadHash P entry = .ok hash ↔
      entry.chainIdentity.Valid P ∧ hash = toHex (P.sha256 (entryPreimage P entry)) := by
  constructor
  · intro hhash
    have hjcs := canonicalizeChainIdentity_of_hash hhash
    simp only [Crypto.canonicalizeChainIdentity, bind_eq_ok, exists_unit, require_eq_ok] at hjcs
    exact ⟨⟨hschema, hjcs.2.1, hjcs.2.2.1⟩, recomputeCanonicalPayloadHash_eq P hhash⟩
  · rintro ⟨hvalid, rfl⟩
    simp only [Crypto.recomputeCanonicalPayloadHash, Crypto.computeCanonicalPayloadHashHex,
      bind_eq_ok, exists_unit, require_eq_ok, pure_eq_ok]
    exact ⟨_, canonicalizeChainIdentity_valid hvalid, hruntime.digest _, rfl⟩

/-- The options of the TypeScript verifier for a hash that the last entry has to have. -/
def lastHashOptions (expected : Option ChainIdentity) (lastHash : Option String) :
    VerifyHashChainOptions :=
  ⟨expected, lastHash.map fun hash => ⟨none, none, none, some hash⟩⟩

/-- The TypeScript verifier accepts what the Python SDK accepts, if the schema admits each
entry and the writer each identity. -/
theorem verifyHashChain_agrees (hruntime : SameRuntime P Q) {entries : List HashChainEntry}
    (hne : entries ≠ []) (hshared : ∀ entry ∈ entries, SharedText P Q entry.canonicalPayload)
    (expected : Option ChainIdentity) (lastHash : Option String) :
    Crypto.verifyHashChain P entries (lastHashOptions expected lastHash) = .ok () ↔
      verifyHashChain Q entries lastHash expected = .ok () ∧
        ∀ entry ∈ entries, validateHashChainEntrySchema P entry = true ∧
          entry.chainIdentity.Valid P := by
  cases entries with
  | nil => exact absurd rfl hne
  | cons genesis rest =>
      have hcount : verifyCount (lastHashOptions expected lastHash).checkpoint
          (genesis :: rest).length = .ok () := by
        cases lastHash with
        | none => rfl
        | some hash => exact verifyCount_eq_ok.mpr ⟨by simp, by simp⟩
      have htail : ∀ last, verifyTail (lastHashOptions expected lastHash).checkpoint last = .ok () ↔
          ∀ checkpoint ∈ lastHash, last.canonicalPayloadHash = checkpoint := by
        intro last
        cases lastHash with
        | none => simp [lastHashOptions, verifyTail]
        | some hash => simp [lastHashOptions, verifyTail_eq_ok]
      rw [verifyHashChain_eq_ok hruntime hshared, Crypto.verifyHashChain_eq_ok]
      constructor
      · rintro ⟨-, ⟨identity, hidentity, hverified⟩, hpositions, hlinks, hlast⟩
        have hentry : ∀ entry ∈ genesis :: rest, entry.chainIdentity.Valid P ∧
            entry.canonicalPayloadHash = toHex (P.sha256 (entryPreimage P entry)) := by
          intro entry hmem
          have hentry := hverified entry hmem
          refine (recomputeCanonicalPayloadHash_eq_ok hruntime ?_).mp hentry.hash
          have hschema := hentry.schema
          simp only [validateHashChainEntrySchema, Bool.and_eq_true] at hschema
          exact hschema.1.1.2
        have hgenesis := (hverified genesis List.mem_cons_self).identity_eq
        refine ⟨⟨?_, ?_, ?_, hpositions, hlinks, fun entry hmem => ?_⟩, fun entry hmem => ?_⟩
        · exact fun checkpoint hcheckpoint last hmem =>
            (htail last).mp (hlast last hmem) _ hcheckpoint
        · exact fun expected hexpected =>
            (hidentity (List.cons_ne_nil _ _) expected hexpected).trans hgenesis.symm
        · exact fun entry hmem =>
            (hverified entry (List.mem_cons_of_mem _ hmem)).identity_eq.trans hgenesis.symm
        · exact ⟨hccVersion_of_schema (hverified entry hmem).schema,
            (hverified entry hmem).canonical, (hentry entry hmem).2⟩
        · exact ⟨(hverified entry hmem).schema, (hentry entry hmem).1⟩
      · rintro ⟨⟨hcheckpoint, hexpected, hidentities, hpositions, hlinks, hentries⟩, hschemas⟩
        refine ⟨hcount, ⟨genesis.chainIdentity, fun _ => hexpected, fun entry hmem => ?_⟩,
          hpositions, hlinks, fun last hmem => ?_⟩
        · obtain ⟨hschema, hvalid⟩ := hschemas entry hmem
          obtain ⟨-, hcanonical, hhash⟩ := hentries entry hmem
          refine ⟨hschema, hcanonical,
            (recomputeCanonicalPayloadHash_eq_ok hruntime hvalid.schema).mpr ⟨hvalid, hhash⟩, ?_⟩
          rcases List.mem_cons.mp hmem with rfl | hrest
          · rfl
          · exact hidentities entry hrest
        · exact (htail last).mpr fun checkpoint hmem' => hcheckpoint checkpoint hmem' last hmem

/-! ## Both halves -/

end Runtimes

/-! ## A payment, and names beyond the basic plane -/

namespace Payment

def ports : HccPorts where
  numberFormat := NumberFormat.decimal
  parse := Relink.ports.parse
  sha256 := Relink.ports.sha256
  uuidFormat := isUuidV4
  dateTimeFormat := Relink.ports.dateTimeFormat

def amounts (amount : String) : List (String × PyValue) := [("amount", .str amount)]

/-- A Python without the `jcs` package. -/
def pythonPorts : PythonPorts where
  loads text := ["10", "99", "20"].findSome? fun amount =>
    if text = Relink.payload amount then some (.dict (amounts amount)) else none
  floatRepr := NumberFormat.decimal.format
  jcs := none
  sha256 := Relink.ports.sha256
  isDecimal := Char.isDigit

def uuid : String := "00000000-0000-4000-8000-000000000000"

def time : String := "2026-01-01T00:00:00.000Z"

theorem sameRuntime : SameRuntime ports pythonPorts where
  sha256 := rfl
  digest bytes := by
    simp only [ports, Relink.ports]
    split
    next => rfl
    next => split <;> rfl
  integers value _ _ := by
    show NumberFormat.integerText (value : ℚ).num ++
      NumberFormat.fractionText (value : ℚ).den = NumberFormat.integerText value
    simp [NumberFormat.fractionText]
  jcs _ hcanonicalize := by cases hcanonicalize

theorem portable_amounts (amount : String) :
    Portable ports pythonPorts (.dict (amounts amount)) := by
  have hsort : SortAlike ["amount"] := by
    unfold SortAlike
    decide
  exact ⟨hsort, trivial, trivial⟩

theorem policyIdentity_valid : Relink.policyIdentity.Valid ports where
  schema := by decide +kernel
  notSentinel := by decide +kernel
  tenant := by decide +kernel

theorem served : AppendCall.Served ports ⟨PyValue.toJsonMembers (amounts "10"), uuid, time⟩ where
  uuid := by decide +kernel
  uuidFormat := by decide +kernel
  dateTime := by decide +kernel
  reparsed := ⟨.obj [("amount", .str "10")], by decide +kernel⟩

def paid : HashChainEntry :=
  builtEntry ports Relink.policyIdentity none ⟨PyValue.toJsonMembers (amounts "10"), uuid, time⟩

theorem sharedText_paid : SharedText ports pythonPorts paid.canonicalPayload := by
  refine .inr ⟨.dict (amounts "10"), ?_, ?_, portable_amounts "10"⟩
  · rw [show paid.canonicalPayload = Relink.payload "10" by decide +kernel]
    rfl
  · decide +kernel

/-- One name is a private character of the basic plane, the other one a character beyond it,
whose code units are smaller. -/
def beyond : List (String × PyValue) :=
  [(String.singleton (Char.ofNat 0xE000), .str "a"),
    (String.singleton (Char.ofNat 0x1F600), .str "b")]

def texts (entry : HashChainEntry) : String × String :=
  (entry.canonicalPayload, entry.canonicalPayloadHash)

end Payment

end Coivitas.Crypto.Python
