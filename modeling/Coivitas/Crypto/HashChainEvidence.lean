import Coivitas.Crypto.HashChain

/-! # What an accepted hash chain is evidence of

The hash of an entry covers its payload and its chain identity. It does not
cover `previousHash`, so an accepted chain binds each payload to the hash
stored beside it, and a checkpoint on the last hash binds the last payload.
-/

namespace Coivitas.Crypto

open Foundation

variable (P : HccPorts)

/-- The bytes hashed for an entry. -/
def entryPreimage (entry : HashChainEntry) : List UInt8 :=
  concatPreimage entry.canonicalPayload
    (Json.canonicalize P.numberFormat (chainIdentityObject entry.chainIdentity))

/-- Two of the entries have different preimages with the same digest. -/
def ExhibitsCollision (entries : List HashChainEntry) : Prop :=
  ∃ e ∈ entries, ∃ e' ∈ entries,
    entryPreimage P e ≠ entryPreimage P e' ∧
      P.sha256 (entryPreimage P e) = P.sha256 (entryPreimage P e')

/-! ## Inversion of an accepting run -/

theorem canonicalizeChainIdentity_eq {identity : ChainIdentity} {jcs : String}
    (h : canonicalizeChainIdentity P identity = .ok jcs) :
    jcs = Json.canonicalize P.numberFormat (chainIdentityObject identity) := by
  simp only [canonicalizeChainIdentity, bind_eq_ok, exists_unit, require_eq_ok, pure_eq_ok] at h
  obtain ⟨-, -, -, -, rfl⟩ := h
  rfl

theorem recomputeCanonicalPayloadHash_eq {entry : HashChainEntry} {hash : String}
    (h : recomputeCanonicalPayloadHash P entry = .ok hash) :
    hash = toHex (P.sha256 (entryPreimage P entry)) := by
  simp only [recomputeCanonicalPayloadHash, computeCanonicalPayloadHashHex, bind_eq_ok, exists_unit,
    require_eq_ok, pure_eq_ok] at h
  obtain ⟨jcs, hjcs, -, rfl⟩ := h
  rw [canonicalizeChainIdentity_eq P hjcs]
  rfl

theorem assertCanonicalPayloadHashConsistent_eq {entry : HashChainEntry} {i : Nat}
    (h : assertCanonicalPayloadHashConsistent P entry i = .ok ()) :
    entry.canonicalPayloadHash = toHex (P.sha256 (entryPreimage P entry)) := by
  simp only [assertCanonicalPayloadHashConsistent, bind_eq_ok, exists_unit, require_eq_ok] at h
  obtain ⟨-, hash, hhash, heq⟩ := h
  rw [heq, recomputeCanonicalPayloadHash_eq P hhash]

/-- What the second traversal establishes of one entry. -/
structure PreimageVerified (expectedJcs : Option String) (entry : HashChainEntry) : Prop where
  hash_eq : entry.canonicalPayloadHash = toHex (P.sha256 (entryPreimage P entry))
  expected : ∀ expected ∈ expectedJcs,
    Json.canonicalize P.numberFormat (chainIdentityObject entry.chainIdentity) = expected

theorem verifyPreimages_verified (expectedJcs firstJcs : Option String) (i : Nat)
    (entries : List HashChainEntry)
    (h : verifyPreimages P expectedJcs firstJcs i entries = .ok ()) :
    ∀ entry ∈ entries, PreimageVerified P expectedJcs entry := by
  induction entries generalizing firstJcs i with
  | nil => simp
  | cons head rest ih =>
      simp only [verifyPreimages, bind_eq_ok, exists_unit, require_eq_ok] at h
      obtain ⟨hhash, jcs, hjcs, -, hexpected, hrest⟩ := h
      intro entry hentry
      rcases List.mem_cons.mp hentry with rfl | hentry
      · rw [canonicalizeChainIdentity_eq P hjcs] at hexpected
        exact ⟨assertCanonicalPayloadHashConsistent_eq P hhash, hexpected⟩
      · exact ih _ _ hrest entry hentry

theorem verifyLinks_positions (previous : HashChainEntry) (i : Nat)
    (entries : List HashChainEntry) (h : verifyLinks P previous i entries = .ok ()) (k : Nat)
    (entry : HashChainEntry) (hentry : entries[k]? = some entry) :
    entry.chainPosition = previous.chainPosition + 1 + k := by
  induction entries generalizing previous i k with
  | nil => simp at hentry
  | cons head rest ih =>
      simp only [verifyLinks, bind_eq_ok, exists_unit, require_eq_ok] at h
      obtain ⟨-, hposition, -, -, hrest⟩ := h
      cases k with
      | zero =>
          simp only [List.getElem?_cons_zero, Option.some.injEq] at hentry
          subst hentry
          simp [hposition]
      | succ k =>
          have hstep := ih head (i + 1) hrest k (by simpa using hentry)
          rw [hstep, hposition]
          push_cast
          omega

/-- What an accepting run establishes of a non-empty list. -/
structure ChainVerified (options : VerifyHashChainOptions) (entries : List HashChainEntry) :
    Prop where
  positions : ∀ (k : Nat) (entry : HashChainEntry), entries[k]? = some entry → entry.chainPosition = k
  hashes : ∀ entry ∈ entries,
    entry.canonicalPayloadHash = toHex (P.sha256 (entryPreimage P entry))
  identity : ∀ identity ∈ options.expectedChainIdentity, ∀ entry ∈ entries,
    Json.canonicalize P.numberFormat (chainIdentityObject entry.chainIdentity) =
      Json.canonicalize P.numberFormat (chainIdentityObject identity)
  count : ∀ checkpoint ∈ options.checkpoint, ∀ expected ∈ checkpoint.expectedEntryCount,
    entries.length = expected
  lastHash : ∀ checkpoint ∈ options.checkpoint,
    ∀ expected ∈ checkpoint.expectedLastCanonicalPayloadHash,
      ∀ last ∈ entries.getLast?, last.canonicalPayloadHash = expected

theorem verifyCount_ok {checkpoint : Option Checkpoint} {count : Nat}
    (h : verifyCount checkpoint count = .ok ()) :
    ∀ checkpoint' ∈ checkpoint, ∀ expected ∈ checkpoint'.expectedEntryCount,
      count = expected := by
  cases checkpoint with
  | none => simp
  | some checkpoint =>
      simp only [verifyCount, bind_eq_ok, exists_unit, require_eq_ok] at h
      obtain ⟨-, hcount⟩ := h
      simpa using hcount

theorem verifyTail_ok {checkpoint : Option Checkpoint} {last : HashChainEntry}
    (h : verifyTail checkpoint last = .ok ()) :
    ∀ checkpoint' ∈ checkpoint, ∀ expected ∈ checkpoint'.expectedLastCanonicalPayloadHash,
      last.canonicalPayloadHash = expected := by
  cases checkpoint with
  | none => simp
  | some checkpoint =>
      simp only [verifyTail, bind_eq_ok, exists_unit, require_eq_ok] at h
      obtain ⟨-, hhash⟩ := h
      simpa using hhash

theorem verifyHashChain_verified {entries : List HashChainEntry}
    {options : VerifyHashChainOptions} (hne : entries ≠ [])
    (h : verifyHashChain P entries options = .ok ()) : ChainVerified P options entries := by
  cases entries with
  | nil => exact absurd rfl hne
  | cons genesis rest =>
      simp only [verifyHashChain, verifyGenesis, bind_eq_ok, exists_unit, require_eq_ok] at h
      obtain ⟨hcount, ⟨-, hzero, -⟩, hlinks, expectedJcs, hexpected, hpreimages, htail⟩ := h
      have hverified := verifyPreimages_verified P _ _ _ _ hpreimages
      refine ⟨?_, fun entry hentry => (hverified entry hentry).hash_eq, ?_,
        verifyCount_ok hcount, ?_⟩
      · intro k entry hentry
        cases k with
        | zero =>
            simp only [List.getElem?_cons_zero, Option.some.injEq] at hentry
            rw [← hentry, hzero]
            rfl
        | succ k =>
            rw [verifyLinks_positions P genesis 1 rest hlinks k entry (by simpa using hentry),
              hzero]
            push_cast
            omega
      · intro identity hidentity entry hentry
        rw [Option.mem_def] at hidentity
        simp only [expectedChainIdentityJcs, hidentity, bind_eq_ok, pure_eq_ok] at hexpected
        obtain ⟨jcs, hjcs, rfl⟩ := hexpected
        rw [← canonicalizeChainIdentity_eq P hjcs]
        exact (hverified entry hentry).expected jcs rfl
      · intro checkpoint hcheckpoint expected hexpectedHash last hlast
        rw [List.getLast?_eq_some_getLast (List.cons_ne_nil genesis rest)] at hlast
        rw [← Option.some.inj hlast]
        exact verifyTail_ok htail checkpoint hcheckpoint expected hexpectedHash

/-! ## Two chains under one checkpoint -/

/-- Entries with the same chain identity and the same stored hash have the
same payload, or their preimages collide. The identity text is a common
suffix of the two preimages, so it cancels. -/
theorem payload_eq_or_collision {e e' : HashChainEntry} {entries : List HashChainEntry}
    (he : e ∈ entries) (he' : e' ∈ entries)
    (hhash : e.canonicalPayloadHash = toHex (P.sha256 (entryPreimage P e)))
    (hhash' : e'.canonicalPayloadHash = toHex (P.sha256 (entryPreimage P e')))
    (hidentity : Json.canonicalize P.numberFormat (chainIdentityObject e.chainIdentity) =
      Json.canonicalize P.numberFormat (chainIdentityObject e'.chainIdentity))
    (hstored : e.canonicalPayloadHash = e'.canonicalPayloadHash) :
    e.canonicalPayload = e'.canonicalPayload ∨ ExhibitsCollision P entries := by
  rw [hhash, hhash'] at hstored
  have hdigest := toHex_injective hstored
  by_cases hpreimage : entryPreimage P e = entryPreimage P e'
  · refine Or.inl ?_
    unfold entryPreimage concatPreimage at hpreimage
    rw [hidentity] at hpreimage
    exact utf8_injective (List.append_cancel_right hpreimage)
  · exact Or.inr ⟨e, he, e', he', hpreimage, hdigest⟩

/-- Two accepted chains under one expected identity and one checkpoint have
the same positions, and wherever they store the same hash they hold the same
payload or exhibit a collision. The last position is one of these. -/
theorem verifyHashChain_binds_stored_hashes {left right : List HashChainEntry}
    {identity : ChainIdentity} {requireNonEmpty : Option Bool} {count : Nat} {lastPosition : Int}
    {lastHash : String} (hleft : left ≠ []) (hright : right ≠ [])
    (hacceptLeft : verifyHashChain P left
      ⟨some identity, some ⟨requireNonEmpty, some count, some lastPosition, some lastHash⟩⟩ = .ok ())
    (hacceptRight : verifyHashChain P right
      ⟨some identity, some ⟨requireNonEmpty, some count, some lastPosition, some lastHash⟩⟩ =
        .ok ()) :
    left.map HashChainEntry.chainPosition = right.map HashChainEntry.chainPosition ∧
      (∀ (k : Nat) (e e' : HashChainEntry), left[k]? = some e → right[k]? = some e' →
        e.canonicalPayloadHash = e'.canonicalPayloadHash →
          e.canonicalPayload = e'.canonicalPayload ∨ ExhibitsCollision P (left ++ right)) ∧
      (left.getLast?.map HashChainEntry.canonicalPayload =
          right.getLast?.map HashChainEntry.canonicalPayload ∨
        ExhibitsCollision P (left ++ right)) := by
  have hL := verifyHashChain_verified P hleft hacceptLeft
  have hR := verifyHashChain_verified P hright hacceptRight
  have hlength : left.length = right.length := by
    rw [hL.count _ rfl count rfl, hR.count _ rfl count rfl]
  have hsame : ∀ e ∈ left, ∀ e' ∈ right, e.canonicalPayloadHash = e'.canonicalPayloadHash →
      e.canonicalPayload = e'.canonicalPayload ∨ ExhibitsCollision P (left ++ right) := by
    intro e he e' he' hstored
    apply payload_eq_or_collision P (List.mem_append_left _ he) (List.mem_append_right _ he')
      (hL.hashes e he) (hR.hashes e' he') ?_ hstored
    rw [hL.identity identity rfl e he, hR.identity identity rfl e' he']
  refine ⟨?_, ?_, ?_⟩
  · apply List.ext_getElem (by simpa using hlength)
    intro k hk hk'
    simp only [List.length_map] at hk hk'
    simp only [List.getElem_map]
    rw [hL.positions k left[k] (List.getElem?_eq_getElem hk),
      hR.positions k right[k] (List.getElem?_eq_getElem hk')]
  · intro k e e' he he'
    exact hsame e (List.mem_of_getElem? he) e' (List.mem_of_getElem? he')
  · have hlastLeft := List.getLast?_eq_some_getLast hleft
    have hlastRight := List.getLast?_eq_some_getLast hright
    rw [hlastLeft, hlastRight]
    have hstored := (hL.lastHash _ rfl lastHash rfl _ hlastLeft).trans
      (hR.lastHash _ rfl lastHash rfl _ hlastRight).symm
    rcases hsame _ (List.getLast_mem hleft) _ (List.getLast_mem hright) hstored with heq | hcol
    · exact Or.inl (by simp [heq])
    · exact Or.inr hcol

/-! ## An inner entry replaced

Two chains of two entries with one checkpoint. The hash table holds the
SHA-256 digests of the three preimages that occur. -/

namespace Relink

def policyIdentity : ChainIdentity := ⟨"policy", none, none⟩

def payload (amount : String) : String := "\x7b\"amount\":\"" ++ amount ++ "\"\x7d"

def preimage (amount : String) : List UInt8 :=
  utf8 (payload amount ++ "\x7b\"chainNamespace\":\"policy\"\x7d")

def digestTen : List UInt8 :=
  [145, 28, 230, 80, 85, 219, 105, 80, 107, 155, 209, 192, 200, 58, 59, 179, 221, 241, 176, 147,
    70, 126, 82, 232, 209, 102, 52, 175, 174, 51, 204, 86]

def digestNinetyNine : List UInt8 :=
  [215, 112, 88, 115, 143, 94, 49, 67, 49, 218, 133, 228, 238, 41, 55, 234, 243, 228, 129, 194,
    160, 42, 26, 36, 228, 51, 11, 58, 178, 85, 90, 249]

def digestTwenty : List UInt8 :=
  [45, 115, 63, 136, 68, 110, 226, 59, 156, 72, 169, 68, 223, 62, 199, 138, 24, 95, 54, 224, 135,
    249, 40, 1, 81, 129, 37, 100, 245, 97, 214, 53]

def ports : HccPorts where
  numberFormat := NumberFormat.decimal
  parse text := ["10", "99", "20"].findSome? fun amount =>
    if text = payload amount then some (.obj [("amount", .str amount)]) else none
  sha256 bytes :=
    if bytes = preimage "10" then digestTen
    else if bytes = preimage "99" then digestNinetyNine
    else digestTwenty
  uuidFormat := isUuidV4
  dateTimeFormat text := text == "2026-01-01T00:00:00.000Z"

def entry (amount : String) (digest : List UInt8) (previousHash : String) (position : Int) :
    HashChainEntry where
  entryId := "00000000-0000-4000-8000-000000000000"
  canonicalPayload := payload amount
  canonicalPayloadHash := toHex digest
  previousHash := previousHash
  chainPosition := position
  chainIdentity := policyIdentity
  timestamp := "2026-01-01T00:00:00.000Z"
  hccVersion := "2.0.0"

def original : List HashChainEntry :=
  [entry "10" digestTen genesisPreviousHash 0, entry "20" digestTwenty (toHex digestTen) 1]

/-- The first entry replaced and the second one relinked to it. -/
def rewritten : List HashChainEntry :=
  [entry "99" digestNinetyNine genesisPreviousHash 0,
    entry "20" digestTwenty (toHex digestNinetyNine) 1]

def options : VerifyHashChainOptions :=
  ⟨some policyIdentity, some ⟨some true, some 2, some 1, some (toHex digestTwenty)⟩⟩

theorem original_accepted : verifyHashChain ports original options = .ok () := by
  decide +kernel

theorem rewritten_accepted : verifyHashChain ports rewritten options = .ok () := by
  decide +kernel

theorem no_collision : ¬ ExhibitsCollision ports (original ++ rewritten) := by
  unfold ExhibitsCollision
  decide +kernel

/-- Tamper evidence before the tail fails: the two chains pass under one
checkpoint, hold different payloads and exhibit no collision. -/
theorem accepted_chains_differ :
    ¬ ∀ left right : List HashChainEntry, left ≠ [] → right ≠ [] →
      verifyHashChain ports left options = .ok () →
      verifyHashChain ports right options = .ok () →
        left.map HashChainEntry.canonicalPayload = right.map HashChainEntry.canonicalPayload ∨
          ExhibitsCollision ports (left ++ right) := by
  intro h
  rcases h original rewritten (List.cons_ne_nil _ _) (List.cons_ne_nil _ _)
    original_accepted rewritten_accepted with heq | hcol
  · revert heq
    decide +kernel
  · exact no_collision hcol

theorem original_rewritten_bound :
    original.map HashChainEntry.chainPosition = rewritten.map HashChainEntry.chainPosition ∧
      (original.getLast?.map HashChainEntry.canonicalPayload =
          rewritten.getLast?.map HashChainEntry.canonicalPayload ∨
        ExhibitsCollision ports (original ++ rewritten)) := by
  have hbound := @verifyHashChain_binds_stored_hashes ports original rewritten policyIdentity
    (some true) 2 1 (toHex digestTwenty) (List.cons_ne_nil _ _) (List.cons_ne_nil _ _)
    original_accepted rewritten_accepted
  exact ⟨hbound.1, hbound.2.2⟩

end Relink

end Coivitas.Crypto
