import Coivitas.Crypto.HashChain
import Coivitas.Crypto.Sha256
import Coivitas.Foundation.BackLinks

/-! # Tamper-proof audit chains

The model of `packages/policy/src/audit-tamper-proof`: the hash input that
binds ten fields of an audit event, the replay of a chain, and what a replayed
chain is evidence of. SHA-256 is `Crypto.Sha256.sha256`; the number printer of the
canonical form is a parameter.
-/

namespace Coivitas.Policy

open Foundation Crypto

inductive AuditClass where
  | L1
  | L2
  | L3
deriving DecidableEq, Repr

def AuditClass.text : AuditClass → String
  | .L1 => "L1"
  | .L2 => "L2"
  | .L3 => "L3"

/-- The codes of the errors that the writer, the verifier and the store throw. -/
inductive AuditErrorCode where
  | schemaViolation
  | tenantScopeViolation
  | canonicalizeBypassDetected
  | canonicalizeMismatch
  | hashChainBroken
  | tamperDetected
  | failClosed
  | genesisViolation
  | eventSignatureInvalid
  | fetchLastHashFailed
  | reverseReplayFailed
deriving DecidableEq, Repr

structure AuditError where
  code : AuditErrorCode
  detail : String
deriving DecidableEq, Repr

/-- A thrown value: an `AuditError`, or any other error with its message. -/
inductive AuditFault where
  | audit (error : AuditError)
  | error (message : String)
deriving DecidableEq, Repr

def auditError (code : AuditErrorCode) (detail : String) : AuditFault := .audit ⟨code, detail⟩

/-- The ten fields that are hashed. -/
structure TamperProofHashInputFields where
  atpVersion : String
  eventId : String
  tenantId : String
  auditClass : AuditClass
  actorDid : String
  action : String
  target : String
  canonicalPayload : String
  previousHash : Option String
  timestamp : String
deriving DecidableEq, Repr

attribute [ext] TamperProofHashInputFields

structure AuditEvent extends TamperProofHashInputFields where
  tamperProofHash : String
  signature : Option String
deriving DecidableEq, Repr

/-- 64 zeros, hashed in the place of a `previousHash` that is null. -/
def atpGenesisMarker : String := String.ofList (List.replicate 64 '0')

/-! ## Canonical payloads -/

/-- A payload of type `unknown`: a JSON value, an object that the canonicalizer
rejects with a message, or a value of another runtime type. -/
inductive AuditPayload where
  | json (value : Json)
  | unserializable (message : String)
  | nonObject (typeName : String)

def payloadTypeName : Json → String
  | .null => "null"
  | .arr _ => "array"
  | .bool _ => "boolean"
  | .num _ => "number"
  | .str _ => "string"
  | .obj _ => "object"

def payloadNotObject (typeName : String) : AuditFault :=
  auditError .canonicalizeBypassDetected
    ("payload must be a JSON object (Record<string, unknown>);got " ++ typeName)

variable (F : NumberFormat)

def canonicalizeAuditPayload : AuditPayload → Except AuditFault String
  | .json (.obj members) => pure (Json.canonicalize F (.obj members))
  | .json value => throw (payloadNotObject (payloadTypeName value))
  | .unserializable message =>
      throw (auditError .canonicalizeBypassDetected ("canonicalize failed: " ++ message))
  | .nonObject typeName => throw (payloadNotObject typeName)

/-! ## The hash input -/

/-- The object whose canonical form is hashed. -/
def tamperProofHashObject (ev : TamperProofHashInputFields) : List (String × Json) :=
  [("atpVersion", .str ev.atpVersion), ("eventId", .str ev.eventId),
    ("tenantId", .str ev.tenantId), ("auditClass", .str ev.auditClass.text),
    ("actorDid", .str ev.actorDid), ("action", .str ev.action), ("target", .str ev.target),
    ("canonicalPayload", .str ev.canonicalPayload),
    ("previousHash", .str (ev.previousHash.getD atpGenesisMarker)),
    ("timestamp", .str ev.timestamp)]

def buildTamperProofHashInput (ev : TamperProofHashInputFields) : Except AuditFault String :=
  canonicalizeAuditPayload F (.json (.obj (tamperProofHashObject ev)))

/-- `hash(text, 'hex')`. -/
def hash (text : String) : String := toHex (Sha256.sha256 (utf8 text))

/-- The text hashed for an event. -/
def hashInput (ev : TamperProofHashInputFields) : String :=
  Json.canonicalize F (.obj (tamperProofHashObject ev))

@[simp] theorem buildTamperProofHashInput_eq (ev : TamperProofHashInputFields) :
    buildTamperProofHashInput F ev = .ok (hashInput F ev) := rfl

theorem AuditClass.text_injective : Function.Injective AuditClass.text := by
  intro a b h
  cases a <;> cases b <;> first | rfl | exact absurd h (by decide)

theorem tamperProofHashObject_nodup (ev : TamperProofHashInputFields) :
    ((tamperProofHashObject ev).map Prod.fst).Nodup := by
  simp only [tamperProofHashObject, List.map_cons, List.map_nil]
  decide

/-- The input binds every field, and `previousHash` up to the genesis marker. -/
theorem hashInput_inj {ev ev' : TamperProofHashInputFields}
    (h : hashInput F ev = hashInput F ev') :
    { ev with previousHash := some (ev.previousHash.getD atpGenesisMarker) } =
      { ev' with previousHash := some (ev'.previousHash.getD atpGenesisMarker) } := by
  have hkeys := (Json.canonicalize_eq_iff F).mp h
  have hlookup := Json.lookup_of_sortKeys_eq (tamperProofHashObject_nodup ev)
    (tamperProofHashObject_nodup ev') hkeys
  have hfield : ∀ name text text',
      OrderedMap.lookupList name (tamperProofHashObject ev) = some (.str text) →
      OrderedMap.lookupList name (tamperProofHashObject ev') = some (.str text') →
        text = text' := by
    intro name text text' hleft hright
    have heq := hlookup name
    rw [hleft, hright] at heq
    simpa [Json.sortKeys] using heq
  cases ev with
  | mk atpVersion eventId tenantId auditClass actorDid action target payload previous timestamp =>
      cases ev' with
      | mk atpVersion' eventId' tenantId' auditClass' actorDid' action' target' payload' previous'
          timestamp' =>
          obtain rfl := hfield "atpVersion" atpVersion atpVersion' rfl rfl
          obtain rfl := hfield "eventId" eventId eventId' rfl rfl
          obtain rfl := hfield "tenantId" tenantId tenantId' rfl rfl
          obtain rfl := AuditClass.text_injective
            (hfield "auditClass" auditClass.text auditClass'.text rfl rfl)
          obtain rfl := hfield "actorDid" actorDid actorDid' rfl rfl
          obtain rfl := hfield "action" action action' rfl rfl
          obtain rfl := hfield "target" target target' rfl rfl
          obtain rfl := hfield "canonicalPayload" payload payload' rfl rfl
          obtain rfl := hfield "timestamp" timestamp timestamp' rfl rfl
          have hprevious := hfield "previousHash" (previous.getD atpGenesisMarker)
            (previous'.getD atpGenesisMarker) rfl rfl
          simp only [hprevious]

/-! ## Replay -/

/-- One round of the replay loop at index `i`; `previous` is the event before,
absent at index 0. -/
def replayEvent (previous : Option AuditEvent) (i : Nat) (ev : AuditEvent) :
    Except AuditFault Unit := do
  require (previous = none → ev.previousHash = none)
    (auditError .genesisViolation
      "chain[0] previousHash !== null (GENESIS state requires previousHash=null)")
  require (previous ≠ none → ev.previousHash ≠ none)
    (auditError .genesisViolation ("chain[" ++ toString i ++
      "] previousHash === null (non-GENESIS state requires previousHash!=null)"))
  let input ← buildTamperProofHashInput F ev.toTamperProofHashInputFields
  require (hash input = ev.tamperProofHash)
    (auditError .tamperDetected ("chain[" ++ toString i ++ "] recomputedHash !== " ++
      "ev.tamperProofHash (DBA tampering or hash input asymmetry detected)"))
  match previous with
  | none => pure ()
  | some prevEv =>
      require (ev.previousHash = some prevEv.tamperProofHash)
        (auditError .hashChainBroken ("chain[" ++ toString i ++ "] previousHash mismatch chain[" ++
          toString (i - 1) ++ "] tamperProofHash"))

/-- The loop over the chain; it returns the index of the target event. -/
def replayLoop (targetEvent : AuditEvent) (previous : Option AuditEvent) (i : Nat)
    (targetIndex : Option Nat) : List AuditEvent → Except AuditFault (Option Nat)
  | [] => pure targetIndex
  | ev :: rest => do
      replayEvent F previous i ev
      replayLoop targetEvent (some ev) (i + 1)
        (if ev.eventId = targetEvent.eventId then some i else targetIndex) rest

/-- `reverseHashChainReplay` on the fetched chain. -/
def replayChain (targetEvent : AuditEvent) (chain : List AuditEvent) :
    Except AuditFault Unit := do
  require (chain ≠ [])
    (auditError .reverseReplayFailed ("fetchAllEvents returned empty chain but fetchEventById " ++
      "returned event (storage state inconsistent)"))
  let targetIndex ← replayLoop F targetEvent none 0 none chain
  require (targetIndex ≠ none)
    (auditError .reverseReplayFailed
      "targetEvent not found in fetched chain (storage state inconsistent)")

/-- Stored hash and recomputed hash agree. -/
def HashVerified (ev : AuditEvent) : Prop :=
  ev.tamperProofHash = hash (hashInput F ev.toTamperProofHashInputFields)

/-- Every event names the stored hash of the one before it. -/
def Linked (link : Option String) (chain : List AuditEvent) : Prop :=
  BackLinked (fun ev : AuditEvent => ev.previousHash) AuditEvent.tamperProofHash link chain

theorem replayEvent_eq_ok {previous : Option AuditEvent} {i : Nat} {ev : AuditEvent} :
    replayEvent F previous i ev = .ok () ↔
      ev.previousHash = previous.map AuditEvent.tamperProofHash ∧ HashVerified F ev := by
  simp only [replayEvent, buildTamperProofHashInput_eq, bind_eq_ok, exists_unit, require_eq_ok,
    Except.ok.injEq, exists_eq_left', HashVerified]
  cases previous with
  | none =>
      simp only [forall_const, ne_eq, not_true_eq_false, false_imp_iff, true_and, pure_eq_ok,
        and_true, Option.map_none]
      exact and_congr_right fun _ => eq_comm
  | some prevEv =>
      simp only [reduceCtorEq, false_imp_iff, true_and, ne_eq, not_false_eq_true, forall_const,
        require_eq_ok, Option.map_some]
      constructor
      · rintro ⟨-, hhash, hlink⟩
        exact ⟨hlink, hhash.symm⟩
      · rintro ⟨hlink, hhash⟩
        exact ⟨by simp [hlink], hhash.symm, hlink⟩

/-- The loop passes exactly the linked chains whose hashes recompute. -/
theorem replayLoop_eq_ok (targetEvent : AuditEvent) (previous : Option AuditEvent) (i : Nat)
    (targetIndex : Option Nat) (chain : List AuditEvent) :
    (∃ index, replayLoop F targetEvent previous i targetIndex chain = .ok index) ↔
      Linked (previous.map AuditEvent.tamperProofHash) chain ∧
        ∀ ev ∈ chain, HashVerified F ev := by
  induction chain generalizing previous i targetIndex with
  | nil => simp [replayLoop, Linked, BackLinked]
  | cons ev rest ih =>
      simp only [replayLoop, bind_eq_ok, exists_unit, replayEvent_eq_ok, exists_and_left, ih,
        Linked, BackLinked, Option.map_some, List.forall_mem_cons]
      tauto

/-- The loop finds the target when it is in the chain. -/
theorem replayLoop_finds {targetEvent : AuditEvent} {previous : Option AuditEvent} {i : Nat}
    {targetIndex index : Option Nat} {chain : List AuditEvent}
    (h : replayLoop F targetEvent previous i targetIndex chain = .ok index)
    (htarget : targetIndex ≠ none ∨ targetEvent ∈ chain) : index ≠ none := by
  induction chain generalizing previous i targetIndex with
  | nil =>
      simp only [replayLoop, pure_eq_ok] at h
      simpa [← h] using htarget
  | cons ev rest ih =>
      simp only [replayLoop, bind_eq_ok, exists_unit] at h
      apply ih h.2
      rcases htarget with hindex | hmem
      · left
        split
        next => simp
        next => exact hindex
      · rcases List.mem_cons.mp hmem with rfl | hmem
        · exact Or.inl (by simp)
        · exact Or.inr hmem

/-- Replay accepts a linked chain with sound hashes that holds the target. -/
theorem replayChain_of_linked {targetEvent : AuditEvent} {chain : List AuditEvent}
    (hlinked : Linked none chain) (hhashes : ∀ ev ∈ chain, HashVerified F ev)
    (htarget : targetEvent ∈ chain) : replayChain F targetEvent chain = .ok () := by
  obtain ⟨index, hloop⟩ := (replayLoop_eq_ok F targetEvent none 0 none chain).mpr
    ⟨hlinked, hhashes⟩
  simp only [replayChain, bind_eq_ok, exists_unit, require_eq_ok]
  exact ⟨List.ne_nil_of_mem htarget, index, hloop, replayLoop_finds F hloop (Or.inr htarget)⟩

/-! ## Tamper evidence -/

/-- Two of the events have different preimages with the same digest. -/
def ExhibitsCollision (events : List AuditEvent) : Prop :=
  ∃ ev ∈ events, ∃ ev' ∈ events,
    utf8 (hashInput F ev.toTamperProofHashInputFields) ≠
        utf8 (hashInput F ev'.toTamperProofHashInputFields) ∧
      Sha256.sha256 (utf8 (hashInput F ev.toTamperProofHashInputFields)) =
        Sha256.sha256 (utf8 (hashInput F ev'.toTamperProofHashInputFields))

/-- One of the events has a preimage of the genesis marker. -/
def ExhibitsMarkerPreimage (events : List AuditEvent) : Prop :=
  ∃ ev ∈ events, hash (hashInput F ev.toTamperProofHashInputFields) = atpGenesisMarker

theorem hashInput_eq_or_collision {events : List AuditEvent} {ev ev' : AuditEvent}
    (hev : ev ∈ events) (hev' : ev' ∈ events) (hhash : HashVerified F ev)
    (hhash' : HashVerified F ev') (hstored : ev.tamperProofHash = ev'.tamperProofHash) :
    hashInput F ev.toTamperProofHashInputFields = hashInput F ev'.toTamperProofHashInputFields ∨
      ExhibitsCollision F events := by
  rw [hhash, hhash'] at hstored
  have hdigest := toHex_injective hstored
  by_cases hpreimage : utf8 (hashInput F ev.toTamperProofHashInputFields) =
      utf8 (hashInput F ev'.toTamperProofHashInputFields)
  · exact Or.inl (utf8_injective hpreimage)
  · exact Or.inr ⟨ev, hev, ev', hev', hpreimage, hdigest⟩

/-- In a replayed chain a `previousHash` is the marker only if the marker has a
preimage among the events. -/
theorem previousHash_ne_marker {chain : List AuditEvent} {ev : AuditEvent}
    (hlinked : Linked none chain) (hhashes : ∀ ev ∈ chain, HashVerified F ev)
    (hmarker : ¬ ExhibitsMarkerPreimage F chain) (hev : ev ∈ chain) :
    ev.previousHash ≠ some atpGenesisMarker := by
  intro hprevious
  rcases exists_digest_of_previous hlinked hev hprevious with ⟨earlier, hearlier, heq⟩ | hnone
  · exact hmarker ⟨earlier, hearlier, (hhashes earlier hearlier).symm.trans heq⟩
  · cases hnone

/-- Away from the marker the encoding of a null `previousHash` is unambiguous. -/
theorem getD_marker_inj {previous previous' : Option String}
    (hmarker : previous ≠ some atpGenesisMarker) (hmarker' : previous' ≠ some atpGenesisMarker)
    (h : previous.getD atpGenesisMarker = previous'.getD atpGenesisMarker) :
    previous = previous' := by
  cases previous with
  | none =>
      cases previous' with
      | none => rfl
      | some d => exact absurd (congrArg some h.symm) hmarker'
  | some d =>
      cases previous' with
      | none => exact absurd (congrArg some h) hmarker
      | some d' => exact congrArg some h

theorem hashedFields_eq {ev ev' : AuditEvent}
    (hmarker : ev.previousHash ≠ some atpGenesisMarker)
    (hmarker' : ev'.previousHash ≠ some atpGenesisMarker)
    (h : hashInput F ev.toTamperProofHashInputFields =
      hashInput F ev'.toTamperProofHashInputFields) :
    ev.toTamperProofHashInputFields = ev'.toTamperProofHashInputFields := by
  have hfields := hashInput_inj F h
  simp only [TamperProofHashInputFields.mk.injEq, Option.some.injEq] at hfields
  obtain ⟨hversion, hid, htenant, hclass, hactor, haction, htarget, hpayload, hprevious,
    htimestamp⟩ := hfields
  have hprevious' := getD_marker_inj hmarker hmarker' hprevious
  apply TamperProofHashInputFields.ext <;> assumption

/-- Two chains that pass the replay loop with the same last stored hash have the
same length and the same ten hashed fields everywhere, unless they exhibit a
collision or a preimage of the genesis marker. -/
theorem replay_binds_chain {left right : List AuditEvent}
    {target target' last last' : AuditEvent} {index index' : Option Nat}
    (hleft : replayLoop F target none 0 none left = .ok index)
    (hright : replayLoop F target' none 0 none right = .ok index')
    (hlast : left.getLast? = some last) (hlast' : right.getLast? = some last')
    (hstored : last.tamperProofHash = last'.tamperProofHash) :
    (left.length = right.length ∧
      ∀ (i : Nat) (ev ev' : AuditEvent), left[i]? = some ev → right[i]? = some ev' →
        ev.toTamperProofHashInputFields = ev'.toTamperProofHashInputFields) ∨
      ExhibitsCollision F (left ++ right) ∨ ExhibitsMarkerPreimage F (left ++ right) := by
  obtain ⟨hlinked, hhashes⟩ := (replayLoop_eq_ok F target none 0 none left).mp ⟨index, hleft⟩
  obtain ⟨hlinked', hhashes'⟩ :=
    (replayLoop_eq_ok F target' none 0 none right).mp ⟨index', hright⟩
  by_cases hcollision : ExhibitsCollision F (left ++ right)
  · exact Or.inr (Or.inl hcollision)
  by_cases hpreimage : ExhibitsMarkerPreimage F (left ++ right)
  · exact Or.inr (Or.inr hpreimage)
  left
  have hmarker : ¬ ExhibitsMarkerPreimage F left := fun ⟨ev, hev, h⟩ =>
    hpreimage ⟨ev, List.mem_append_left _ hev, h⟩
  have hmarker' : ¬ ExhibitsMarkerPreimage F right := fun ⟨ev, hev, h⟩ =>
    hpreimage ⟨ev, List.mem_append_right _ hev, h⟩
  have hbinds : ∀ l ∈ left, ∀ r ∈ right, l.tamperProofHash = r.tamperProofHash →
      l.toTamperProofHashInputFields = r.toTamperProofHashInputFields ∧
        l.previousHash = r.previousHash := by
    intro l hl r hr hsame
    have hinput := (hashInput_eq_or_collision F (List.mem_append_left right hl)
      (List.mem_append_right left hr) (hhashes l hl) (hhashes' r hr) hsame).resolve_right
        hcollision
    have hfields := hashedFields_eq F (previousHash_ne_marker F hlinked hhashes hmarker hl)
      (previousHash_ne_marker F hlinked' hhashes' hmarker' hr) hinput
    exact ⟨hfields, congrArg TamperProofHashInputFields.previousHash hfields⟩
  have hmap := map_eq_of_lastDigest_eq hlinked hlinked' hbinds
    (by simp [lastDigest, hlast, hlast', hstored])
  refine ⟨by simpa using congrArg List.length hmap, ?_⟩
  intro i ev ev' hev hev'
  have hget := congrArg (fun fields : List TamperProofHashInputFields => fields[i]?) hmap
  simpa [hev, hev'] using hget

namespace PaymentTrail

/-- An event with the hash of its own fields. -/
def sealedEvent (fields : TamperProofHashInputFields) (signature : Option String) : AuditEvent where
  toTamperProofHashInputFields := fields
  tamperProofHash := hash (hashInput NumberFormat.decimal fields)
  signature := signature

def quote : TamperProofHashInputFields where
  atpVersion := "1.0.0"
  eventId := "00000000-0000-4000-8000-000000000001"
  tenantId := "00000000-0000-4000-8000-0000000000aa"
  auditClass := .L1
  actorDid := "did:key:alice"
  action := "QUOTE"
  target := "invoice-7"
  canonicalPayload := "\x7b\x7d"
  previousHash := none
  timestamp := "2026-01-01T00:00:00.000Z"

def payment : TamperProofHashInputFields :=
  { quote with
    eventId := "00000000-0000-4000-8000-000000000002"
    action := "CONFIRM"
    previousHash := some (hash (hashInput NumberFormat.decimal quote)) }

/-- The trail with a signature, or none, beside its last event. -/
def trail (signature : Option String) : List AuditEvent :=
  [sealedEvent quote none, sealedEvent payment signature]

theorem trail_replays (signature : Option String) : ∃ index,
    replayLoop NumberFormat.decimal (sealedEvent quote none) none 0 none (trail signature) =
      .ok index := by
  rw [replayLoop_eq_ok]
  refine ⟨⟨rfl, rfl, trivial⟩, ?_⟩
  simp only [trail, List.forall_mem_cons, HashVerified, List.not_mem_nil, false_imp_iff,
    implies_true, and_true]
  exact ⟨rfl, rfl⟩

/-- A signature is not hashed: both trails pass with the same last hash, and the
hashed fields are the same. -/
theorem trails_bound :
    ((trail none).length = (trail (some "c2ln")).length ∧
      ∀ (i : Nat) (ev ev' : AuditEvent), (trail none)[i]? = some ev →
        (trail (some "c2ln"))[i]? = some ev' →
          ev.toTamperProofHashInputFields = ev'.toTamperProofHashInputFields) ∨
      ExhibitsCollision NumberFormat.decimal (trail none ++ trail (some "c2ln")) ∨
        ExhibitsMarkerPreimage NumberFormat.decimal (trail none ++ trail (some "c2ln")) := by
  obtain ⟨index, hleft⟩ := trail_replays none
  obtain ⟨index', hright⟩ := trail_replays (some "c2ln")
  exact replay_binds_chain NumberFormat.decimal hleft hright rfl rfl rfl

end PaymentTrail

end Coivitas.Policy
