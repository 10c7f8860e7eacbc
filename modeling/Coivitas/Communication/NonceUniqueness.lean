import Coivitas.Communication.SessionCrypto
import Coivitas.Foundation.Run

/-! # No nonce is used twice

Runs of a registry and of encryptions on any handle it has ever made, also on handles
that a rekey has replaced or a close has released. Keys are told apart by the handle
that holds them; under one key, the counter of its handle tells the nonces apart.
-/

namespace Coivitas.Communication

open Foundation Coivitas.Types OrderedMap

/-! ## Runs of a registry -/

inductive CryptoEvent where
  | registry (call : RegistryCall)
  | encrypt (ref : Nat) (fields : AeadAadFields) (plaintext : List UInt8)

/-- One call of the cipher, and whether the key material of its handle was zeroized then. -/
structure CipherUse where
  call : AeadCall
  zeroized : Bool
  deriving DecidableEq

/-- A registry, the traffic keys its handles were made with and the cipher calls they made. -/
structure CryptoSystem where
  registry : SessionRegistry
  usedKeys : List (List UInt8)
  uses : List CipherUse

namespace CryptoSystem

def initial : CryptoSystem := ⟨.empty, [], []⟩

/-- The system with another registry; the keys of the handles that are new in it are used. -/
def after (s : CryptoSystem) (r : SessionRegistry) : CryptoSystem :=
  { s with
    registry := r
    usedKeys := s.usedKeys ++ (r.handles.drop s.registry.handles.length).flatMap fun h =>
      [h.trafficKeys.initToResp, h.trafficKeys.respToInit] }

end CryptoSystem

variable (C : SessionCryptoPorts)

/-- The cipher calls that an encryption on a handle makes. -/
def SessionCryptoHandle.cipherUses (h : SessionCryptoHandle) (fields : AeadAadFields)
    (plaintext : List UInt8) : List CipherUse :=
  (h.runEncrypt C fields plaintext).calls.map fun call => ⟨call, h.zeroized⟩

/-- One event; only handles that were made encrypt. -/
def cryptoStep (s : CryptoSystem) : CryptoEvent → Option CryptoSystem
  | .registry call => (s.registry.apply C call).map s.after
  | .encrypt ref fields plaintext =>
      match s.registry.handles[ref]? with
      | none => none
      | some h =>
          some { s with
            registry := s.registry.encryptOn C ref fields plaintext
            uses := s.uses ++ h.cipherUses C fields plaintext }

/-- Traffic keys that no handle was made with. -/
def CryptoSystem.Unused (s : CryptoSystem) (keys : TrafficKeys) : Prop :=
  keys.initToResp ∉ s.usedKeys ∧ keys.respToInit ∉ s.usedKeys

/-- Supplied traffic keys were not used before, derived ones do not collide with used ones,
and a handle encrypts fewer than 2^64 messages. -/
def Fresh (s : CryptoSystem) : CryptoEvent → Prop
  | .registry (.createSession _ _ _ data) => s.Unused data.trafficKeys
  | .registry (.swapForDualKey _ newSession) => s.Unused newSession.trafficKeys
  | .registry (.swapForDualKeyChainMode sessionId) => ∀ found ∈ s.registry.find sessionId,
      found.handle.state ≠ .pendingRekey →
        s.Unused (SessionRegistry.nextGeneration C found.handle).trafficKeys
  | .registry (.expireDualKeyWindow _) => True
  | .registry (.closeSession _) => True
  | .encrypt ref _ _ => ∀ h ∈ s.registry.handles[ref]?, h.sequenceNumber < 2 ^ 64

instance (s : CryptoSystem) (keys : TrafficKeys) : Decidable (s.Unused keys) :=
  inferInstanceAs (Decidable (_ ∧ _))

instance (s : CryptoSystem) (event : CryptoEvent) : Decidable (Fresh C s event) := by
  unfold Fresh
  split <;> infer_instance

/-! ## The invariant -/

/-- What holds of the handles made, the keys used and the cipher calls. -/
structure NonceInv (handles : List SessionCryptoHandle) (usedKeys : List (List UInt8))
    (uses : List CipherUse) : Prop where
  closed : ∀ h ∈ handles, h.zeroized = true → h.state = .closed
  key_used : ∀ h ∈ handles, h.zeroized = false → h.ownKey ∈ usedKeys
  key_unique : ∀ (i j : Nat) (h h' : SessionCryptoHandle), handles[i]? = some h →
    handles[j]? = some h' → h.zeroized = false → h'.zeroized = false → h.ownKey = h'.ownKey → i = j
  use_key : ∀ use ∈ uses, use.call.key ∈ usedKeys
  counted : ∀ use ∈ uses, ∀ h ∈ handles, h.zeroized = false → use.call.key = h.ownKey →
    ∃ seq < h.sequenceNumber,
      use.call.nonce = buildAeadNonce (ownDirection h.role) seq h.sessionSalt
  distinct : (uses.map fun use => (use.call.key, use.call.nonce)).Nodup
  live : ∀ use ∈ uses, use.zeroized = false

/-- A change of a handle that keeps what its nonces are made of, or zeroizes it. -/
structure KeepsNonces (f : SessionCryptoHandle → SessionCryptoHandle) : Prop where
  closed : ∀ h, (h.zeroized = true → h.state = .closed) → (f h).zeroized = true →
    (f h).state = .closed
  live : ∀ h, (f h).zeroized = false → h.zeroized = false
  keys : ∀ h, (f h).zeroized = false → (f h).trafficKeys = h.trafficKeys
  role : ∀ h, (f h).role = h.role
  salt : ∀ h, (f h).zeroized = false → (f h).sessionSalt = h.sessionSalt
  count : ∀ h, h.sequenceNumber ≤ (f h).sequenceNumber

variable {handles : List SessionCryptoHandle} {usedKeys : List (List UInt8)}
  {uses : List CipherUse}

theorem KeepsNonces.ownKey_eq {f : SessionCryptoHandle → SessionCryptoHandle}
    (hf : KeepsNonces f) {h : SessionCryptoHandle} (hlive : (f h).zeroized = false) :
    (f h).ownKey = h.ownKey := by
  rw [SessionCryptoHandle.ownKey, SessionCryptoHandle.ownKey, hf.keys h hlive, hf.role]

theorem KeepsNonces.zeroize : KeepsNonces SessionCryptoHandle.zeroize where
  closed h hclosed := by
    unfold SessionCryptoHandle.zeroize
    split
    next => exact hclosed
    next => intro; rfl
  live h hlive := by
    unfold SessionCryptoHandle.zeroize at hlive
    split at hlive
    next => exact hlive
    next => cases hlive
  keys h hlive := by
    unfold SessionCryptoHandle.zeroize at hlive ⊢
    split at hlive
    next hzeroized => rw [if_pos hzeroized]
    next => cases hlive
  role h := by
    unfold SessionCryptoHandle.zeroize
    split <;> rfl
  salt h hlive := by
    unfold SessionCryptoHandle.zeroize at hlive ⊢
    split at hlive
    next hzeroized => rw [if_pos hzeroized]
    next => cases hlive
  count h := by
    unfold SessionCryptoHandle.zeroize
    split <;> exact le_refl _

/-- Only a handle that waits is activated, so a closed one stays closed. -/
theorem KeepsNonces.activate : KeepsNonces SessionRegistry.activate := by
  have hsame : ∀ h, SessionRegistry.activate h =
      { h with state := (SessionRegistry.activate h).state } := by
    intro h
    unfold SessionRegistry.activate
    split <;> rfl
  refine ⟨?_, fun h => ?_, fun h => ?_, fun h => ?_, fun h => ?_, fun h => ?_⟩
  · intro h hclosed hzeroized
    rw [hsame] at hzeroized
    have hstate := hclosed hzeroized
    simp [SessionRegistry.activate, hstate]
  all_goals rw [hsame]
  · exact id
  · exact fun _ => rfl
  · exact fun _ => rfl

theorem KeepsNonces.encrypt (fields : AeadAadFields) (plaintext : List UInt8) :
    KeepsNonces fun h => (h.encrypt C fields plaintext).2 := by
  have hsame : ∀ h : SessionCryptoHandle, ∃ seq, h.sequenceNumber ≤ seq ∧
      (h.encrypt C fields plaintext).2 = { h with sequenceNumber := seq } := by
    intro h
    rw [SessionCryptoHandle.encrypt_eq]
    split
    next => exact ⟨h.sequenceNumber, le_refl _, rfl⟩
    next => exact ⟨h.sequenceNumber + 1, Nat.le_succ _, rfl⟩
  refine ⟨fun h => ?_, fun h => ?_, fun h => ?_, fun h => ?_, fun h => ?_, fun h => ?_⟩
  all_goals
    obtain ⟨seq, hle, heq⟩ := hsame h
    simp only [heq]
  · exact id
  · exact id
  · exact fun _ => trivial
  · exact fun _ => trivial
  · exact hle

/-! ## Steps -/

/-- A handle after a change of one of them comes from a handle at the same place. -/
theorem getElem?_modify_eq_some {f : SessionCryptoHandle → SessionCryptoHandle}
    (hf : KeepsNonces f) {ref i : Nat} {h' : SessionCryptoHandle}
    (hget : (handles.modify ref f)[i]? = some h') :
    ∃ h, handles[i]? = some h ∧ ((h.zeroized = true → h.state = .closed) →
      h'.zeroized = true → h'.state = .closed) ∧
      (h'.zeroized = false → h.zeroized = false ∧ h'.ownKey = h.ownKey ∧ h'.role = h.role ∧
        h'.sessionSalt = h.sessionSalt ∧ h.sequenceNumber ≤ h'.sequenceNumber) := by
  rw [List.getElem?_modify] at hget
  obtain ⟨h, hold, rfl⟩ := Option.map_eq_some_iff.mp hget
  refine ⟨h, hold, ?_⟩
  split
  next =>
    exact ⟨hf.closed h, fun hlive => ⟨hf.live h hlive, hf.ownKey_eq hlive, hf.role h,
      hf.salt h hlive, hf.count h⟩⟩
  next => exact ⟨id, fun hlive => ⟨hlive, rfl, rfl, rfl, le_refl _⟩⟩

theorem NonceInv.modify (hinv : NonceInv handles usedKeys uses) (ref : Nat)
    {f : SessionCryptoHandle → SessionCryptoHandle} (hf : KeepsNonces f) :
    NonceInv (handles.modify ref f) usedKeys uses where
  closed h' hmem := by
    obtain ⟨i, hi⟩ := List.mem_iff_getElem?.mp hmem
    obtain ⟨h, hget, hclosed, -⟩ := getElem?_modify_eq_some hf hi
    exact hclosed (hinv.closed h (List.mem_of_getElem? hget))
  key_used h' hmem hlive' := by
    obtain ⟨i, hi⟩ := List.mem_iff_getElem?.mp hmem
    obtain ⟨h, hget, -, hsame⟩ := getElem?_modify_eq_some hf hi
    obtain ⟨hlive, hkey, -⟩ := hsame hlive'
    rw [hkey]
    exact hinv.key_used h (List.mem_of_getElem? hget) hlive
  key_unique i j h₁' h₂' hi hj hlive₁' hlive₂' hkeys := by
    obtain ⟨h₁, hget₁, -, hsame₁⟩ := getElem?_modify_eq_some hf hi
    obtain ⟨h₂, hget₂, -, hsame₂⟩ := getElem?_modify_eq_some hf hj
    obtain ⟨hlive₁, hkey₁, -⟩ := hsame₁ hlive₁'
    obtain ⟨hlive₂, hkey₂, -⟩ := hsame₂ hlive₂'
    exact hinv.key_unique i j h₁ h₂ hget₁ hget₂ hlive₁ hlive₂ (hkey₁ ▸ hkey₂ ▸ hkeys)
  use_key := hinv.use_key
  counted use huse h' hmem hlive' hkey' := by
    obtain ⟨i, hi⟩ := List.mem_iff_getElem?.mp hmem
    obtain ⟨h, hget, -, hsame⟩ := getElem?_modify_eq_some hf hi
    obtain ⟨hlive, hkey, hrole, hsalt, hcount⟩ := hsame hlive'
    obtain ⟨seq, hseq, hnonce⟩ := hinv.counted use huse h (List.mem_of_getElem? hget) hlive
      (hkey'.trans hkey)
    exact ⟨seq, hseq.trans_le hcount, by rw [hnonce, hrole, hsalt]⟩
  distinct := hinv.distinct
  live := hinv.live

theorem NonceInv.zeroizeAll (refs : List Nat) {r : SessionRegistry}
    (hinv : NonceInv r.handles usedKeys uses) :
    NonceInv (r.zeroizeAll refs).handles usedKeys uses := by
  induction refs generalizing r with
  | nil => exact hinv
  | cons ref refs ih => exact ih (hinv.modify ref KeepsNonces.zeroize)

theorem NonceInv.expire {r : SessionRegistry} (hinv : NonceInv r.handles usedKeys uses)
    (sessionId : String) :
    NonceInv (r.expireDualKeyWindow sessionId).handles usedKeys uses := by
  unfold SessionRegistry.expireDualKeyWindow
  split
  next => exact hinv
  next found _ => exact (hinv.zeroizeAll _).modify _ KeepsNonces.activate

theorem NonceInv.close {r : SessionRegistry} (hinv : NonceInv r.handles usedKeys uses)
    (sessionId : String) : NonceInv (r.closeSession sessionId).handles usedKeys uses := by
  unfold SessionRegistry.closeSession
  split
  next => exact hinv
  next found _ => exact hinv.zeroizeAll _

/-- A handle with keys that were not used before joins the others. -/
theorem NonceInv.append (hinv : NonceInv handles usedKeys uses) {handle : SessionCryptoHandle}
    (hlive : handle.zeroized = false)
    (hunused : handle.trafficKeys.initToResp ∉ usedKeys ∧
      handle.trafficKeys.respToInit ∉ usedKeys) :
    NonceInv (handles ++ [handle])
      (usedKeys ++ [handle.trafficKeys.initToResp, handle.trafficKeys.respToInit]) uses := by
  have hown : handle.ownKey ∉ usedKeys := by
    unfold SessionCryptoHandle.ownKey
    cases handle.role with
    | initiator => exact hunused.1
    | responder => exact hunused.2
  have hnew : handle.ownKey ∈
      usedKeys ++ [handle.trafficKeys.initToResp, handle.trafficKeys.respToInit] := by
    unfold SessionCryptoHandle.ownKey
    cases handle.role with
    | initiator => simp [ownDirection, TrafficKeys.key]
    | responder => simp [ownDirection, TrafficKeys.key]
  have hsplit : ∀ {i h}, (handles ++ [handle])[i]? = some h →
      handles[i]? = some h ∨ i = handles.length ∧ h = handle := by
    intro i h hget
    rcases lt_or_ge i handles.length with hlt | hge
    · rw [List.getElem?_append_left hlt] at hget
      exact .inl hget
    · rw [List.getElem?_append_right hge, List.getElem?_singleton] at hget
      split at hget
      next hzero => exact .inr ⟨by omega, (Option.some.inj hget).symm⟩
      next => cases hget
  refine ⟨?_, ?_, ?_, ?_, ?_, hinv.distinct, hinv.live⟩
  · intro h hmem hzeroized
    rcases List.mem_append.mp hmem with hold | hlast
    · exact hinv.closed h hold hzeroized
    · rw [List.mem_singleton.mp hlast, hlive] at hzeroized
      cases hzeroized
  · intro h hmem hlive'
    rcases List.mem_append.mp hmem with hold | hlast
    · exact List.mem_append_left _ (hinv.key_used h hold hlive')
    · rw [List.mem_singleton.mp hlast]
      exact hnew
  · intro i j h h' hi hj hliveh hliveh' hkeys
    rcases hsplit hi with hold | ⟨rfl, rfl⟩ <;> rcases hsplit hj with hold' | ⟨rfl, rfl⟩
    · exact hinv.key_unique i j h h' hold hold' hliveh hliveh' hkeys
    · exact absurd (hkeys ▸ hinv.key_used h (List.mem_of_getElem? hold) hliveh) hown
    · exact absurd (hkeys ▸ hinv.key_used h' (List.mem_of_getElem? hold') hliveh') hown
    · rfl
  · intro use huse
    exact List.mem_append_left _ (hinv.use_key use huse)
  · intro use huse h hmem hliveh hkey
    rcases List.mem_append.mp hmem with hold | hlast
    · exact hinv.counted use huse h hold hliveh hkey
    · rw [List.mem_singleton.mp hlast] at hkey
      exact absurd (hkey ▸ hinv.use_key use huse) hown

/-- The call of an encryption joins the others: its nonce has a sequence number that no
earlier call under the key has. -/
theorem NonceInv.encrypt (hinv : NonceInv handles usedKeys uses) {ref : Nat}
    {h : SessionCryptoHandle} (hget : handles[ref]? = some h) (hbound : h.sequenceNumber < 2 ^ 64)
    (fields : AeadAadFields) (plaintext : List UInt8) :
    NonceInv (handles.modify ref fun h => (h.encrypt C fields plaintext).2) usedKeys
      (uses ++ h.cipherUses C fields plaintext) := by
  have hmem := List.mem_of_getElem? hget
  have hkept := hinv.modify ref (KeepsNonces.encrypt C fields plaintext)
  rw [SessionCryptoHandle.cipherUses, SessionCryptoHandle.runEncrypt_calls]
  cases hcheck : h.checkEncrypt with
  | ok checked =>
    have hlive : h.zeroized = false := by
      by_contra hzeroized
      have hstate := hinv.closed h hmem (Bool.eq_true_of_not_eq_false hzeroized)
      simp [SessionCryptoHandle.checkEncrypt, SessionCryptoHandle.checkState, hstate] at hcheck
    refine ⟨hkept.closed, hkept.key_used, hkept.key_unique, ?_, ?_, ?_, ?_⟩
    · intro use huse
      rcases List.mem_append.mp huse with hold | hlast
      · exact hinv.use_key use hold
      · rw [List.mem_singleton.mp hlast]
        exact hinv.key_used h hmem hlive
    · intro use huse h' hmem' hlive' hkey'
      rcases List.mem_append.mp huse with hold | hlast
      · exact hkept.counted use hold h' hmem' hlive' hkey'
      · rw [List.mem_singleton.mp hlast] at hkey' ⊢
        obtain ⟨i, hi⟩ := List.mem_iff_getElem?.mp hmem'
        obtain ⟨h₁, hget₁, -, hsame⟩ :=
          getElem?_modify_eq_some (KeepsNonces.encrypt C fields plaintext) hi
        obtain ⟨hlive₁, hkey₁, -⟩ := hsame hlive'
        have hplace := hinv.key_unique ref i h h₁ hget hget₁ hlive hlive₁ (hkey'.trans hkey₁)
        subst hplace
        rw [List.getElem?_modify, hget] at hi
        have hh' : h' = { h with sequenceNumber := h.sequenceNumber + 1 } := by
          simpa [SessionCryptoHandle.encrypt_eq, hcheck] using hi.symm
        subst hh'
        exact ⟨h.sequenceNumber, Nat.lt_succ_self _, rfl⟩
    · rw [List.map_append, List.nodup_append]
      refine ⟨hinv.distinct, List.nodup_singleton _, ?_⟩
      rintro _ hold _ hlast rfl
      obtain ⟨use, huse, hpair⟩ := List.mem_map.mp hold
      have hsame := hpair.trans (List.mem_singleton.mp hlast)
      obtain ⟨seq, hseq, hnonce⟩ := hinv.counted use huse h hmem hlive (Prod.mk.inj hsame).1
      have hnonces := hnonce.symm.trans (Prod.mk.inj hsame).2
      have hcontra := (buildAeadNonce_inj (hseq.trans hbound) hbound hnonces).2
      omega
    · intro use huse
      rcases List.mem_append.mp huse with hold | hlast
      · exact hinv.live use hold
      · rw [List.mem_singleton.mp hlast]
        exact hlive
  | error fault => simpa using hkept

/-- A new handle with unused keys keeps the invariant, whatever entry it is put in. -/
theorem nonceInv_install {s : CryptoSystem}
    (hinv : NonceInv s.registry.handles s.usedKeys s.uses) {handle : SessionCryptoHandle}
    (hlive : handle.zeroized = false) (hunused : s.Unused handle.trafficKeys)
    {previousHandle : Option Nat} {hprevious} :
    let s' := s.after (s.registry.install handle previousHandle hprevious)
    NonceInv s'.registry.handles s'.usedKeys s'.uses := by
  have hkeys : (s.after (s.registry.install handle previousHandle hprevious)).usedKeys =
      s.usedKeys ++ [handle.trafficKeys.initToResp, handle.trafficKeys.respToInit] := by
    simp [CryptoSystem.after, SessionRegistry.install]
  simp only [hkeys]
  exact hinv.append hlive hunused

theorem nonceInv_same {s : CryptoSystem} (hinv : NonceInv s.registry.handles s.usedKeys s.uses) :
    let s' := s.after s.registry
    NonceInv s'.registry.handles s'.usedKeys s'.uses := by
  simpa [CryptoSystem.after] using hinv

theorem nonceInv_swap {s : CryptoSystem} (hinv : NonceInv s.registry.handles s.usedKeys s.uses)
    {sessionId : String} {newSession : NewSessionData} (hunused : s.Unused newSession.trafficKeys) :
    let s' := s.after (s.registry.after (s.registry.swapForDualKey sessionId newSession))
    NonceInv s'.registry.handles s'.usedKeys s'.uses := by
  unfold SessionRegistry.swapForDualKey
  split
  next => exact nonceInv_same hinv
  next found _ =>
    split
    next => exact nonceInv_same hinv
    next =>
      dsimp only [SessionRegistry.after]
      exact nonceInv_install hinv rfl hunused

theorem length_zeroizeAll (r : SessionRegistry) (refs : List Nat) :
    (r.zeroizeAll refs).handles.length = r.handles.length := by
  induction refs generalizing r with
  | nil => rfl
  | cons ref refs ih => exact (ih _).trans (List.length_modify _ _ _)

/-- A registry with as many handles has used no further keys. -/
theorem usedKeys_after {s : CryptoSystem} {r : SessionRegistry}
    (hlength : r.handles.length = s.registry.handles.length) :
    (s.after r).usedKeys = s.usedKeys := by
  simp [CryptoSystem.after, ← hlength]

theorem nonceInv_expire {s : CryptoSystem} (hinv : NonceInv s.registry.handles s.usedKeys s.uses)
    (sessionId : String) :
    let s' := s.after (s.registry.expireDualKeyWindow sessionId)
    NonceInv s'.registry.handles s'.usedKeys s'.uses := by
  have hlength : (s.registry.expireDualKeyWindow sessionId).handles.length =
      s.registry.handles.length := by
    unfold SessionRegistry.expireDualKeyWindow
    split
    next => rfl
    next => exact (List.length_modify _ _ _).trans (length_zeroizeAll _ _)
  simp only [usedKeys_after hlength]
  exact hinv.expire sessionId

theorem nonceInv_close {s : CryptoSystem} (hinv : NonceInv s.registry.handles s.usedKeys s.uses)
    (sessionId : String) :
    let s' := s.after (s.registry.closeSession sessionId)
    NonceInv s'.registry.handles s'.usedKeys s'.uses := by
  have hlength : (s.registry.closeSession sessionId).handles.length =
      s.registry.handles.length := by
    unfold SessionRegistry.closeSession
    split
    next => rfl
    next => exact length_zeroizeAll _ _
  simp only [usedKeys_after hlength]
  exact hinv.close sessionId

theorem nonceInv_registry {s s' : CryptoSystem} {call : RegistryCall}
    (hinv : NonceInv s.registry.handles s.usedKeys s.uses) (hfresh : Fresh C s (.registry call))
    (hstep : cryptoStep C s (.registry call) = some s') :
    NonceInv s'.registry.handles s'.usedKeys s'.uses := by
  obtain ⟨r, happly, rfl⟩ := Option.map_eq_some_iff.mp hstep
  cases call with
  | createSession sessionId role authorizedTokenId data =>
      obtain rfl := Option.some.inj happly
      cases hcreate : s.registry.createSession sessionId role authorizedTokenId data with
      | error fault => exact nonceInv_same hinv
      | ok r =>
          simp only [SessionRegistry.createSession, bind_eq_ok, exists_unit, pure_eq_ok] at hcreate
          obtain ⟨-, rfl⟩ := hcreate
          dsimp only [SessionRegistry.after]
          refine nonceInv_install hinv rfl ?_
          exact hfresh
  | swapForDualKey sessionId newSession =>
      obtain rfl := Option.some.inj happly
      exact nonceInv_swap hinv hfresh
  | swapForDualKeyChainMode sessionId =>
      obtain rfl := Option.some.inj happly
      unfold SessionRegistry.swapForDualKeyChainMode
      split
      next => exact nonceInv_same hinv
      next found hfound =>
        split
        next => exact nonceInv_same hinv
        next hstate => exact nonceInv_swap hinv (hfresh found hfound hstate)
  | expireDualKeyWindow sessionId =>
      simp only [SessionRegistry.apply, Option.ite_none_right_eq_some, Option.some.injEq] at happly
      obtain ⟨-, rfl⟩ := happly
      exact nonceInv_expire hinv sessionId
  | closeSession sessionId =>
      obtain rfl := Option.some.inj happly
      exact nonceInv_close hinv sessionId

/-- Every event with fresh keys keeps the invariant. -/
theorem nonceInv_step {s s' : CryptoSystem} {event : CryptoEvent}
    (hinv : NonceInv s.registry.handles s.usedKeys s.uses) (hfresh : Fresh C s event)
    (hstep : cryptoStep C s event = some s') :
    NonceInv s'.registry.handles s'.usedKeys s'.uses := by
  cases event with
  | registry call => exact nonceInv_registry C hinv hfresh hstep
  | encrypt ref fields plaintext =>
      simp only [cryptoStep] at hstep
      split at hstep
      next => cases hstep
      next h hget =>
        obtain rfl := Option.some.inj hstep
        exact hinv.encrypt C hget (hfresh h hget) fields plaintext

theorem nonceInv_initial : NonceInv [] [] [] :=
  ⟨by simp, by simp, by simp, by simp, by simp, by simp, by simp⟩

/-- Over every run with fresh keys, no two cipher calls have a key and a nonce in common, and
none is made with zeroized key material. -/
theorem cipher_nonces_unique {events : List CryptoEvent} {s : CryptoSystem}
    (hfresh : Along (cryptoStep C) (Fresh C) .initial events)
    (hrun : run (cryptoStep C) .initial events = some s) :
    (s.uses.map fun use => (use.call.key, use.call.nonce)).Nodup ∧
      ∀ use ∈ s.uses, use.zeroized = false := by
  have hinv : NonceInv s.registry.handles s.usedKeys s.uses :=
    run_invariant (fun s => NonceInv s.registry.handles s.usedKeys s.uses)
      (fun _ _ _ hinv hfresh hstep => nonceInv_step C hinv hfresh hstep) nonceInv_initial
      hfresh hrun
  exact ⟨hinv.distinct, hinv.live⟩

namespace RekeyRun

open SampleSession in
/-- Two messages under the first key, and one under the key after the rekey. -/
def messages : List Sealed :=
  [⟨data.trafficKeys.initToResp, bigEndian 12 0x0100000000000000006182e9, price "8",
      bigEndian 27 0xf55ff386625e0ca0d7bb1a27553b7688bf1bb224fad6700580e55f⟩,
    ⟨data.trafficKeys.initToResp, bigEndian 12 0x0100000000000000016182e9, price "9",
      bigEndian 27 0x4ccb7aad65f93ae6b125a1d78c2f9fdca5771740aed97c6b60ac66⟩,
    ⟨rekeyed.initToResp, bigEndian 12 0x0100000000000000006182e9, price "9",
      bigEndian 27 0xfd256bf6d1a003d88d93b786e09e9de2cdfa07ec1605d9a67ff0b7⟩]

def ports : SessionCryptoPorts := SampleSession.ports messages

open SampleSession in
/-- A session that encrypts on its old handle after the rekey, and once more after the window
and the close. -/
def events : List CryptoEvent :=
  [.registry (.createSession sessionId .initiator (some tokenId) data),
    .encrypt 0 fields (price "8"), .registry (.swapForDualKeyChainMode sessionId),
    .encrypt 0 fields (price "9"), .encrypt 1 fields (price "9"),
    .registry (.expireDualKeyWindow sessionId), .encrypt 0 fields (price "9"),
    .registry (.closeSession sessionId), .encrypt 1 fields (price "9")]

theorem fresh : Along (cryptoStep ports) (Fresh ports) .initial events := by
  decide +kernel

theorem ran : (run (cryptoStep ports) .initial events).any
    (fun s => decide (s.uses.length = 3)) = true := by
  decide +kernel

end RekeyRun

/-- The run with a stale handle makes three cipher calls, on two handles. -/
theorem cipher_nonces_unique_rekey :
    ∃ s, run (cryptoStep RekeyRun.ports) .initial RekeyRun.events = some s ∧
      s.uses.length = 3 ∧ (s.uses.map fun use => (use.call.key, use.call.nonce)).Nodup ∧
      ∀ use ∈ s.uses, use.zeroized = false := by
  obtain ⟨s, hrun, hlength⟩ := (Option.any_eq_true _ _).mp RekeyRun.ran
  exact ⟨s, hrun, of_decide_eq_true hlength,
    cipher_nonces_unique RekeyRun.ports RekeyRun.fresh hrun⟩

end Coivitas.Communication
