import Coivitas.Communication.EncryptedBody

/-! # What a registry holds for a session

A session is seen through its current and previous handle. An operation on one session
leaves the view of every other session as it was, and changes its own in a way that can
be told from the view alone.
-/

namespace Coivitas.Communication

open Foundation Coivitas.Types OrderedMap

/-- The handles that the registry refers to for a session. -/
structure SessionView where
  current : SessionCryptoHandle
  previous : Option SessionCryptoHandle
  deriving DecidableEq

namespace SessionRegistry

variable (C : SessionCryptoPorts) {r r' r'' : SessionRegistry} {sessionId sessionId' : String}

def view (r : SessionRegistry) (sessionId : String) : Option SessionView :=
  (r.find sessionId).map fun found =>
    ⟨found.handle, found.entry.previousHandle.bind (r.handles[·]?)⟩

theorem find_of_get {entry : RegistryEntry} {handle : SessionCryptoHandle}
    (hentry : r.entries.get? sessionId = some entry)
    (hhandle : r.handles[entry.currentHandle]? = some handle) :
    r.find sessionId = some ⟨entry, handle, hentry, hhandle⟩ := by
  cases hfind : r.find sessionId with
  | none =>
      rw [find_eq_none_iff, hentry] at hfind
      cases hfind
  | some found =>
      obtain ⟨entry', handle', hentry', hhandle'⟩ := found
      obtain rfl := Option.some.inj (hentry.symm.trans hentry')
      obtain rfl := Option.some.inj (hhandle.symm.trans hhandle')
      rfl

theorem view_eq_some {v : SessionView} :
    r.view sessionId = some v ↔
      ∃ entry, r.entries.get? sessionId = some entry ∧
        r.handles[entry.currentHandle]? = some v.current ∧
        entry.previousHandle.bind (r.handles[·]?) = v.previous := by
  constructor
  · intro hview
    obtain ⟨found, -, rfl⟩ := Option.map_eq_some_iff.mp hview
    exact ⟨found.entry, found.get_entry, found.get_handle, rfl⟩
  · rintro ⟨entry, hentry, hhandle, hprevious⟩
    rw [view, find_of_get hentry hhandle, Option.map_some, hprevious]

theorem getElem?_alter {ref ref' : Nat} {f : SessionCryptoHandle → SessionCryptoHandle} {hf} :
    (r.alter ref f hf).handles[ref']? =
      r.handles[ref']?.map fun h => if ref = ref' then f h else h := by
  rw [alter, List.getElem?_modify]
  rfl

theorem get?_remove :
    (r.remove sessionId').entries.get? sessionId =
      if sessionId' = sessionId then none else r.entries.get? sessionId := by
  have hget : (r.entries.delete sessionId').get? sessionId =
      (r.entries.get? sessionId).filter fun _ => decide (sessionId ≠ sessionId') :=
    get?_filter _ _ _
  refine hget.trans ?_
  split
  next hsame => cases r.entries.get? sessionId <;> simp [Option.filter, hsame]
  next hne => cases r.entries.get? sessionId <;> simp [Option.filter, Ne.symm hne]

theorem view_eq_none : r.view sessionId = none ↔ r.entries.get? sessionId = none := by
  rw [view, Option.map_eq_none_iff, find_eq_none_iff]

/-! ## Other sessions -/

/-- The second registry has the entry and the handles of the session from the first. -/
def Untouched (sessionId : String) (r r' : SessionRegistry) : Prop :=
  r'.entries.get? sessionId = r.entries.get? sessionId ∧
    ∀ (ref : Nat) (h : SessionCryptoHandle), r.handles[ref]? = some h →
      h.sessionId = sessionId → r'.handles[ref]? = some h

theorem Untouched.refl (r : SessionRegistry) : Untouched sessionId r r :=
  ⟨rfl, fun _ _ hget _ => hget⟩

theorem Untouched.trans (h : Untouched sessionId r r') (h' : Untouched sessionId r' r'') :
    Untouched sessionId r r'' :=
  ⟨h'.1.trans h.1, fun ref handle hget hown => h'.2 ref handle (h.2 ref handle hget hown) hown⟩

theorem Untouched.view_eq (h : Untouched sessionId r r') :
    r'.view sessionId = r.view sessionId := by
  cases hview : r.view sessionId with
  | none =>
      rw [view_eq_none] at hview ⊢
      rw [h.1, hview]
  | some v =>
      obtain ⟨entry, hentry, hhandle, hprevious⟩ := view_eq_some.mp hview
      refine view_eq_some.mpr ⟨entry, h.1.trans hentry, ?_, ?_⟩
      · obtain ⟨current, hcurrent, hown⟩ := r.owned sessionId entry hentry entry.currentHandle
          List.mem_cons_self
        rw [h.2 _ _ hcurrent hown, ← hcurrent, hhandle]
      · rw [← hprevious]
        cases hold : entry.previousHandle with
        | none => rfl
        | some ref =>
            obtain ⟨old, hget, hown⟩ := r.owned sessionId entry hentry ref
              (by simp [RegistryEntry.references, hold])
            rw [Option.bind_some, Option.bind_some, h.2 _ _ hget hown, hget]

theorem untouched_alter {ref : Nat} {f : SessionCryptoHandle → SessionCryptoHandle} {hf}
    (hother : ∀ h ∈ r.handles[ref]?, h.sessionId ≠ sessionId) :
    Untouched sessionId r (r.alter ref f hf) := by
  refine ⟨rfl, fun ref' h hget hown => ?_⟩
  have hne : ref ≠ ref' := by
    rintro rfl
    exact hother h hget hown
  rw [getElem?_alter, hget, Option.map_some, if_neg hne]

theorem untouched_install {handle : SessionCryptoHandle} {previousHandle : Option Nat} {hprevious}
    (hother : handle.sessionId ≠ sessionId) :
    Untouched sessionId r (r.install handle previousHandle hprevious) := by
  refine ⟨?_, fun ref h hget _ => ?_⟩
  · rw [install, get?_set, if_neg hother]
  · exact (List.getElem?_append_left (List.getElem?_eq_some_iff.mp hget).1).trans hget

/-- References to handles of another session. -/
def Elsewhere (r : SessionRegistry) (sessionId : String) (refs : List Nat) : Prop :=
  ∀ ref ∈ refs, ∀ h ∈ r.handles[ref]?, h.sessionId ≠ sessionId

theorem Elsewhere.alter {refs : List Nat} (helse : r.Elsewhere sessionId refs) {ref : Nat}
    {f : SessionCryptoHandle → SessionCryptoHandle} {hf} :
    (r.alter ref f hf).Elsewhere sessionId refs := by
  intro ref' href' h hget
  rw [Option.mem_def, getElem?_alter] at hget
  obtain ⟨h₀, hget₀, rfl⟩ := Option.map_eq_some_iff.mp hget
  have hne := helse ref' href' h₀ hget₀
  split
  next => rwa [hf]
  next => exact hne

theorem Elsewhere.zeroizeAll {refs : List Nat} (helse : r.Elsewhere sessionId refs)
    (refs' : List Nat) : (r.zeroizeAll refs').Elsewhere sessionId refs := by
  induction refs' generalizing r with
  | nil => exact helse
  | cons ref refs' ih => exact ih helse.alter

theorem untouched_zeroizeAll {refs : List Nat} (helse : r.Elsewhere sessionId refs) :
    Untouched sessionId r (r.zeroizeAll refs) := by
  induction refs generalizing r with
  | nil => exact .refl r
  | cons ref refs ih =>
      have hhead := helse ref List.mem_cons_self
      have htail : r.Elsewhere sessionId refs :=
        fun ref' href' => helse ref' (List.mem_cons_of_mem _ href')
      exact (untouched_alter hhead).trans (ih htail.alter)

/-- The references of an entry lead to handles of its own session. -/
theorem elsewhere_references {entry : RegistryEntry}
    (hentry : r.entries.get? sessionId' = some entry) (hne : sessionId' ≠ sessionId) :
    r.Elsewhere sessionId entry.references := by
  intro ref href h hget
  obtain ⟨h', hget', hown⟩ := r.owned sessionId' entry hentry ref href
  obtain rfl := Option.some.inj (hget.symm.trans hget')
  rwa [hown]

theorem untouched_createSession {role : SessionRole} {token : Option String}
    {data : NewSessionData} (hne : sessionId' ≠ sessionId)
    (hcreate : r.createSession sessionId' role token data = .ok r') :
    Untouched sessionId r r' := by
  simp only [createSession, bind_eq_ok, exists_unit, pure_eq_ok] at hcreate
  obtain ⟨-, rfl⟩ := hcreate
  exact untouched_install hne

theorem untouched_swapForDualKey {data : NewSessionData} (hne : sessionId' ≠ sessionId)
    (hswap : r.swapForDualKey sessionId' data = .ok r') : Untouched sessionId r r' := by
  unfold swapForDualKey at hswap
  split at hswap
  next => cases hswap
  next found _ =>
    split at hswap
    next =>
      obtain rfl := Except.ok.inj hswap
      exact .refl r
    next =>
      obtain rfl := Except.ok.inj hswap
      refine untouched_install ?_
      rw [successor, found.sessionId_eq]
      exact hne

theorem untouched_swapForDualKeyChainMode (hne : sessionId' ≠ sessionId)
    (hswap : r.swapForDualKeyChainMode C sessionId' = .ok r') : Untouched sessionId r r' := by
  unfold swapForDualKeyChainMode at hswap
  split at hswap
  next => cases hswap
  next found _ =>
    split at hswap
    next =>
      obtain rfl := Except.ok.inj hswap
      exact .refl r
    next => exact untouched_swapForDualKey hne hswap

theorem untouched_endWindow (hne : sessionId' ≠ sessionId) :
    Untouched sessionId r (r.endWindow sessionId') := by
  refine ⟨?_, fun _ _ hget _ => hget⟩
  unfold endWindow
  dsimp only
  split
  next => rfl
  next => rw [get?_set, if_neg hne]

theorem untouched_expireDualKeyWindow (hne : sessionId' ≠ sessionId) :
    Untouched sessionId r (r.expireDualKeyWindow sessionId') := by
  unfold expireDualKeyWindow
  split
  next => exact .refl r
  next found _ =>
    have helse := elsewhere_references found.get_entry hne
    have hprevious : r.Elsewhere sessionId found.entry.previousHandle.toList :=
      fun ref href => helse ref (List.mem_cons_of_mem _ href)
    have hcurrent := helse.zeroizeAll found.entry.previousHandle.toList
      found.entry.currentHandle List.mem_cons_self
    exact ((untouched_zeroizeAll hprevious).trans (untouched_alter hcurrent)).trans
      (untouched_endWindow hne)

theorem untouched_closeSession (hne : sessionId' ≠ sessionId) :
    Untouched sessionId r (r.closeSession sessionId') := by
  unfold closeSession
  split
  next => exact .refl r
  next found _ =>
    refine (untouched_zeroizeAll (elsewhere_references found.get_entry hne)).trans
      ⟨?_, fun _ _ hget _ => hget⟩
    rw [get?_remove, if_neg hne]

/-- A call for one session leaves the others untouched. -/
theorem untouched_apply {call : RegistryCall} (hne : call.sessionId ≠ sessionId)
    (happly : r.apply C call = some r') : Untouched sessionId r r' := by
  cases call with
  | createSession sessionId' role token data =>
      obtain rfl := Option.some.inj happly
      cases hcreate : r.createSession sessionId' role token data with
      | error fault => exact .refl r
      | ok r' => exact untouched_createSession hne hcreate
  | swapForDualKey sessionId' data =>
      obtain rfl := Option.some.inj happly
      cases hswap : r.swapForDualKey sessionId' data with
      | error fault => exact .refl r
      | ok r' => exact untouched_swapForDualKey hne hswap
  | swapForDualKeyChainMode sessionId' =>
      obtain rfl := Option.some.inj happly
      cases hswap : r.swapForDualKeyChainMode C sessionId' with
      | error fault => exact .refl r
      | ok r' => exact untouched_swapForDualKeyChainMode C hne hswap
  | expireDualKeyWindow sessionId' =>
      simp only [apply, Option.ite_none_right_eq_some, Option.some.injEq] at happly
      obtain ⟨-, rfl⟩ := happly
      exact untouched_expireDualKeyWindow hne
  | closeSession sessionId' =>
      obtain rfl := Option.some.inj happly
      exact untouched_closeSession hne

/-- Encrypting for one session leaves the others untouched. -/
theorem untouched_encryptEnvelopeBody {params : EncryptEnvelopeBodyParams}
    (hne : params.sessionId ≠ sessionId) :
    Untouched sessionId r (encryptEnvelopeBody C r params).2 := by
  unfold encryptEnvelopeBody
  split
  next => exact .refl r
  next found _ =>
    split
    next => exact .refl r
    next =>
      dsimp only [encryptOn]
      exact untouched_alter (elsewhere_references found.get_entry hne _ List.mem_cons_self)

/-! ## The session itself -/

theorem lookupHandleForDecrypt_eq {keyId : String} :
    r.lookupHandleForDecrypt C sessionId keyId = (r.view sessionId).bind fun v =>
      if v.current.peerKeyId C = keyId then some v.current
      else v.previous.filter (·.peerKeyId C = keyId) := by
  unfold lookupHandleForDecrypt view
  cases r.find sessionId with
  | none => rfl
  | some found => rfl

theorem view_install {handle : SessionCryptoHandle} {previousHandle : Option Nat} {hprevious}
    (hsession : handle.sessionId = sessionId) :
    (r.install handle previousHandle hprevious).view sessionId =
      some ⟨handle, previousHandle.bind (r.handles[·]?)⟩ := by
  subst hsession
  refine view_eq_some.mpr ⟨⟨r.handles.length, previousHandle, previousHandle.isSome⟩, ?_, ?_, ?_⟩
  · rw [install, get?_set, if_pos rfl]
  · simp [install]
  · cases previousHandle with
    | none => rfl
    | some ref =>
        obtain ⟨h, hget, -⟩ := hprevious ref rfl
        exact List.getElem?_append_left (List.getElem?_eq_some_iff.mp hget).1

theorem view_createSession {role : SessionRole} {token : Option String} {data : NewSessionData}
    (hcreate : r.createSession sessionId role token data = .ok r') :
    r'.view sessionId = some
      { current :=
          { sessionId, generation := data.generation, role, authorizedTokenId := token
            state := .active, trafficKeys := data.trafficKeys, sessionSalt := data.sessionSalt
            rekeyChainKey := data.rekeyChainKey }
        previous := none } := by
  simp only [createSession, bind_eq_ok, exists_unit, pure_eq_ok] at hcreate
  obtain ⟨-, rfl⟩ := hcreate
  exact view_install rfl

/-- A chain-mode rekey makes the current handle the previous one, unless a window is open. -/
theorem view_swapForDualKeyChainMode {v : SessionView} (hview : r.view sessionId = some v) :
    ∃ r', r.swapForDualKeyChainMode C sessionId = .ok r' ∧
      r'.view sessionId = some (if v.current.state = .pendingRekey then v
        else ⟨successor v.current (nextGeneration C v.current), some v.current⟩) := by
  obtain ⟨found, hfound, rfl⟩ := Option.map_eq_some_iff.mp hview
  unfold swapForDualKeyChainMode swapForDualKey
  simp only [hfound]
  split
  next => exact ⟨r, rfl, hview⟩
  next hstate =>
    have hsession : (successor found.handle (nextGeneration C found.handle)).sessionId =
        sessionId := found.sessionId_eq
    refine ⟨_, rfl, (view_install hsession).trans ?_⟩
    rw [Option.bind_some, found.get_handle]

/-- A change of the current handle does not touch the previous one. -/
theorem view_alter_current {v : SessionView} {entry : RegistryEntry}
    (hentry : r.entries.get? sessionId = some entry) (hview : r.view sessionId = some v)
    {f : SessionCryptoHandle → SessionCryptoHandle} {hf} :
    (r.alter entry.currentHandle f hf).view sessionId = some { v with current := f v.current } := by
  obtain ⟨entry', hentry', hhandle, hprevious⟩ := view_eq_some.mp hview
  obtain rfl := Option.some.inj (hentry.symm.trans hentry')
  refine view_eq_some.mpr ⟨entry, hentry, ?_, ?_⟩
  · rw [getElem?_alter, hhandle]
    simp
  · rw [← hprevious]
    cases hold : entry.previousHandle with
    | none => rfl
    | some ref =>
        have hlt := r.older sessionId entry hentry ref hold
        rw [Option.bind_some, Option.bind_some, getElem?_alter]
        simp [hlt.ne']

theorem view_encryptOn (found : Found r sessionId) {v : SessionView}
    (hview : r.view sessionId = some v) (fields : AeadAadFields) (plaintext : List UInt8) :
    (r.encryptOn C found.entry.currentHandle fields plaintext).view sessionId =
      some { v with current := (v.current.encrypt C fields plaintext).2 } :=
  view_alter_current found.get_entry hview

/-- What a body made for the session holds, and the handle that made it. -/
theorem encryptEnvelopeBody_eq_ok {params : EncryptEnvelopeBodyParams} {body : EncryptedBody}
    {v : SessionView} (hview : r.view params.sessionId = some v)
    (hok : (encryptEnvelopeBody C r params).1 = .ok body) :
    v.current.authorizedTokenId = some params.capabilityTokenRef ∧
      ∃ ciphertext, aeadEncrypt C (v.current.nextCall C params.aadFields params.plaintext) =
          .ok ciphertext ∧
        body =
          { type := some params.bodyType
            ciphertext := toHex ciphertext
            aeadNonce := toHex (buildAeadNonce (ownDirection v.current.role)
              v.current.sequenceNumber v.current.sessionSalt)
            keyId := v.current.keyId C
            aadSummary := params.aadFields.aadSummary } := by
  obtain ⟨found, hfound, rfl⟩ := Option.map_eq_some_iff.mp hview
  unfold encryptEnvelopeBody at hok
  simp only [hfound] at hok
  split at hok
  next => cases hok
  next htoken =>
    refine ⟨not_not.mp htoken, ?_⟩
    simp only [SessionCryptoHandle.encrypt_eq] at hok
    split at hok
    next => cases hok
    next =>
      cases hsealed : aeadEncrypt C
        (found.handle.nextCall C params.aadFields params.plaintext) with
      | error fault =>
          rw [hsealed] at hok
          cases hok
      | ok ciphertext =>
          rw [hsealed] at hok
          exact ⟨ciphertext, rfl, (Except.ok.inj hok).symm⟩

/-- A session with the token of the caller encrypts what the cipher takes. -/
theorem exists_encryptEnvelopeBody {params : EncryptEnvelopeBodyParams} {v : SessionView}
    (hview : r.view params.sessionId = some v)
    (htoken : v.current.authorizedTokenId = some params.capabilityTokenRef)
    (hcheck : v.current.checkEncrypt = .ok ()) {ciphertext : List UInt8}
    (hencrypt : aeadEncrypt C (v.current.nextCall C params.aadFields params.plaintext) =
      .ok ciphertext) :
    ∃ body, (encryptEnvelopeBody C r params).1 = .ok body := by
  obtain ⟨found, hfound, rfl⟩ := Option.map_eq_some_iff.mp hview
  unfold encryptEnvelopeBody
  simp only [hfound]
  rw [if_neg (not_not.mpr htoken), SessionCryptoHandle.encrypt_eq]
  simp only [hcheck, hencrypt]
  exact ⟨_, rfl⟩

/-- Encrypting moves the counter of the current handle on, or leaves the session alone. -/
theorem view_encryptEnvelopeBody {params : EncryptEnvelopeBodyParams} {v : SessionView}
    (hview : r.view params.sessionId = some v) :
    (encryptEnvelopeBody C r params).2.view params.sessionId = some v ∧
        (∀ body, (encryptEnvelopeBody C r params).1 ≠ .ok body) ∨
      (encryptEnvelopeBody C r params).2.view params.sessionId =
        some { v with current :=
          { v.current with sequenceNumber := v.current.sequenceNumber + 1 } } := by
  obtain ⟨found, hfound, rfl⟩ := Option.map_eq_some_iff.mp hview
  unfold encryptEnvelopeBody
  simp only [hfound]
  split
  next => exact .inl ⟨hview, by simp⟩
  next =>
    have hafter := view_encryptOn C found hview params.aadFields params.plaintext
    simp only [SessionCryptoHandle.encrypt_eq] at hafter ⊢
    split at hafter
    next => exact .inl ⟨hafter, by simp [Except.map]⟩
    next => exact .inr hafter

theorem getElem?_zeroizeAll_of_notMem {refs : List Nat} {ref : Nat} (hnot : ref ∉ refs) :
    (r.zeroizeAll refs).handles[ref]? = r.handles[ref]? := by
  induction refs generalizing r with
  | nil => rfl
  | cons ref' refs ih =>
      rw [List.mem_cons, not_or] at hnot
      refine (ih hnot.2).trans ?_
      rw [getElem?_alter]
      simp [Ne.symm hnot.1]

theorem entries_zeroizeAll (refs : List Nat) : (r.zeroizeAll refs).entries = r.entries := by
  induction refs generalizing r with
  | nil => rfl
  | cons ref refs ih => exact ih

/-- The end of the window leaves the current handle, active. -/
theorem view_expireDualKeyWindow {v : SessionView} (hview : r.view sessionId = some v) :
    (r.expireDualKeyWindow sessionId).view sessionId = some ⟨activate v.current, none⟩ := by
  obtain ⟨entry, hentry, hhandle, -⟩ := view_eq_some.mp hview
  have hnot : entry.currentHandle ∉ entry.previousHandle.toList := by
    intro hmem
    exact absurd (r.older sessionId entry hentry _ (Option.mem_toList.mp hmem)) (lt_irrefl _)
  rw [expireDualKeyWindow, find_of_get hentry hhandle]
  refine view_eq_some.mpr
    ⟨{ entry with previousHandle := none, dualKeyTimer := false }, ?_, ?_, rfl⟩
  · have hkept : (((r.zeroizeAll entry.previousHandle.toList).alter entry.currentHandle activate
        sessionId_activate).entries.get? sessionId) = some entry := by
      exact (congrArg (·.get? sessionId)
        (entries_zeroizeAll entry.previousHandle.toList)).trans hentry
    simp only [endWindow, hkept]
    rw [get?_set, if_pos rfl]
  · have hget : ((r.zeroizeAll entry.previousHandle.toList).alter entry.currentHandle activate
        sessionId_activate).handles[entry.currentHandle]? = some (activate v.current) := by
      rw [getElem?_alter, getElem?_zeroizeAll_of_notMem hnot, hhandle]
      simp
    exact hget

end SessionRegistry

end Coivitas.Communication
