import Coivitas.Communication.NonceUniqueness
import Coivitas.Communication.SessionViews

/-! # What a registry keeps of its sessions

Runs of a registry with the timers of its dual-key windows. A timer is pending from the
call that sets it until it fires or is cleared; it may fire between any two calls, and
only then does the registry end a window.
-/

namespace Coivitas.Communication

open Foundation Coivitas.Types OrderedMap

/-! ## The place of a handle -/

/-- What a handle is to the registry: the only one of its session, one of the two of a
dual-key window, or no longer registered. -/
inductive Place where
  | alone | newer | older | released
  deriving DecidableEq

def Place.state : Place → SessionHandleState
  | alone => .active
  | newer => .pendingRekey
  | older => .active
  | released => .closed

/-- The place of a handle in the entry of its session. -/
def place (entry : Option RegistryEntry) (ref : Nat) : Place :=
  match entry with
  | none => .released
  | some entry =>
      if ref = entry.currentHandle then
        if entry.previousHandle = none then .alone else .newer
      else if entry.previousHandle = some ref then .older
      else .released

def SessionCryptoHandle.keyMaterial (h : SessionCryptoHandle) : List UInt8 :=
  h.trafficKeys.initToResp ++ h.trafficKeys.respToInit ++ h.sessionSalt ++ h.rekeyChainKey

/-- A handle in the state of its place, with its keys until it is released. -/
structure Fits (p : Place) (h : SessionCryptoHandle) : Prop where
  state : h.state = p.state
  zeroized : h.zeroized = decide (p = .released)
  wiped : p = .released → ∀ b ∈ h.keyMaterial, b = 0

/-- A handle is released when the entry of its session does not refer to it. -/
theorem place_eq_released_iff {entry : RegistryEntry} {ref : Nat} :
    place (some entry) ref = .released ↔ ref ∉ entry.references := by
  simp only [place, RegistryEntry.references, List.mem_cons, Option.mem_toList, not_or]
  split
  next hcurrent => split <;> simp [hcurrent]
  next hcurrent => split <;> simp_all

theorem Fits.zeroize {p : Place} {h : SessionCryptoHandle} (hfits : Fits p h) :
    Fits .released h.zeroize := by
  unfold SessionCryptoHandle.zeroize
  split
  next hzeroized =>
    have hp : p = .released := by simpa [hzeroized] using hfits.zeroized
    exact hp ▸ hfits
  next =>
    refine ⟨rfl, rfl, ?_⟩
    simp [SessionCryptoHandle.keyMaterial, SessionCryptoHandle.fillZero]

/-- The current handle is alone once the window has ended. -/
theorem Fits.activate {entry : RegistryEntry} {h : SessionCryptoHandle}
    (hfits : Fits (place (some entry) entry.currentHandle) h) :
    Fits .alone (SessionRegistry.activate h) := by
  obtain ⟨hstate, hzeroized, -⟩ := hfits
  unfold SessionRegistry.activate
  simp only [place, if_true] at hstate hzeroized
  split at hstate
  next hnone =>
    have hne : h.state ≠ .pendingRekey := by simp [hstate, Place.state]
    rw [if_neg hne]
    exact ⟨hstate, by simpa [hnone] using hzeroized, by simp⟩
  next hsome =>
    have hpending : h.state = .pendingRekey := hstate
    rw [if_pos hpending]
    exact ⟨rfl, by simpa [hsome, SessionCryptoHandle.setState] using hzeroized, by simp⟩

namespace SessionRegistry

/-! ## The handles and entries after an operation -/

variable {r : SessionRegistry} {sessionId : String} {entry : RegistryEntry}

theorem zeroize_zeroize (h : SessionCryptoHandle) : h.zeroize.zeroize = h.zeroize := by
  have hzeroized : h.zeroize.zeroized = true := by
    unfold SessionCryptoHandle.zeroize
    split
    next hzeroized => exact hzeroized
    next => rfl
  rw [SessionCryptoHandle.zeroize, if_pos hzeroized]

theorem getElem?_zeroizeAll (refs : List Nat) (i : Nat) :
    (r.zeroizeAll refs).handles[i]? =
      r.handles[i]?.map fun h => if i ∈ refs then h.zeroize else h := by
  induction refs generalizing r with
  | nil => simp [zeroizeAll]
  | cons ref refs ih =>
      have hstep : r.zeroizeAll (ref :: refs) =
          (r.alter ref SessionCryptoHandle.zeroize sessionId_zeroize).zeroizeAll refs := rfl
      rw [hstep, ih, getElem?_alter, Option.map_map]
      congr 1
      funext h
      by_cases href : ref = i
      · simp [href, zeroize_zeroize]
      · simp [href, Ne.symm href]

theorem find_of_entry (hentry : r.entries.get? sessionId = some entry) :
    ∃ handle hhandle, r.find sessionId = some ⟨entry, handle, hentry, hhandle⟩ := by
  obtain ⟨handle, hhandle, -⟩ := r.owned sessionId entry hentry entry.currentHandle
    List.mem_cons_self
  exact ⟨handle, hhandle, find_of_get hentry hhandle⟩

/-- The end of a window wipes the previous handle and activates the current one. -/
theorem handles_expireDualKeyWindow (hentry : r.entries.get? sessionId = some entry) (i : Nat) :
    (r.expireDualKeyWindow sessionId).handles[i]? = r.handles[i]?.map fun h =>
      if entry.previousHandle = some i then h.zeroize
      else if i = entry.currentHandle then activate h else h := by
  obtain ⟨handle, hhandle, hfind⟩ := find_of_entry hentry
  simp only [expireDualKeyWindow, hfind, endWindow, getElem?_alter, getElem?_zeroizeAll,
    Option.map_map]
  congr 1
  funext h
  by_cases hprevious : entry.previousHandle = some i
  · have hne : entry.currentHandle ≠ i := (r.older sessionId entry hentry i hprevious).ne'
    simp [hprevious, hne]
  · simp [hprevious, eq_comm]

theorem entries_expireDualKeyWindow (hentry : r.entries.get? sessionId = some entry)
    (other : String) :
    (r.expireDualKeyWindow sessionId).entries.get? other =
      if sessionId = other then some { entry with previousHandle := none, dualKeyTimer := false }
      else r.entries.get? other := by
  obtain ⟨handle, hhandle, hfind⟩ := find_of_entry hentry
  simp only [expireDualKeyWindow, hfind, endWindow, alter, entries_zeroizeAll, hentry, get?_set]

theorem handles_closeSession (hentry : r.entries.get? sessionId = some entry) (i : Nat) :
    (r.closeSession sessionId).handles[i]? =
      r.handles[i]?.map fun h => if i ∈ entry.references then h.zeroize else h := by
  obtain ⟨handle, hhandle, hfind⟩ := find_of_entry hentry
  simp only [closeSession, hfind, remove, getElem?_zeroizeAll]

theorem entries_closeSession (other : String) :
    (r.closeSession sessionId).entries.get? other =
      if sessionId = other then none else r.entries.get? other := by
  unfold closeSession
  split
  next hfind =>
    split
    next hsame => rw [← hsame, find_eq_none_iff.mp hfind]
    next => rfl
  next found _ => rw [get?_remove, entries_zeroizeAll]

/-- The registry with a window for a new generation of keys. -/
def Found.opened (found : Found r sessionId) (data : NewSessionData) : SessionRegistry :=
  r.install (successor found.handle data) (some found.entry.currentHandle)
    (fun _ href => ⟨found.handle, Option.some.inj href ▸ found.get_handle, rfl⟩)

theorem entries_opened (found : Found r sessionId) (data : NewSessionData) (other : String) :
    (found.opened data).entries.get? other =
      if sessionId = other then
        some ⟨r.handles.length, some found.entry.currentHandle, true⟩
      else r.entries.get? other := by
  have hsession : (successor found.handle data).sessionId = sessionId := found.sessionId_eq
  rw [Found.opened, install, get?_set, hsession]
  rfl

/-- What a rekey does to a registry: nothing inside a window, else it opens one. -/
def Rekeyed (r r' : SessionRegistry) (sessionId : String) : Prop :=
  ∃ found : Found r sessionId, r.find sessionId = some found ∧
    (found.handle.state = .pendingRekey ∧ r' = r ∨
      found.handle.state ≠ .pendingRekey ∧ ∃ data, r' = found.opened data)

theorem rekeyed_of_swapForDualKey {r' : SessionRegistry} {data : NewSessionData}
    (hswap : r.swapForDualKey sessionId data = .ok r') : Rekeyed r r' sessionId := by
  unfold swapForDualKey at hswap
  split at hswap
  next => cases hswap
  next found hfound =>
    split at hswap
    next hstate => exact ⟨found, hfound, .inl ⟨hstate, (Except.ok.inj hswap).symm⟩⟩
    next hstate => exact ⟨found, hfound, .inr ⟨hstate, data, (Except.ok.inj hswap).symm⟩⟩

theorem rekeyed_of_swapForDualKeyChainMode (C : SessionCryptoPorts) {r' : SessionRegistry}
    (hswap : r.swapForDualKeyChainMode C sessionId = .ok r') : Rekeyed r r' sessionId := by
  unfold swapForDualKeyChainMode at hswap
  split at hswap
  next => cases hswap
  next found hfound =>
    split at hswap
    next hstate => exact ⟨found, hfound, .inl ⟨hstate, (Except.ok.inj hswap).symm⟩⟩
    next => exact rekeyed_of_swapForDualKey hswap

/-- The reference to a handle of another session is not in the entry. -/
theorem notMem_references (hentry : r.entries.get? sessionId = some entry) {ref : Nat}
    {h : SessionCryptoHandle} (hget : r.handles[ref]? = some h) (hother : h.sessionId ≠ sessionId) :
    ref ∉ entry.references := by
  intro href
  obtain ⟨h', hget', hown⟩ := r.owned sessionId entry hentry ref href
  rw [hget] at hget'
  obtain rfl := Option.some.inj hget'
  exact hother hown

end SessionRegistry

/-! ## Every handle fits its place -/

open SessionRegistry

/-- Every handle fits its place, and a timer is noted for the sessions in a window. -/
structure GenerationInv (r : SessionRegistry) : Prop where
  fits : ∀ ref h, r.handles[ref]? = some h → Fits (place (r.entries.get? h.sessionId) ref) h
  timed : ∀ sessionId entry, r.entries.get? sessionId = some entry →
    entry.dualKeyTimer = entry.previousHandle.isSome

namespace GenerationInv

variable {r r' : SessionRegistry} {sessionId : String} {entry : RegistryEntry}

/-- The handle that an entry refers to fits its place there. -/
theorem of_mem (hinv : GenerationInv r) (hentry : r.entries.get? sessionId = some entry)
    {ref : Nat} (href : ref ∈ entry.references) :
    ∃ h, r.handles[ref]? = some h ∧ h.sessionId = sessionId ∧ Fits (place (some entry) ref) h := by
  obtain ⟨h, hget, hsession⟩ := r.owned sessionId entry hentry ref href
  refine ⟨h, hget, hsession, ?_⟩
  have hfits := hinv.fits ref h hget
  rwa [hsession, hentry] at hfits

/-- A change of the handles and the entry of one session. -/
theorem change (hinv : GenerationInv r) (sessionId : String)
    (g : Nat → SessionCryptoHandle → SessionCryptoHandle)
    (hhandles : ∀ ref, r'.handles[ref]? = r.handles[ref]?.map (g ref))
    (hentries : ∀ other, other ≠ sessionId → r'.entries.get? other = r.entries.get? other)
    (hothers : ∀ ref h, r.handles[ref]? = some h → h.sessionId ≠ sessionId → g ref h = h)
    (hsession : ∀ ref h, (g ref h).sessionId = h.sessionId)
    (hfits : ∀ ref h, Fits (place (r.entries.get? sessionId) ref) h →
      Fits (place (r'.entries.get? sessionId) ref) (g ref h))
    (htimed : ∀ entry, r'.entries.get? sessionId = some entry →
      entry.dualKeyTimer = entry.previousHandle.isSome) : GenerationInv r' where
  fits ref h' hget' := by
    rw [hhandles] at hget'
    obtain ⟨h, hget, rfl⟩ := Option.map_eq_some_iff.mp hget'
    have hold := hinv.fits ref h hget
    rw [hsession]
    by_cases hsame : h.sessionId = sessionId
    · rw [hsame] at hold ⊢
      exact hfits ref h hold
    · rw [hentries _ hsame, hothers ref h hget hsame]
      exact hold
  timed other entry hentry := by
    by_cases hsame : other = sessionId
    · exact htimed entry (hsame ▸ hentry)
    · exact hinv.timed other entry (hentries other hsame ▸ hentry)

theorem empty : GenerationInv .empty :=
  ⟨by simp [SessionRegistry.empty], by simp [SessionRegistry.empty]⟩

theorem expireDualKeyWindow (hinv : GenerationInv r) (sessionId : String) :
    GenerationInv (r.expireDualKeyWindow sessionId) := by
  cases hentry : r.entries.get? sessionId with
  | none =>
      rw [SessionRegistry.expireDualKeyWindow, find_eq_none_iff.mpr hentry]
      exact hinv
  | some entry =>
      refine hinv.change sessionId _ (handles_expireDualKeyWindow hentry) ?_ ?_ ?_ ?_ ?_
      · intro other hother
        rw [entries_expireDualKeyWindow hentry, if_neg hother.symm]
      · intro ref h hget hother
        have hnot := notMem_references hentry hget hother
        simp only [RegistryEntry.references, List.mem_cons, Option.mem_toList, not_or] at hnot
        rw [if_neg hnot.2, if_neg hnot.1]
      · intro ref h
        split
        next => exact sessionId_zeroize h
        next => split <;> simp [sessionId_activate]
      · intro ref h hfits
        rw [entries_expireDualKeyWindow hentry, if_pos rfl]
        rw [hentry] at hfits
        split
        next hprevious =>
          have hne : ref ≠ entry.currentHandle :=
            (r.older sessionId entry hentry ref hprevious).ne
          simpa [place, hne] using hfits.zeroize
        next hprevious =>
          split
          next hcurrent =>
            subst hcurrent
            simpa [place] using hfits.activate
          next hcurrent => simpa [place, hcurrent, hprevious] using hfits
      · intro entry' hentry'
        rw [entries_expireDualKeyWindow hentry, if_pos rfl, Option.some.injEq] at hentry'
        simp [← hentry']

theorem closeSession (hinv : GenerationInv r) (sessionId : String) :
    GenerationInv (r.closeSession sessionId) := by
  cases hentry : r.entries.get? sessionId with
  | none =>
      rw [SessionRegistry.closeSession, find_eq_none_iff.mpr hentry]
      exact hinv
  | some entry =>
      refine hinv.change sessionId _ (handles_closeSession hentry) ?_ ?_ ?_ ?_ ?_
      · intro other hother
        rw [entries_closeSession, if_neg hother.symm]
      · intro ref h hget hother
        rw [if_neg (notMem_references hentry hget hother)]
      · intro ref h
        split <;> simp [sessionId_zeroize]
      · intro ref h hfits
        rw [entries_closeSession, if_pos rfl]
        rw [hentry] at hfits
        split
        next => exact hfits.zeroize
        next hnot => rwa [place_eq_released_iff.mpr hnot] at hfits
      · simp [entries_closeSession]

/-- A new handle takes its place, and the one it follows becomes the older one. -/
theorem install (hinv : GenerationInv r) {handle : SessionCryptoHandle}
    {previousHandle : Option Nat} {hprevious}
    (hbefore : ∀ ref h, Fits (place (r.entries.get? handle.sessionId) ref) h →
      Fits (if previousHandle = some ref then .older else .released) h)
    (hfits : Fits (if previousHandle = none then .alone else .newer) handle) :
    GenerationInv (r.install handle previousHandle hprevious) where
  fits ref h hget := by
    simp only [SessionRegistry.install] at hget ⊢
    rw [get?_set]
    rcases lt_trichotomy ref r.handles.length with hlt | rfl | hgt
    · rw [List.getElem?_append_left hlt] at hget
      have hold := hinv.fits ref h hget
      split
      next hsame =>
        rw [← hsame] at hold
        simpa [place, hlt.ne] using hbefore ref h hold
      next => exact hold
    · obtain rfl : handle = h := by simpa using hget
      rw [if_pos rfl]
      simpa [place] using hfits
    · rw [List.getElem?_eq_none (by simpa using Nat.succ_le_of_lt hgt)] at hget
      cases hget
  timed other entry hentry := by
    simp only [SessionRegistry.install, get?_set] at hentry
    split at hentry
    next => simp [← Option.some.inj hentry]
    next => exact hinv.timed other entry hentry

theorem createSession (hinv : GenerationInv r) {role : SessionRole} {token : Option String}
    {data : NewSessionData} (hcreate : r.createSession sessionId role token data = .ok r') :
    GenerationInv r' := by
  simp only [SessionRegistry.createSession, bind_eq_ok, exists_unit, pure_eq_ok,
    require_eq_ok] at hcreate
  obtain ⟨hnew, rfl⟩ := hcreate
  have hnone : r.entries.get? sessionId = none := by simpa [OrderedMap.has] using hnew
  refine hinv.install ?_ ⟨rfl, by simp, by simp⟩
  intro ref h hfits
  simpa [hnone, place] using hfits

/-- Outside a window, the current handle is the only one of its session. -/
theorem alone_of_state (hinv : GenerationInv r) (found : Found r sessionId)
    (hstate : found.handle.state ≠ .pendingRekey) : found.entry.previousHandle = none := by
  have hfits := hinv.fits _ _ found.get_handle
  rw [found.sessionId_eq, found.get_entry] at hfits
  by_contra hprevious
  refine hstate ?_
  rw [hfits.state]
  simp [place, hprevious, Place.state]

/-- A rekey opens a window on a session that has none. -/
theorem opened (hinv : GenerationInv r) (found : Found r sessionId)
    (hstate : found.handle.state ≠ .pendingRekey) (data : NewSessionData) :
    GenerationInv (found.opened data) := by
  have halone := hinv.alone_of_state found hstate
  refine hinv.install ?_ ⟨rfl, by simp [successor], by simp⟩
  intro ref h hfits
  have hsession : (successor found.handle data).sessionId = sessionId := found.sessionId_eq
  rw [hsession, found.get_entry] at hfits
  by_cases href : ref = found.entry.currentHandle
  · subst href
    simp only [place, halone, if_true] at hfits
    simpa using ⟨hfits.state, hfits.zeroized, by simp⟩
  · simpa [place, href, halone, Ne.symm href] using hfits

theorem encryptOn (C : SessionCryptoPorts) (hinv : GenerationInv r) (ref : Nat)
    (fields : AeadAadFields) (plaintext : List UInt8) :
    GenerationInv (r.encryptOn C ref fields plaintext) where
  fits i h' hget' := by
    rw [SessionRegistry.encryptOn, getElem?_alter] at hget'
    obtain ⟨h, hget, rfl⟩ := Option.map_eq_some_iff.mp hget'
    have hold := hinv.fits i h hget
    split
    next =>
      rw [SessionCryptoHandle.encrypt_eq]
      split
      next => exact hold
      next => exact ⟨hold.state, hold.zeroized, hold.wiped⟩
    next => exact hold
  timed := hinv.timed

end GenerationInv

/-! ## The timers -/

/-- A timer that has neither fired nor been cleared, with the session that its callback
names and the handle whose window it ends. -/
structure PendingTimer where
  sessionId : String
  window : Nat
  deriving DecidableEq

/-- A registry, the timers that its entries hold and the pending timers of the platform,
which numbers them as they are set. -/
structure TimedRegistry where
  registry : SessionRegistry
  dualKeyTimers : OrderedMap String Nat
  pending : OrderedMap Nat PendingTimer
  nextTimer : Nat

namespace TimedRegistry

def initial : TimedRegistry := ⟨.empty, .empty, .empty, 0⟩

/-- `setTimeout` at the end of a rekey. -/
def openWindow (t : TimedRegistry) (sessionId : String) (r : SessionRegistry) : TimedRegistry where
  registry := r
  dualKeyTimers := t.dualKeyTimers.set sessionId t.nextTimer
  pending := t.pending.set t.nextTimer ⟨sessionId, t.registry.handles.length⟩
  nextTimer := t.nextTimer + 1

def isPendingRekey (t : TimedRegistry) (sessionId : String) : Bool :=
  (t.registry.find sessionId).any fun found => found.handle.state = .pendingRekey

/-- The outcome of a rekey; inside a window nothing happened and no timer is set. -/
def swapped (t : TimedRegistry) (sessionId : String) :
    Except Fault SessionRegistry → TimedRegistry
  | .error _ => t
  | .ok r =>
      if t.isPendingRekey sessionId then { t with registry := r } else t.openWindow sessionId r

/-- A timer fires: it is no longer pending, and its callback runs. -/
def fire (t : TimedRegistry) (id : Nat) (sessionId : String) : TimedRegistry where
  registry := t.registry.expireDualKeyWindow sessionId
  dualKeyTimers := t.dualKeyTimers.delete sessionId
  pending := t.pending.delete id
  nextTimer := t.nextTimer

/-- A session is closed; `clearTimeout` drops the timer of its entry. -/
def closeSession (t : TimedRegistry) (sessionId : String) : TimedRegistry where
  registry := t.registry.closeSession sessionId
  dualKeyTimers := t.dualKeyTimers.delete sessionId
  pending := match t.dualKeyTimers.get? sessionId with
    | none => t.pending
    | some id => t.pending.delete id
  nextTimer := t.nextTimer

end TimedRegistry

/-- What happens to a registry with its timers and handles. -/
inductive RegistryEvent where
  | createSession (sessionId : String) (role : SessionRole) (authorizedTokenId : Option String)
      (data : NewSessionData)
  | swapForDualKey (sessionId : String) (newSession : NewSessionData)
  | swapForDualKeyChainMode (sessionId : String)
  | fire (id : Nat)
  | closeSession (sessionId : String)
  | encrypt (ref : Nat) (fields : AeadAadFields) (plaintext : List UInt8)

variable (C : SessionCryptoPorts)

/-- One event; only pending timers fire, and only handles that were made encrypt. -/
def registryStep (t : TimedRegistry) : RegistryEvent → Option TimedRegistry
  | .createSession sessionId role authorizedTokenId data =>
      some { t with
        registry := t.registry.after
          (t.registry.createSession sessionId role authorizedTokenId data) }
  | .swapForDualKey sessionId newSession =>
      some (t.swapped sessionId (t.registry.swapForDualKey sessionId newSession))
  | .swapForDualKeyChainMode sessionId =>
      some (t.swapped sessionId (t.registry.swapForDualKeyChainMode C sessionId))
  | .fire id => (t.pending.get? id).map fun timer => t.fire id timer.sessionId
  | .closeSession sessionId => some (t.closeSession sessionId)
  | .encrypt ref fields plaintext =>
      if ref < t.registry.handles.length then
        some { t with registry := t.registry.encryptOn C ref fields plaintext }
      else none

/-- The pending timers are those of the entries, each set for the window that is open. -/
structure TimerInv (t : TimedRegistry) : Prop where
  noted : ∀ sessionId, (t.dualKeyTimers.get? sessionId).isSome =
    (t.registry.entries.get? sessionId).any (·.dualKeyTimer)
  armed : ∀ sessionId id, t.dualKeyTimers.get? sessionId = some id →
    ∃ timer, t.pending.get? id = some timer ∧ timer.sessionId = sessionId
  current : ∀ id timer, t.pending.get? id = some timer →
    t.dualKeyTimers.get? timer.sessionId = some id ∧
      ∃ entry, t.registry.entries.get? timer.sessionId = some entry ∧
        entry.currentHandle = timer.window
  fresh : ∀ id timer, t.pending.get? id = some timer → id < t.nextTimer

namespace TimerInv

variable {t : TimedRegistry} {sessionId : String}

theorem initial : TimerInv .initial :=
  ⟨by simp [TimedRegistry.initial, SessionRegistry.empty], by simp [TimedRegistry.initial],
    by simp [TimedRegistry.initial], by simp [TimedRegistry.initial]⟩

/-- A change of the registry that leaves the entries with a timer alone. -/
theorem withRegistry (hinv : TimerInv t) {r : SessionRegistry}
    (hentries : ∀ sessionId, r.entries.get? sessionId = t.registry.entries.get? sessionId ∨
      t.registry.entries.get? sessionId = none ∧
        (r.entries.get? sessionId).any (·.dualKeyTimer) = false) :
    TimerInv { t with registry := r } where
  noted sessionId := by
    rw [hinv.noted]
    rcases hentries sessionId with hsame | ⟨hnone, hidle⟩
    · rw [hsame]
    · rw [hidle, hnone]
      rfl
  armed := hinv.armed
  current id timer hpending := by
    obtain ⟨hnoted, entry, hentry, hcurrent⟩ := hinv.current id timer hpending
    refine ⟨hnoted, entry, ?_, hcurrent⟩
    rcases hentries timer.sessionId with hsame | ⟨hnone, -⟩
    · exact hsame.trans hentry
    · rw [hnone] at hentry
      cases hentry
  fresh := hinv.fresh

/-- The end of a session's window, or of the session, takes its timer away. -/
theorem withoutTimer (hinv : TimerInv t) {r : SessionRegistry}
    {pending : OrderedMap Nat PendingTimer}
    (hothers : ∀ other, other ≠ sessionId →
      r.entries.get? other = t.registry.entries.get? other)
    (hidle : (r.entries.get? sessionId).any (·.dualKeyTimer) = false)
    (hpending : ∀ id timer, pending.get? id = some timer ↔
      t.pending.get? id = some timer ∧ timer.sessionId ≠ sessionId) :
    TimerInv ⟨r, t.dualKeyTimers.delete sessionId, pending, t.nextTimer⟩ where
  noted other := by
    simp only [get?_delete]
    split
    next hsame => rw [hsame, hidle]; rfl
    next hne => rw [hinv.noted, hothers other hne]
  armed other id hid := by
    simp only [get?_delete] at hid
    split at hid
    next => cases hid
    next hne =>
      obtain ⟨timer, htimer, hsession⟩ := hinv.armed other id hid
      exact ⟨timer, (hpending id timer).mpr ⟨htimer, hsession ▸ hne⟩, hsession⟩
  current id timer htimer := by
    obtain ⟨hold, hne⟩ := (hpending id timer).mp htimer
    obtain ⟨hnoted, entry, hentry, hcurrent⟩ := hinv.current id timer hold
    refine ⟨?_, entry, (hothers _ hne).trans hentry, hcurrent⟩
    rw [get?_delete, if_neg hne]
    exact hnoted
  fresh id timer htimer := hinv.fresh id timer ((hpending id timer).mp htimer).1

/-- Without the timer of a session, the timers of the other sessions are pending. -/
theorem pending_delete (hinv : TimerInv t) {id : Nat}
    (hid : t.dualKeyTimers.get? sessionId = some id) (other : Nat) (timer : PendingTimer) :
    (t.pending.delete id).get? other = some timer ↔
      t.pending.get? other = some timer ∧ timer.sessionId ≠ sessionId := by
  rw [get?_delete]
  constructor
  · intro hother
    split at hother
    next => cases hother
    next hne =>
      refine ⟨hother, ?_⟩
      rintro rfl
      have hnoted := (hinv.current other timer hother).1
      rw [hid] at hnoted
      exact hne (Option.some.inj hnoted).symm
  · rintro ⟨hother, hne⟩
    obtain ⟨timer', htimer', hsession⟩ := hinv.armed sessionId id hid
    have hids : other ≠ id := by
      rintro rfl
      rw [hother] at htimer'
      obtain rfl := Option.some.inj htimer'
      exact hne hsession
    rwa [if_neg hids]

theorem createSession (hinv : TimerInv t) (role : SessionRole) (token : Option String)
    (data : NewSessionData) :
    TimerInv { t with
      registry := t.registry.after (t.registry.createSession sessionId role token data) } := by
  refine hinv.withRegistry fun other => ?_
  cases hcreate : t.registry.createSession sessionId role token data with
  | error fault => exact .inl rfl
  | ok r =>
      simp only [SessionRegistry.createSession, bind_eq_ok, exists_unit, pure_eq_ok,
        require_eq_ok] at hcreate
      obtain ⟨hnew, rfl⟩ := hcreate
      have hnone : t.registry.entries.get? sessionId = none := by
        simpa [OrderedMap.has] using hnew
      simp only [after, install, get?_set]
      split
      next hsame => exact .inr ⟨hsame ▸ hnone, rfl⟩
      next => exact .inl rfl

/-- The window of a session without a timer is opened with one. -/
theorem openWindow (hinv : TimerInv t) (found : Found t.registry sessionId)
    (hidle : found.entry.dualKeyTimer = false) (data : NewSessionData) :
    TimerInv (t.openWindow sessionId (found.opened data)) := by
  have hnoTimer : t.dualKeyTimers.get? sessionId = none := by
    have hnoted := hinv.noted sessionId
    rw [found.get_entry, Option.any_some, hidle] at hnoted
    simpa using hnoted
  refine ⟨?_, ?_, ?_, ?_⟩
  · intro other
    simp only [TimedRegistry.openWindow, get?_set, entries_opened]
    split
    next => rfl
    next => exact hinv.noted other
  · intro other id hid
    simp only [TimedRegistry.openWindow, get?_set] at hid ⊢
    split at hid
    next hsame =>
      obtain rfl := Option.some.inj hid
      exact ⟨_, if_pos rfl, hsame⟩
    next =>
      obtain ⟨timer, htimer, hsession⟩ := hinv.armed other id hid
      exact ⟨timer, by rw [if_neg (hinv.fresh id timer htimer).ne', htimer], hsession⟩
  · intro id timer htimer
    simp only [TimedRegistry.openWindow, get?_set, entries_opened] at htimer ⊢
    split at htimer
    next hsame =>
      obtain rfl := Option.some.inj htimer
      exact ⟨by rw [if_pos rfl, hsame], _, if_pos rfl, rfl⟩
    next =>
      obtain ⟨hnoted, hentry⟩ := hinv.current id timer htimer
      have hne : sessionId ≠ timer.sessionId := by
        rintro rfl
        rw [hnoTimer] at hnoted
        cases hnoted
      rw [if_neg hne, if_neg hne]
      exact ⟨hnoted, hentry⟩
  · intro id timer htimer
    simp only [TimedRegistry.openWindow, get?_set] at htimer ⊢
    split at htimer
    next hsame => omega
    next => exact Nat.lt_succ_of_lt (hinv.fresh id timer htimer)

theorem fire (hinv : TimerInv t) {id : Nat} {timer : PendingTimer}
    (htimer : t.pending.get? id = some timer) : TimerInv (t.fire id timer.sessionId) := by
  obtain ⟨hnoted, entry, hentry, -⟩ := hinv.current id timer htimer
  refine hinv.withoutTimer ?_ ?_ (hinv.pending_delete hnoted)
  · intro other hother
    rw [entries_expireDualKeyWindow hentry, if_neg hother.symm]
  · rw [entries_expireDualKeyWindow hentry, if_pos rfl]
    rfl

theorem closeSession (hinv : TimerInv t) (sessionId : String) :
    TimerInv (t.closeSession sessionId) := by
  refine hinv.withoutTimer ?_ ?_ ?_
  · intro other hother
    rw [entries_closeSession, if_neg hother.symm]
  · rw [entries_closeSession, if_pos rfl]
    rfl
  · intro id timer
    cases hid : t.dualKeyTimers.get? sessionId with
    | some noted => exact hinv.pending_delete hid id timer
    | none =>
        constructor
        · intro htimer
          refine ⟨htimer, ?_⟩
          rintro rfl
          rw [(hinv.current id timer htimer).1] at hid
          cases hid
        · exact And.left

end TimerInv

/-! ## Runs -/

/-- Handles and timers agree on every session. -/
structure RegistryInv (t : TimedRegistry) : Prop where
  generations : GenerationInv t.registry
  timers : TimerInv t

theorem RegistryInv.swapped {t : TimedRegistry} (hinv : RegistryInv t) {sessionId : String}
    {outcome : Except Fault SessionRegistry}
    (hrekey : ∀ r, outcome = .ok r → Rekeyed t.registry r sessionId) :
    RegistryInv (t.swapped sessionId outcome) := by
  cases outcome with
  | error fault => exact hinv
  | ok r =>
      obtain ⟨found, hfound, ⟨hstate, rfl⟩ | ⟨hstate, data, rfl⟩⟩ := hrekey r rfl
      · rw [TimedRegistry.swapped, TimedRegistry.isPendingRekey, hfound]
        simpa [hstate] using hinv
      · rw [TimedRegistry.swapped, TimedRegistry.isPendingRekey, hfound]
        have hidle : found.entry.dualKeyTimer = false := by
          rw [hinv.generations.timed sessionId found.entry found.get_entry,
            hinv.generations.alone_of_state found hstate]
          rfl
        simpa [hstate] using
          (⟨hinv.generations.opened found hstate data, hinv.timers.openWindow found hidle data⟩ :
            RegistryInv (t.openWindow sessionId (found.opened data)))

/-- Every event keeps the invariant. -/
theorem registryInv_step {t t' : TimedRegistry} {event : RegistryEvent} (hinv : RegistryInv t)
    (hstep : registryStep C t event = some t') : RegistryInv t' := by
  cases event with
  | createSession sessionId role token data =>
      obtain rfl := Option.some.inj hstep
      refine ⟨?_, hinv.timers.createSession role token data⟩
      cases hcreate : t.registry.createSession sessionId role token data with
      | error fault => exact hinv.generations
      | ok r => exact hinv.generations.createSession hcreate
  | swapForDualKey sessionId newSession =>
      obtain rfl := Option.some.inj hstep
      exact hinv.swapped fun r => rekeyed_of_swapForDualKey
  | swapForDualKeyChainMode sessionId =>
      obtain rfl := Option.some.inj hstep
      exact hinv.swapped fun r => rekeyed_of_swapForDualKeyChainMode C
  | fire id =>
      obtain ⟨timer, htimer, rfl⟩ := Option.map_eq_some_iff.mp hstep
      exact ⟨hinv.generations.expireDualKeyWindow timer.sessionId, hinv.timers.fire htimer⟩
  | closeSession sessionId =>
      obtain rfl := Option.some.inj hstep
      exact ⟨hinv.generations.closeSession sessionId, hinv.timers.closeSession sessionId⟩
  | encrypt ref fields plaintext =>
      simp only [registryStep, Option.ite_none_right_eq_some, Option.some.injEq] at hstep
      obtain ⟨-, rfl⟩ := hstep
      exact ⟨hinv.generations.encryptOn C ref fields plaintext,
        hinv.timers.withRegistry fun _ => .inl rfl⟩

theorem registryInv_initial : RegistryInv .initial := ⟨.empty, .initial⟩

theorem along_true {σ ε : Type*} (step : σ → ε → Option σ) (s : σ) (events : List ε) :
    Along step (fun _ _ => True) s events :=
  along_of_forall_mem fun _ _ _ => trivial

theorem registryInv_run {events : List RegistryEvent} {t : TimedRegistry}
    (hrun : run (registryStep C) .initial events = some t) : RegistryInv t :=
  run_invariant RegistryInv (fun _ _ _ hinv _ hstep => registryInv_step C hinv hstep)
    registryInv_initial (along_true _ _ _) hrun

theorem registry_swapped (t : TimedRegistry) (sessionId : String)
    (outcome : Except Fault SessionRegistry) :
    (t.swapped sessionId outcome).registry = t.registry.after outcome := by
  cases outcome with
  | error fault => rfl
  | ok r =>
      simp only [TimedRegistry.swapped, after]
      split <;> rfl

/-- An event with its timers is an event of the registry alone, whose entries only say
whether their timer runs. -/
theorem cryptoStep_of_registryStep {t t' : TimedRegistry} {event : RegistryEvent}
    (hinv : RegistryInv t) (hstep : registryStep C t event = some t') {s : CryptoSystem}
    (hs : s.registry = t.registry) :
    ∃ event' s', cryptoStep C s event' = some s' ∧ s'.registry = t'.registry := by
  cases event with
  | createSession sessionId role token data =>
      obtain rfl := Option.some.inj hstep
      exact ⟨.registry (.createSession sessionId role token data), _, rfl, by rw [hs]; rfl⟩
  | swapForDualKey sessionId newSession =>
      obtain rfl := Option.some.inj hstep
      refine ⟨.registry (.swapForDualKey sessionId newSession), _, rfl, ?_⟩
      rw [registry_swapped, hs]
      rfl
  | swapForDualKeyChainMode sessionId =>
      obtain rfl := Option.some.inj hstep
      refine ⟨.registry (.swapForDualKeyChainMode sessionId), _, rfl, ?_⟩
      rw [registry_swapped, hs]
      rfl
  | fire id =>
      obtain ⟨timer, htimer, rfl⟩ := Option.map_eq_some_iff.mp hstep
      have hruns : (t.registry.entries.get? timer.sessionId).any (·.dualKeyTimer) = true := by
        rw [← hinv.timers.noted, (hinv.timers.current id timer htimer).1]
        rfl
      refine ⟨.registry (.expireDualKeyWindow timer.sessionId),
        s.after (t.registry.expireDualKeyWindow timer.sessionId), ?_, rfl⟩
      simp only [cryptoStep, SessionRegistry.apply, hs, hruns, if_true, Option.map_some]
  | closeSession sessionId =>
      obtain rfl := Option.some.inj hstep
      exact ⟨.registry (.closeSession sessionId), _, rfl, by rw [hs]; rfl⟩
  | encrypt ref fields plaintext =>
      simp only [registryStep, Option.ite_none_right_eq_some, Option.some.injEq] at hstep
      obtain ⟨hlt, rfl⟩ := hstep
      refine ⟨.encrypt ref fields plaintext, ?_⟩
      rw [← hs] at hlt ⊢
      simp only [cryptoStep, List.getElem?_eq_getElem hlt]
      exact ⟨_, rfl, rfl⟩

/-- What a run with timers makes of the registry, a run of the registry alone makes of it. -/
theorem exists_crypto_run {events : List RegistryEvent} {t : TimedRegistry}
    (hrun : run (registryStep C) .initial events = some t) :
    ∃ events' s, run (cryptoStep C) .initial events' = some s ∧ s.registry = t.registry := by
  refine (run_invariant (fun t => RegistryInv t ∧ ∃ events' s,
      run (cryptoStep C) .initial events' = some s ∧ s.registry = t.registry)
    ?_ ⟨registryInv_initial, [], .initial, rfl, rfl⟩ (along_true _ _ _) hrun).2
  rintro t event t' ⟨hinv, events', s, hrun', hs⟩ - hstep
  obtain ⟨event', s', hstep', hs'⟩ := cryptoStep_of_registryStep C hinv hstep hs
  exact ⟨registryInv_step C hinv hstep, events' ++ [event'], s',
    run_append.mpr ⟨s, hrun', by simp [run, hstep']⟩, hs'⟩

/-! ## Timers of closed sessions -/

/-- The timers of the first state that are still pending in the second were set there
for the same session. -/
structure KeepsTimers (t t' : TimedRegistry) : Prop where
  next : t.nextTimer ≤ t'.nextTimer
  pending : ∀ id timer, t'.pending.get? id = some timer → id < t.nextTimer →
    t.pending.get? id = some timer

theorem KeepsTimers.refl (t : TimedRegistry) : KeepsTimers t t :=
  ⟨le_refl _, fun _ _ htimer _ => htimer⟩

theorem KeepsTimers.trans {t t' t'' : TimedRegistry} (h : KeepsTimers t t')
    (h' : KeepsTimers t' t'') : KeepsTimers t t'' where
  next := h.next.trans h'.next
  pending id timer htimer hid :=
    h.pending id timer (h'.pending id timer htimer (hid.trans_le h.next)) hid

theorem get?_of_get?_delete {κ ν : Type*} [DecidableEq κ] {m : OrderedMap κ ν} {key other : κ}
    {value : ν} (hget : (m.delete key).get? other = some value) : m.get? other = some value := by
  rw [get?_delete, Option.ite_none_left_eq_some] at hget
  exact hget.2

theorem keepsTimers_swapped (t : TimedRegistry) (sessionId : String)
    (outcome : Except Fault SessionRegistry) : KeepsTimers t (t.swapped sessionId outcome) := by
  unfold TimedRegistry.swapped
  split
  next => exact .refl t
  next r =>
    split
    next => exact ⟨le_refl _, fun _ _ htimer _ => htimer⟩
    next =>
      refine ⟨Nat.le_succ _, fun id timer htimer hid => ?_⟩
      rwa [TimedRegistry.openWindow, get?_set, if_neg hid.ne'] at htimer

theorem keepsTimers_step {t t' : TimedRegistry} {event : RegistryEvent}
    (hstep : registryStep C t event = some t') : KeepsTimers t t' := by
  cases event with
  | createSession sessionId role token data =>
      obtain rfl := Option.some.inj hstep
      exact ⟨le_refl _, fun _ _ htimer _ => htimer⟩
  | swapForDualKey sessionId newSession =>
      obtain rfl := Option.some.inj hstep
      exact keepsTimers_swapped t sessionId _
  | swapForDualKeyChainMode sessionId =>
      obtain rfl := Option.some.inj hstep
      exact keepsTimers_swapped t sessionId _
  | fire id =>
      obtain ⟨timer, -, rfl⟩ := Option.map_eq_some_iff.mp hstep
      exact ⟨le_refl _, fun _ _ htimer _ => get?_of_get?_delete htimer⟩
  | closeSession sessionId =>
      obtain rfl := Option.some.inj hstep
      refine ⟨le_refl _, fun id timer htimer _ => ?_⟩
      simp only [TimedRegistry.closeSession] at htimer
      split at htimer
      next => exact htimer
      next => exact get?_of_get?_delete htimer
  | encrypt ref fields plaintext =>
      simp only [registryStep, Option.ite_none_right_eq_some, Option.some.injEq] at hstep
      obtain ⟨-, rfl⟩ := hstep
      exact ⟨le_refl _, fun _ _ htimer _ => htimer⟩

theorem keepsTimers_run {events : List RegistryEvent} {t t' : TimedRegistry}
    (hrun : run (registryStep C) t events = some t') : KeepsTimers t t' :=
  run_invariant (KeepsTimers t)
    (fun _ _ _ hkept _ hstep => hkept.trans (keepsTimers_step C hstep)) (.refl t)
    (along_true _ _ _) hrun

/-- A timer that was set before its session was closed is never pending again. -/
theorem closed_timers_gone {before rest : List RegistryEvent} {sessionId : String}
    {s t : TimedRegistry} (hbefore : run (registryStep C) .initial before = some s)
    (hrest : run (registryStep C) s (.closeSession sessionId :: rest) = some t) {id : Nat}
    {timer : PendingTimer} (htimer : t.pending.get? id = some timer) (hid : id < s.nextTimer) :
    timer.sessionId ≠ sessionId := by
  obtain ⟨s', hclose, hrun⟩ := run_cons_eq_some.mp hrest
  have hinv := registryInv_step C (registryInv_run C hbefore) hclose
  obtain rfl := Option.some.inj hclose
  have hpending := (keepsTimers_run C hrun).pending id timer htimer hid
  rintro rfl
  obtain ⟨-, entry, hentry, -⟩ := hinv.timers.current id timer hpending
  simp [TimedRegistry.closeSession, entries_closeSession] at hentry

/-! ## The registry over every run -/

/-- What a registry promises of its sessions, handles and timers. -/
structure RegistryKept (t : TimedRegistry) : Prop where
  window : ∀ sessionId entry, t.registry.entries.get? sessionId = some entry →
    ∃ h, t.registry.handles[entry.currentHandle]? = some h ∧
      (entry.previousHandle.isSome ↔ h.state = .pendingRekey) ∧
      (entry.previousHandle.isSome ↔
        ∃ id timer, t.pending.get? id = some timer ∧ timer.sessionId = sessionId)
  registered : ∀ sessionId entry, t.registry.entries.get? sessionId = some entry →
    ∀ ref ∈ entry.references, ∃ h, t.registry.handles[ref]? = some h ∧ h.zeroized = false
  released : ∀ (ref : Nat) (h : SessionCryptoHandle), t.registry.handles[ref]? = some h →
    (∀ sessionId entry, t.registry.entries.get? sessionId = some entry →
      ref ∉ entry.references) →
    h.zeroized = true ∧ (∀ b ∈ h.keyMaterial, b = 0) ∧
      (∀ fields plaintext, (h.encrypt C fields plaintext).1 = .error
        (cryptoFault "SESSION_HANDLE_REVOKED" "encrypt rejected: handle state=CLOSED")) ∧
      ∀ fields ciphertext nonce, h.decrypt C fields ciphertext nonce = .error
        (cryptoFault "SESSION_HANDLE_REVOKED" "decrypt rejected: handle state=CLOSED")
  timers : ∀ id timer, t.pending.get? id = some timer →
    t.dualKeyTimers.get? timer.sessionId = some id ∧
      ∃ entry, t.registry.entries.get? timer.sessionId = some entry ∧
        entry.currentHandle = timer.window
  routed : ∀ sessionId keyId h,
    t.registry.lookupHandleForDecrypt C sessionId keyId = some h →
    h.peerKeyId C = keyId ∧ ∃ entry, t.registry.entries.get? sessionId = some entry ∧
      ∃ ref ∈ entry.references, t.registry.handles[ref]? = some h
  found : ∀ sessionId entry, t.registry.entries.get? sessionId = some entry →
    ∀ ref ∈ entry.references, ∀ h, t.registry.handles[ref]? = some h →
    (∀ ref' ∈ entry.references, ∀ h', t.registry.handles[ref']? = some h' →
      h'.peerKeyId C = h.peerKeyId C → ref' = ref) →
    t.registry.lookupHandleForDecrypt C sessionId (h.peerKeyId C) = some h

theorem RegistryInv.window {t : TimedRegistry} (hinv : RegistryInv t) {sessionId : String}
    {entry : RegistryEntry} (hentry : t.registry.entries.get? sessionId = some entry) :
    ∃ h, t.registry.handles[entry.currentHandle]? = some h ∧
      (entry.previousHandle.isSome ↔ h.state = .pendingRekey) ∧
      (entry.previousHandle.isSome ↔
        ∃ id timer, t.pending.get? id = some timer ∧ timer.sessionId = sessionId) := by
  obtain ⟨h, hget, -, hfits⟩ := hinv.generations.of_mem hentry List.mem_cons_self
  refine ⟨h, hget, ?_, ?_⟩
  · rw [hfits.state]
    cases hprevious : entry.previousHandle with
    | none => simp [place, hprevious, Place.state]
    | some ref => simp [place, hprevious, Place.state]
  · rw [← hinv.generations.timed sessionId entry hentry]
    have hnoted := hinv.timers.noted sessionId
    rw [hentry, Option.any_some] at hnoted
    rw [← hnoted, Option.isSome_iff_exists]
    constructor
    · rintro ⟨id, hid⟩
      exact ⟨id, hinv.timers.armed sessionId id hid⟩
    · rintro ⟨id, timer, htimer, rfl⟩
      exact ⟨id, (hinv.timers.current id timer htimer).1⟩

/-- A handle that no entry refers to has no keys left and is refused. -/
theorem GenerationInv.released {r : SessionRegistry} (hinv : GenerationInv r) {ref : Nat}
    {h : SessionCryptoHandle} (hget : r.handles[ref]? = some h)
    (hnot : ∀ sessionId entry, r.entries.get? sessionId = some entry → ref ∉ entry.references) :
    Fits .released h := by
  have hfits := hinv.fits ref h hget
  cases hentry : r.entries.get? h.sessionId with
  | none => rwa [hentry] at hfits
  | some entry =>
      rwa [hentry, place_eq_released_iff.mpr (hnot _ entry hentry)] at hfits

theorem Fits.encrypt_released {h : SessionCryptoHandle} (hfits : Fits .released h)
    (fields : AeadAadFields) (plaintext : List UInt8) :
    (h.encrypt C fields plaintext).1 = .error
      (cryptoFault "SESSION_HANDLE_REVOKED" "encrypt rejected: handle state=CLOSED") := by
  have hstate : h.state = .closed := hfits.state
  have hcheck : h.checkEncrypt = .error
      (cryptoFault "SESSION_HANDLE_REVOKED" "encrypt rejected: handle state=CLOSED") := by
    simp only [SessionCryptoHandle.checkEncrypt, SessionCryptoHandle.checkState, hstate]
    rfl
  rw [SessionCryptoHandle.encrypt_eq, hcheck]

theorem Fits.decrypt_released {h : SessionCryptoHandle} (hfits : Fits .released h)
    (fields : AeadAadFields) (ciphertext nonce : List UInt8) :
    h.decrypt C fields ciphertext nonce = .error
      (cryptoFault "SESSION_HANDLE_REVOKED" "decrypt rejected: handle state=CLOSED") := by
  have hstate : h.state = .closed := hfits.state
  simp only [SessionCryptoHandle.decrypt, SessionCryptoHandle.checkState, hstate]
  rfl

theorem SessionRegistry.routed {r : SessionRegistry} {sessionId keyId : String}
    {h : SessionCryptoHandle} (hlookup : r.lookupHandleForDecrypt C sessionId keyId = some h) :
    h.peerKeyId C = keyId ∧ ∃ entry, r.entries.get? sessionId = some entry ∧
      ∃ ref ∈ entry.references, r.handles[ref]? = some h := by
  refine ⟨(lookupHandleForDecrypt_eq_some C hlookup).2, ?_⟩
  rw [lookupHandleForDecrypt_eq, Option.bind_eq_some_iff] at hlookup
  obtain ⟨v, hview, hlookup⟩ := hlookup
  obtain ⟨entry, hentry, hcurrent, hprevious⟩ := view_eq_some.mp hview
  refine ⟨entry, hentry, ?_⟩
  split at hlookup
  next =>
    obtain rfl := Option.some.inj hlookup
    exact ⟨entry.currentHandle, List.mem_cons_self, hcurrent⟩
  next =>
    obtain ⟨hsome, -⟩ := Option.filter_eq_some_iff.mp hlookup
    rw [← hprevious, Option.bind_eq_some_iff] at hsome
    obtain ⟨ref, href, hget⟩ := hsome
    exact ⟨ref, by simp [RegistryEntry.references, href], hget⟩

/-- A registered handle is found under its key identifier when no other one has it. -/
theorem SessionRegistry.lookupHandleForDecrypt_of_unique {r : SessionRegistry}
    {sessionId : String} {entry : RegistryEntry}
    (hentry : r.entries.get? sessionId = some entry) {ref : Nat} (href : ref ∈ entry.references)
    {h : SessionCryptoHandle} (hget : r.handles[ref]? = some h)
    (hunique : ∀ ref' ∈ entry.references, ∀ h', r.handles[ref']? = some h' →
      h'.peerKeyId C = h.peerKeyId C → ref' = ref) :
    r.lookupHandleForDecrypt C sessionId (h.peerKeyId C) = some h := by
  obtain ⟨current, hcurrent, hfind⟩ := find_of_entry hentry
  simp only [lookupHandleForDecrypt, hfind]
  split
  next hkey =>
    have hsame := hunique entry.currentHandle List.mem_cons_self current hcurrent hkey
    rw [← hsame, hcurrent] at hget
    exact hget
  next hkey =>
    rcases List.mem_cons.mp href with rfl | hprevious
    · rw [hcurrent] at hget
      exact absurd (congrArg _ (Option.some.inj hget)) hkey
    · rw [Option.mem_toList] at hprevious
      simp [Option.mem_def.mp hprevious, hget]

/-- Over every run of a registry, its windows, handles, timers and lookups are as promised,
and no timer of a session outlives the session. -/
theorem registry_run {events : List RegistryEvent} {t : TimedRegistry}
    (hrun : run (registryStep C) .initial events = some t) :
    RegistryKept C t ∧
      ∀ before sessionId rest s, events = before ++ .closeSession sessionId :: rest →
        run (registryStep C) .initial before = some s →
        ∀ id timer, t.pending.get? id = some timer → id < s.nextTimer →
          timer.sessionId ≠ sessionId := by
  have hinv := registryInv_run C hrun
  refine ⟨⟨?_, ?_, ?_, hinv.timers.current, ?_, ?_⟩, ?_⟩
  · intro sessionId entry hentry
    exact hinv.window hentry
  · intro sessionId entry hentry ref href
    obtain ⟨h, hget, -, hfits⟩ := hinv.generations.of_mem hentry href
    have hplace : place (some entry) ref ≠ .released :=
      fun hreleased => place_eq_released_iff.mp hreleased href
    exact ⟨h, hget, by rw [hfits.zeroized, decide_eq_false hplace]⟩
  · intro ref h hget hnot
    have hfits := hinv.generations.released hget hnot
    exact ⟨hfits.zeroized, hfits.wiped rfl, hfits.encrypt_released C, hfits.decrypt_released C⟩
  · intro sessionId keyId h hlookup
    exact routed C hlookup
  · intro sessionId entry hentry ref href h hget hunique
    exact lookupHandleForDecrypt_of_unique C hentry href hget hunique
  · rintro before sessionId rest s rfl hbefore id timer htimer hid
    obtain ⟨s', hs', hrest⟩ := run_append.mp hrun
    obtain rfl := Option.some.inj (hbefore.symm.trans hs')
    exact closed_timers_gone C hbefore hrest htimer hid

namespace ReusedSession

open SampleSession in
/-- A session that is closed inside its window and made again, with a window of its own. -/
def events : List RegistryEvent :=
  [.createSession sessionId .initiator (some tokenId) data, .swapForDualKeyChainMode sessionId,
    .closeSession sessionId, .createSession sessionId .initiator (some tokenId) data,
    .swapForDualKeyChainMode sessionId, .encrypt 0 fields (price "8")]

theorem ran : (run (registryStep RekeyRun.ports) .initial events).any
    (fun t => decide (t.pending.entries = [(1, ⟨SampleSession.sessionId, 3⟩)])) = true := by
  decide +kernel

end ReusedSession

/-- The timer of the first session is gone; the second has its own. -/
theorem registry_run_reused :
    ∃ t, run (registryStep RekeyRun.ports) .initial ReusedSession.events = some t ∧
      t.pending.entries = [(1, ⟨SampleSession.sessionId, 3⟩)] ∧ RegistryKept RekeyRun.ports t ∧
      ∀ before sessionId rest s,
        ReusedSession.events = before ++ .closeSession sessionId :: rest →
        run (registryStep RekeyRun.ports) .initial before = some s →
        ∀ id timer, t.pending.get? id = some timer → id < s.nextTimer →
          timer.sessionId ≠ sessionId := by
  obtain ⟨t, hrun, hpending⟩ := (Option.any_eq_true _ _).mp ReusedSession.ran
  exact ⟨t, hrun, of_decide_eq_true hpending, registry_run RekeyRun.ports hrun⟩

end Coivitas.Communication
