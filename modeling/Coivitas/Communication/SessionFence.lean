import Mathlib.Data.List.TakeWhile
import Coivitas.Foundation.Run
import Coivitas.Communication.SessionStore

/-! # The fence of session revisions

Whatever an operation does to a stored session, the session was open, its revision grows
and its token and principal stay. So a revision that was seen once names one version of a
session for ever, and a session that is closed stays as it is.
-/

namespace Coivitas.Communication

open Foundation

/-! ## Revisions -/

theorem takeWhile_isDigit_toDigits (n : Nat) :
    (Nat.toDigits 10 n).takeWhile Char.isDigit = Nat.toDigits 10 n :=
  List.takeWhile_eq_self_iff.mpr fun _ hc =>
    Nat.isDigit_of_mem_toDigits (by decide) (by decide) hc

theorem not_isJsSpace_of_isDigit {c : Char} (hc : c.isDigit = true) : isJsSpace c = false := by
  simp only [Char.isDigit, Bool.and_eq_true, decide_eq_true_eq] at hc
  have hlow : 48 ≤ c.toNat := hc.1
  have hhigh : c.toNat ≤ 57 := hc.2
  simp [isJsSpace]
  omega

theorem leadingNumber_toDigits (n : Nat) : leadingNumber (Nat.toDigits 10 n) = some (n : Int) := by
  unfold leadingNumber
  rw [takeWhile_isDigit_toDigits]
  split
  next hnil => exact absurd hnil Nat.toDigits_ne_nil
  next => rw [Nat.ofDigitChars_ten_toDigits]

/-- A decimal number reads back as itself. -/
theorem parseInt_toString (n : Nat) : parseInt (toString n) = some (n : Int) := by
  have hdigit : ∀ c ∈ Nat.toDigits 10 n, c.isDigit = true :=
    fun c hc => Nat.isDigit_of_mem_toDigits (by decide) (by decide) hc
  have hlist : (toString n).toList = Nat.toDigits 10 n := Nat.toList_repr
  unfold parseInt
  rw [hlist]
  cases hdigits : Nat.toDigits 10 n with
  | nil => exact absurd hdigits Nat.toDigits_ne_nil
  | cons c rest =>
      have hc : c.isDigit = true := hdigit c (hdigits ▸ List.mem_cons_self)
      rw [List.dropWhile_cons_of_neg (by simp [not_isJsSpace_of_isDigit hc])]
      have hnumber := leadingNumber_toDigits n
      rw [hdigits] at hnumber
      split
      next heq =>
        cases heq
        exact absurd hc (by decide)
      next heq =>
        cases heq
        exact absurd hc (by decide)
      next heq =>
        exact hnumber

theorem bumpRevision_toString (n : Nat) : bumpRevision (toString n) = .ok (toString (n + 1)) := by
  unfold bumpRevision
  rw [parseInt_toString]
  rfl

theorem toString_injective {m n : Nat} (heq : toString m = toString n) : m = n := by
  have hparsed := (parseInt_toString m).symm.trans
    ((congrArg parseInt heq).trans (parseInt_toString n))
  exact Int.ofNat_inj.mp (Option.some.inj hparsed)

/-- Of two versions of a session, the second has the greater revision. -/
def Newer (row row' : Session) : Prop :=
  ∃ m n : Nat, row.revision = toString m ∧ row'.revision = toString n ∧ m < n

theorem Newer.revision_ne {row row' : Session} (hnewer : Newer row row') :
    row'.revision ≠ row.revision := by
  obtain ⟨m, n, hm, hn, hlt⟩ := hnewer
  intro heq
  rw [hm, hn] at heq
  have hnm := toString_injective heq
  omega

theorem Newer.trans {a b c : Session} (hab : Newer a b) (hbc : Newer b c) : Newer a c := by
  obtain ⟨m, n, hm, hn, hmn⟩ := hab
  obtain ⟨n', k, hn', hk, hnk⟩ := hbc
  have hsame := toString_injective (hn.symm.trans hn')
  exact ⟨m, k, hm, hk, by omega⟩

/-! ## What an operation does to a session -/

structure Mutated (row row' : Session) : Prop where
  opened : row.state ≠ some .closed
  sessionId : row'.sessionId = row.sessionId
  capabilityTokenId : row'.capabilityTokenId = row.capabilityTokenId
  principalDid : row'.principalDid = row.principalDid
  newer : Newer row row'

/-- Every session is kept, as it was or changed. -/
def Evolves (sessions sessions' : Sessions) : Prop :=
  ∀ id row, sessions.get? id = some row →
    ∃ row', sessions'.get? id = some row' ∧ (row' = row ∨ Mutated row row')

/-- A session is stored under its own identifier, with a number for a revision. -/
def Numbered (sessions : Sessions) : Prop :=
  ∀ id row, sessions.get? id = some row →
    row.sessionId = id ∧ ∃ n : Nat, row.revision = toString n

theorem Evolves.refl (sessions : Sessions) : Evolves sessions sessions :=
  fun _ row hrow => ⟨row, hrow, .inl rfl⟩

theorem Evolves.trans {a b c : Sessions} (hab : Evolves a b) (hbc : Evolves b c) :
    Evolves a c := by
  intro id row hrow
  obtain ⟨row₁, hrow₁, hfirst⟩ := hab id row hrow
  obtain ⟨row₂, hrow₂, hsecond⟩ := hbc id row₁ hrow₁
  refine ⟨row₂, hrow₂, ?_⟩
  obtain rfl | hfirst := hfirst
  · exact hsecond
  · obtain rfl | hsecond := hsecond
    · exact .inr hfirst
    · exact .inr ⟨hfirst.opened, hsecond.sessionId.trans hfirst.sessionId,
        hsecond.capabilityTokenId.trans hfirst.capabilityTokenId,
        hsecond.principalDid.trans hfirst.principalDid, hfirst.newer.trans hsecond.newer⟩

/-- A step keeps the numbering and every session. -/
structure Kept (sessions sessions' : Sessions) : Prop where
  evolves : Evolves sessions sessions'
  numbered : Numbered sessions'

theorem Kept.refl {sessions : Sessions} (hnumbered : Numbered sessions) :
    Kept sessions sessions := ⟨.refl sessions, hnumbered⟩

theorem Kept.trans {a b c : Sessions} (hab : Kept a b) (hbc : Kept b c) : Kept a c :=
  ⟨hab.evolves.trans hbc.evolves, hbc.numbered⟩

theorem kept_set {sessions : Sessions} (hnumbered : Numbered sessions) {id : String}
    {row' : Session} (hid : row'.sessionId = id) (hrevision : ∃ n : Nat, row'.revision = toString n)
    (hmutated : ∀ row, sessions.get? id = some row → Mutated row row') :
    Kept sessions (sessions.set id row') := by
  constructor
  · intro other row hrow
    rw [OrderedMap.get?_set]
    split
    next heq =>
      subst heq
      exact ⟨row', rfl, .inr (hmutated row hrow)⟩
    next => exact ⟨row, hrow, .inl rfl⟩
  · intro other row hrow
    rw [OrderedMap.get?_set] at hrow
    split at hrow
    next heq =>
      cases hrow
      exact ⟨hid.trans heq, hrevision⟩
    next => exact hnumbered other row hrow

/-- A change of one stored session that bumps its revision. -/
theorem kept_mutation {sessions : Sessions} (hnumbered : Numbered sessions) {id : String}
    {row row' : Session} (hrow : sessions.get? id = some row) (hopened : row.state ≠ some .closed)
    (hid : row'.sessionId = row.sessionId)
    (htoken : row'.capabilityTokenId = row.capabilityTokenId)
    (hprincipal : row'.principalDid = row.principalDid)
    (hbump : bumpRevision row.revision = .ok row'.revision) :
    Kept sessions (sessions.set id row') := by
  obtain ⟨hkey, n, hn⟩ := hnumbered id row hrow
  rw [hn, bumpRevision_toString] at hbump
  injection hbump with hbump
  have hmutated : Mutated row row' :=
    ⟨hopened, hid, htoken, hprincipal, n, n + 1, hn, hbump.symm, Nat.lt_succ_self n⟩
  refine kept_set hnumbered (hid.trans hkey) ⟨n + 1, hbump.symm⟩ ?_
  intro other hother
  cases hrow.symm.trans hother
  exact hmutated

/-! ## Operations on one session -/

theorem lookup_eq_ok {sessions : Sessions} {sessionId : String} {row : Session} :
    lookup sessions sessionId = .ok row ↔ sessions.get? sessionId = some row := by
  unfold lookup
  split <;> simp_all

theorem store_kept {sessions : Sessions} (hnumbered : Numbered sessions) {sessionId : String}
    {computed : Except SessionError Session}
    (hset : ∀ session, computed = .ok session →
      Kept sessions (sessions.set sessionId session)) :
    Kept sessions (store sessionId computed sessions).2 := by
  unfold store
  split
  next => exact .refl hnumbered
  next session => exact hset session rfl

section Single

variable {sessions : Sessions} (hnumbered : Numbered sessions) {clock : Int}

include hnumbered

theorem create_kept (input : SessionCreateInput) :
    Kept sessions (create input clock sessions).2 := by
  refine store_kept hnumbered fun session hsession => ?_
  simp only [newSession, bind_eq_ok, exists_unit, require_eq_ok, pure_eq_ok] at hsession
  obtain ⟨hfresh, _, _, _, rfl⟩ := hsession
  refine kept_set hnumbered rfl ⟨1, rfl⟩ fun row hrow => ?_
  rw [OrderedMap.has, hrow] at hfresh
  cases hfresh

theorem update_kept (sessionId : String) (patch : SessionUpdatePatch) :
    Kept sessions (store sessionId (updatedSession sessionId patch clock sessions) sessions).2 := by
  refine store_kept hnumbered fun session hsession => ?_
  simp only [updatedSession, bind_eq_ok, exists_unit, require_eq_ok, pure_eq_ok, lookup_eq_ok]
    at hsession
  obtain ⟨row, hrow, hopened, _, _, revision, hrevision, rfl⟩ := hsession
  exact kept_mutation hnumbered hrow hopened rfl rfl rfl hrevision

theorem resume_kept (P : SessionPorts) (input : SessionResumeInput) :
    Kept sessions (resume P input clock sessions).2 := by
  have hset : ∀ session error, resumedSession P input clock sessions = .ok (session, error) →
      Kept sessions (sessions.set input.sessionId session) := by
    intro session error hsession
    simp only [resumedSession, resumable, bind_eq_ok, exists_unit, require_eq_ok, pure_eq_ok,
      lookup_eq_ok] at hsession
    obtain ⟨row, ⟨_, hrow, hopened, _, _, _, rfl⟩, hsession⟩ := hsession
    split at hsession
    next =>
      simp only [closedSession, bind_eq_ok, pure_eq_ok, Prod.mk.injEq] at hsession
      obtain ⟨_, _, _, ⟨revision, hrevision, rfl⟩, rfl, _⟩ := hsession
      exact kept_mutation hnumbered hrow hopened rfl rfl rfl hrevision
    next =>
      simp only [bind_eq_ok, pure_eq_ok, Prod.mk.injEq] at hsession
      obtain ⟨_, _, revision, hrevision, rfl, _⟩ := hsession
      exact kept_mutation hnumbered hrow hopened rfl rfl rfl hrevision
  unfold resume
  split
  next => exact .refl hnumbered
  next session heq => exact hset session none heq
  next session error heq => exact hset session (some error) heq

theorem supersedeAndCreate_kept (params : SupersedeParams) :
    Kept sessions (supersedeAndCreate params clock sessions).2 := by
  unfold supersedeAndCreate
  split
  next => exact .refl hnumbered
  next old hold =>
    split
    next hopened =>
      split
      next => exact .refl hnumbered
      next closed hclosed =>
        have hbind : (nowText params.now clock >>= fun now =>
            closedSession now params.fallbackCloseReason none old) = .ok closed := hclosed
        have hkept : Kept sessions (sessions.set params.oldSessionId closed) := by
          simp only [closedSession, bind_eq_ok, pure_eq_ok] at hbind
          obtain ⟨_, _, revision, hrevision, rfl⟩ := hbind
          exact kept_mutation hnumbered hold hopened rfl rfl rfl hrevision
        exact hkept.trans (create_kept hkept.numbered _)
    next => exact create_kept hnumbered _

/-- A dispatch is claimed on an active session only. -/
theorem claimedSession_spec {params : ClaimParams} {session : Session}
    (hclaimed : claimedSession params clock sessions = .ok session) :
    (∃ row, sessions.get? params.sessionId = some row ∧ row.state = some .active) ∧
      Kept sessions (sessions.set params.sessionId session) := by
  simp only [claimedSession, bind_eq_ok, exists_unit, require_eq_ok, pure_eq_ok, lookup_eq_ok]
    at hclaimed
  obtain ⟨row, hrow, hopened, hactive, _, _, _, _, revision, hrevision, rfl⟩ := hclaimed
  exact ⟨⟨row, hrow, hactive⟩, kept_mutation hnumbered hrow hopened rfl rfl rfl hrevision⟩

/-- An authorization takes the session at the revision that its caller expects. -/
theorem authorizedSession_spec {params : AuthorizeParams} {session : Session}
    (hauthorized : authorizedSession params clock sessions = .ok session) :
    (∃ row, sessions.get? params.sessionId = some row ∧
      row.revision = params.expectedRevision) ∧
      Kept sessions (sessions.set params.sessionId session) := by
  simp only [authorizedSession, bind_eq_ok, exists_unit, require_eq_ok, pure_eq_ok, lookup_eq_ok]
    at hauthorized
  obtain ⟨row, hrow, hopened, _, hexpected, _, _, revision, hrevision, rfl⟩ := hauthorized
  exact ⟨⟨row, hrow, hexpected⟩, kept_mutation hnumbered hrow hopened rfl rfl rfl hrevision⟩

end Single

/-! ## Loops over the sessions -/

/-- What a loop may write: an open session with its revision bumped. -/
def Rewrites (p : Session → Prop) (rewrite : Session → Except SessionError Session) : Prop :=
  ∀ row row', p row → rewrite row = .ok row' → row.state ≠ some .closed ∧
    row'.sessionId = row.sessionId ∧ row'.capabilityTokenId = row.capabilityTokenId ∧
    row'.principalDid = row.principalDid ∧ bumpRevision row.revision = .ok row'.revision

theorem sweep_spec {p : Session → Prop} [DecidablePred p]
    {rewrite : Session → Except SessionError Session} (hrewrites : Rewrites p rewrite)
    {entries : List (String × Session)} (hnodup : (entries.map Prod.fst).Nodup)
    {sessions : Sessions} (hnumbered : Numbered sessions)
    (hentries : ∀ entry ∈ entries, sessions.get? entry.1 = some entry.2) :
    Kept sessions (sweep p rewrite entries sessions).2 ∧
      (∀ id, id ∉ entries.map Prod.fst →
        (sweep p rewrite entries sessions).2.get? id = sessions.get? id) ∧
      ∀ ids, (sweep p rewrite entries sessions).1 = .ok ids → ∀ entry ∈ entries, p entry.2 →
        ∃ row', rewrite entry.2 = .ok row' ∧
          (sweep p rewrite entries sessions).2.get? entry.1 = some row' := by
  induction entries generalizing sessions with
  | nil => exact ⟨.refl hnumbered, fun _ _ => rfl, fun _ _ _ hentry => by cases hentry⟩
  | cons entry rest ih =>
      obtain ⟨id, row⟩ := entry
      simp only [List.map_cons, List.nodup_cons] at hnodup
      have hrow : sessions.get? id = some row := hentries (id, row) List.mem_cons_self
      have hrest : ∀ entry ∈ rest, sessions.get? entry.1 = some entry.2 :=
        fun entry hentry => hentries entry (List.mem_cons_of_mem _ hentry)
      by_cases hp : p row
      · cases hrewrite : rewrite row with
        | error error =>
            simp only [sweep, hp, if_true, hrewrite]
            exact ⟨.refl hnumbered, fun _ _ => trivial, fun _ hids => by cases hids⟩
        | ok row' =>
            simp only [sweep, hp, if_true, hrewrite]
            obtain ⟨hopened, hid, htoken, hprincipal, hbump⟩ := hrewrites row row' hp hrewrite
            have hkept := kept_mutation hnumbered hrow hopened hid htoken hprincipal hbump
            have hother : ∀ other, other ≠ id →
                (sessions.set id row').get? other = sessions.get? other := by
              intro other hne
              rw [OrderedMap.get?_set, if_neg (Ne.symm hne)]
            have hrest' : ∀ entry ∈ rest, (sessions.set id row').get? entry.1 = some entry.2 := by
              intro entry hentry
              rw [hother entry.1 fun heq => hnodup.1 (heq ▸ List.mem_map_of_mem hentry)]
              exact hrest entry hentry
            obtain ⟨hkept', hsame, hswept⟩ := ih hnodup.2 hkept.numbered hrest'
            refine ⟨hkept.trans hkept', fun other hnot => ?_, fun ids hids => ?_⟩
            · simp only [List.map_cons, List.mem_cons, not_or] at hnot
              rw [hsame other hnot.2, hother other hnot.1]
            · cases hrec : (sweep p rewrite rest (sessions.set id row')).1 with
              | error error =>
                  rw [hrec] at hids
                  cases hids
              | ok ids' =>
                  refine List.forall_mem_cons.mpr ⟨fun _ => ⟨row', hrewrite, ?_⟩, hswept ids' hrec⟩
                  rw [hsame id hnodup.1, OrderedMap.get?_set, if_pos rfl]
      · simp only [sweep, hp, if_false]
        obtain ⟨hkept, hsame, hswept⟩ := ih hnodup.2 hnumbered hrest
        refine ⟨hkept, fun other hnot => ?_, fun ids hids => ?_⟩
        · simp only [List.map_cons, List.mem_cons, not_or] at hnot
          exact hsame other hnot.2
        · exact List.forall_mem_cons.mpr ⟨fun h => absurd h hp, hswept ids hids⟩

/-- The loop over all sessions. -/
theorem sweep_entries {p : Session → Prop} [DecidablePred p]
    {rewrite : Session → Except SessionError Session} (hrewrites : Rewrites p rewrite)
    {sessions : Sessions} (hnumbered : Numbered sessions) :
    Kept sessions (sweep p rewrite sessions.entries sessions).2 ∧
      ∀ ids, (sweep p rewrite sessions.entries sessions).1 = .ok ids →
        ∀ id row, sessions.get? id = some row → p row → ∃ row', rewrite row = .ok row' ∧
          (sweep p rewrite sessions.entries sessions).2.get? id = some row' := by
  obtain ⟨hkept, _, hswept⟩ := sweep_spec hrewrites sessions.nodup hnumbered
    fun entry hentry => (OrderedMap.mem_entries_iff sessions entry.1 entry.2).mp hentry
  refine ⟨hkept, fun ids hids id row hrow hp => ?_⟩
  exact hswept ids hids (id, row) ((OrderedMap.mem_entries_iff sessions id row).mpr hrow) hp

theorem rewrites_closedSession {p : Session → Prop} (hp : ∀ row, p row → row.state ≠ some .closed)
    (now : String) (reason : CloseReason) (idleSince : Session → Option String) :
    Rewrites p fun row => closedSession now reason (idleSince row) row := by
  intro row row' hrow hrewrite
  simp only [closedSession, bind_eq_ok, pure_eq_ok] at hrewrite
  obtain ⟨revision, hrevision, rfl⟩ := hrewrite
  exact ⟨hp row hrow, rfl, rfl, rfl, hrevision⟩

theorem rewrites_idleSession {p : Session → Prop} (hp : ∀ row, p row → row.state ≠ some .closed)
    (now : String) : Rewrites p (idleSession now) := by
  intro row row' hrow hrewrite
  simp only [idleSession, bind_eq_ok, pure_eq_ok] at hrewrite
  obtain ⟨revision, hrevision, rfl⟩ := hrewrite
  exact ⟨hp row hrow, rfl, rfl, rfl, hrevision⟩

theorem pass_kept {p : Session → Prop} [DecidablePred p]
    {rewrite : Session → Except SessionError Session} (hrewrites : Rewrites p rewrite)
    {sessions : Sessions} (hnumbered : Numbered sessions) :
    Kept sessions (pass p rewrite sessions).2 :=
  (sweep_entries hrewrites hnumbered).1

theorem Session.Live.ne_closed {row : Session} (hlive : row.Live) : row.state ≠ some .closed := by
  obtain ⟨state, hstate, hopen⟩ := hlive
  rintro hclosed
  cases hclosed.symm.trans hstate
  exact hopen rfl

/-- A session that is not live has no state, or is closed. -/
theorem state_of_not_live {row : Session} (hlive : ¬ row.Live) :
    row.state = none ∨ row.state = some .closed := by
  cases hstate : row.state with
  | none => exact .inl rfl
  | some state =>
      right
      by_contra hopen
      exact hlive ⟨state, hstate, fun hclosed => hopen (congrArg some hclosed)⟩

/-- The sessions of the kind that have a state are closed when the loop returns. -/
theorem closeAll_spec {p : Session → Prop} [DecidablePred p] {reason : Option CloseReason}
    {now : Option String} {clock : Int} {sessions : Sessions} (hnumbered : Numbered sessions) :
    Kept sessions (closeAll p reason now clock sessions).2 ∧
      ∀ value, (closeAll p reason now clock sessions).1 = .ok value →
        ∀ id row, sessions.get? id = some row → p row → row.state ≠ none →
          ∃ row', (closeAll p reason now clock sessions).2.get? id = some row' ∧
            row'.state = some .closed := by
  unfold closeAll
  split
  next => exact ⟨.refl hnumbered, fun _ hvalue => by cases hvalue⟩
  next text _ =>
    have hrewrites := rewrites_closedSession (p := fun row => p row ∧ row.Live)
      (fun row hrow => hrow.2.ne_closed) text (reason.getD .revokedToken) (fun _ => none)
    obtain ⟨hkept, hswept⟩ := sweep_entries hrewrites hnumbered
    refine ⟨hkept, fun value hvalue id row hrow hp hstated => ?_⟩
    by_cases hlive : row.Live
    · cases hids : (sweep (fun row => p row ∧ row.Live)
          (closedSession text (reason.getD .revokedToken) none) sessions.entries sessions).1 with
      | error error =>
          simp only [hids] at hvalue
          cases hvalue
      | ok ids =>
          obtain ⟨row', hrewrite, hrow'⟩ := hswept ids hids id row hrow ⟨hp, hlive⟩
          simp only [closedSession, bind_eq_ok, pure_eq_ok] at hrewrite
          obtain ⟨_, _, rfl⟩ := hrewrite
          exact ⟨_, hrow', rfl⟩
    · have hclosed : row.state = some .closed := (state_of_not_live hlive).resolve_left hstated
      obtain ⟨row', hrow', rfl | hmutated⟩ := hkept.evolves id row hrow
      · exact ⟨row', hrow', hclosed⟩
      · exact absurd hclosed hmutated.opened

theorem closeAll_ids {p : Session → Prop} [DecidablePred p] {reason : Option CloseReason}
    {now : Option String} {clock : Int} {sessions : Sessions} {value : SessionValue}
    (hvalue : (closeAll p reason now clock sessions).1 = .ok value) : ∃ ids, value = .ids ids := by
  unfold closeAll at hvalue
  split at hvalue
  next => cases hvalue
  next text _ =>
    cases hids : (sweep (fun row => p row ∧ row.Live)
        (closedSession text (reason.getD .revokedToken) none) sessions.entries sessions).1 with
    | error error =>
        simp only [hids] at hvalue
        cases hvalue
    | ok ids =>
        simp only [hids] at hvalue
        cases hvalue
        exact ⟨ids, rfl⟩

theorem cleanExpired_kept (P : SessionPorts) (params : CleanParams) {clock : Int}
    {sessions : Sessions} (hnumbered : Numbered sessions) :
    Kept sessions (cleanExpired P params clock sessions).2 := by
  unfold cleanExpired
  dsimp only
  split
  next => exact .refl hnumbered
  next now _ =>
    have hstale := pass_kept (p := fun row => row.state = some .created ∧
        Elapsed P (nowMs P params.now clock) row.createdAt params.createdTimeoutMs)
      (rewrites_closedSession (fun row hrow hclosed => by cases hrow.1.symm.trans hclosed) now
        .handshakeRejected Session.idleSince) hnumbered
    split
    next heq =>
      rw [heq] at hstale
      exact hstale
    next s₁ heq =>
      rw [heq] at hstale
      have hidle := pass_kept (p := fun row => row.state = some .active ∧
          Unauthorized P (nowMs P params.now clock) params.idleSoftMs row)
        (rewrites_idleSession (fun row hrow hclosed => by cases hrow.1.symm.trans hclosed) now)
        hstale.numbered
      split
      next heq₂ =>
        rw [heq₂] at hidle
        exact hstale.trans hidle
      next s₂ heq₂ =>
        rw [heq₂] at hidle
        have hclosed := pass_kept (p := fun row => row.state = some .idle ∧
            IdleExpired P (nowMs P params.now clock) params.idleHardMs row)
          (rewrites_closedSession (fun row hrow hclosed => by cases hrow.1.symm.trans hclosed) now
            .idleTimeout (fun _ => none)) hidle.numbered
        split <;>
          next heq₃ =>
            rw [heq₃] at hclosed
            exact (hstale.trans hidle).trans hclosed

/-! ## Sessions with a state -/

/-- Every stored session has a state. -/
def Stated (sessions : Sessions) : Prop :=
  ∀ id row, sessions.get? id = some row → row.state ≠ none

/-- No update of a session, stored and not closed, says that its state is `undefined`. -/
def LeavesState (sessions : Sessions) : SessionOperation → Prop
  | .update sessionId patch _ => ∀ row, sessions.get? sessionId = some row →
      row.state ≠ some .closed → patch.state ≠ some none
  | _ => True

theorem stated_empty : Stated OrderedMap.empty := by simp [Stated]

theorem closedSession_state {now : String} {reason : CloseReason} {idleSince : Option String}
    {row row' : Session} (hclosed : closedSession now reason idleSince row = .ok row') :
    row'.state = some .closed := by
  simp only [closedSession, bind_eq_ok, pure_eq_ok] at hclosed
  obtain ⟨revision, _, rfl⟩ := hclosed
  rfl

theorem idleSession_state {now : String} {row row' : Session}
    (hidle : idleSession now row = .ok row') : row'.state = some .idle := by
  simp only [idleSession, bind_eq_ok, pure_eq_ok] at hidle
  obtain ⟨revision, _, rfl⟩ := hidle
  rfl

section Stated

variable {sessions : Sessions} (hstated : Stated sessions) {clock : Int}

include hstated

theorem stated_set {id : String} {row' : Session} (hstate : row'.state ≠ none) :
    Stated (sessions.set id row') := by
  intro other row hrow
  rw [OrderedMap.get?_set] at hrow
  split at hrow
  next =>
    cases hrow
    exact hstate
  next => exact hstated other row hrow

theorem store_stated {sessionId : String} {computed : Except SessionError Session}
    (hstate : ∀ session, computed = .ok session → session.state ≠ none) :
    Stated (store sessionId computed sessions).2 := by
  unfold store
  split
  next => exact hstated
  next session => exact stated_set hstated (hstate session rfl)

theorem create_stated (input : SessionCreateInput) :
    Stated (create input clock sessions).2 := by
  refine store_stated hstated fun session hsession => ?_
  simp only [newSession, bind_eq_ok, exists_unit, require_eq_ok, pure_eq_ok] at hsession
  obtain ⟨_, _, _, _, rfl⟩ := hsession
  by_cases hactive : input.initialState = some .active <;> simp [hactive]

theorem update_stated {sessionId : String} {patch : SessionUpdatePatch}
    (hleaves : LeavesState sessions (.update sessionId patch clock)) :
    Stated (store sessionId (updatedSession sessionId patch clock sessions) sessions).2 := by
  refine store_stated hstated fun session hsession => ?_
  simp only [updatedSession, bind_eq_ok, exists_unit, require_eq_ok, pure_eq_ok, lookup_eq_ok]
    at hsession
  obtain ⟨row, hrow, hopened, _, _, revision, _, rfl⟩ := hsession
  have hpatch := hleaves row hrow hopened
  cases hstate : patch.state with
  | none => simpa [patched, hstate] using hstated sessionId row hrow
  | some state => simpa [patched, hstate] using hpatch

theorem resume_stated (P : SessionPorts) (input : SessionResumeInput) :
    Stated (resume P input clock sessions).2 := by
  have hset : ∀ session error, resumedSession P input clock sessions = .ok (session, error) →
      session.state ≠ none := by
    intro session error hsession
    simp only [resumedSession, bind_eq_ok] at hsession
    obtain ⟨row, _, hsession⟩ := hsession
    split at hsession <;>
      simp only [bind_eq_ok, pure_eq_ok, Prod.mk.injEq] at hsession
    next =>
      obtain ⟨_, _, closed, hclosed, rfl, _⟩ := hsession
      simp [closedSession_state hclosed]
    next =>
      obtain ⟨_, _, revision, _, rfl, _⟩ := hsession
      simp
  unfold resume
  split
  next => exact hstated
  next session heq => exact stated_set hstated (hset session none heq)
  next session error heq => exact stated_set hstated (hset session (some error) heq)

theorem supersedeAndCreate_stated (params : SupersedeParams) :
    Stated (supersedeAndCreate params clock sessions).2 := by
  unfold supersedeAndCreate
  split
  next => exact hstated
  next old _ =>
    split
    next =>
      split
      next => exact hstated
      next closed hclosed =>
        have hbind : (nowText params.now clock >>= fun now =>
            closedSession now params.fallbackCloseReason none old) = .ok closed := hclosed
        rw [bind_eq_ok] at hbind
        obtain ⟨_, _, hclosed⟩ := hbind
        exact create_stated (stated_set hstated (by simp [closedSession_state hclosed])) _
    next => exact create_stated hstated _

theorem claimForDispatch_stated (params : ClaimParams) :
    Stated (store params.sessionId (claimedSession params clock sessions) sessions).2 := by
  refine store_stated hstated fun session hclaimed => ?_
  simp only [claimedSession, bind_eq_ok, exists_unit, require_eq_ok, pure_eq_ok, lookup_eq_ok]
    at hclaimed
  obtain ⟨row, hrow, _, _, _, _, _, _, revision, _, rfl⟩ := hclaimed
  exact hstated _ row hrow

theorem markAuthorized_stated (params : AuthorizeParams) :
    Stated (store params.sessionId (authorizedSession params clock sessions) sessions).2 := by
  refine store_stated hstated fun session hauthorized => ?_
  simp only [authorizedSession, bind_eq_ok, exists_unit, require_eq_ok, pure_eq_ok, lookup_eq_ok]
    at hauthorized
  obtain ⟨row, hrow, _, _, _, _, _, revision, _, rfl⟩ := hauthorized
  exact hstated _ row hrow

theorem sweep_stated {p : Session → Prop} [DecidablePred p]
    {rewrite : Session → Except SessionError Session} {entries : List (String × Session)}
    (hrewrite : ∀ row row', rewrite row = .ok row' → row'.state ≠ none) :
    Stated (sweep p rewrite entries sessions).2 := by
  induction entries generalizing sessions with
  | nil => exact hstated
  | cons entry rest ih =>
      obtain ⟨id, row⟩ := entry
      by_cases hp : p row
      · cases hrow : rewrite row with
        | error error =>
            simp only [sweep, hp, if_true, hrow]
            exact hstated
        | ok row' =>
            simp only [sweep, hp, if_true, hrow]
            exact ih (stated_set hstated (hrewrite row row' hrow))
      · simp only [sweep, hp, if_false]
        exact ih hstated

theorem pass_stated {p : Session → Prop} [DecidablePred p]
    {rewrite : Session → Except SessionError Session}
    (hrewrite : ∀ row row', rewrite row = .ok row' → row'.state ≠ none) :
    Stated (pass p rewrite sessions).2 :=
  sweep_stated hstated hrewrite

theorem closeAll_stated {p : Session → Prop} [DecidablePred p] {reason : Option CloseReason}
    {now : Option String} : Stated (closeAll p reason now clock sessions).2 := by
  unfold closeAll
  split
  next => exact hstated
  next =>
    exact sweep_stated hstated fun row row' hclosed => by simp [closedSession_state hclosed]

theorem cleanExpired_stated (P : SessionPorts) (params : CleanParams) :
    Stated (cleanExpired P params clock sessions).2 := by
  unfold cleanExpired
  dsimp only
  split
  next => exact hstated
  next now _ =>
    have hstale : Stated (pass (fun row => row.state = some .created ∧
        Elapsed P (nowMs P params.now clock) row.createdAt params.createdTimeoutMs)
        (fun row => closedSession now .handshakeRejected row.idleSince row) sessions).2 :=
      pass_stated hstated fun row row' hclosed => by simp [closedSession_state hclosed]
    split
    next heq =>
      rw [heq] at hstale
      exact hstale
    next s₁ heq =>
      rw [heq] at hstale
      have hidle : Stated (pass (fun row => row.state = some .active ∧
          Unauthorized P (nowMs P params.now clock) params.idleSoftMs row)
          (idleSession now) s₁).2 :=
        pass_stated hstale fun row row' hidle => by simp [idleSession_state hidle]
      split
      next heq₂ =>
        rw [heq₂] at hidle
        exact hidle
      next s₂ heq₂ =>
        rw [heq₂] at hidle
        have hclosed : Stated (pass (fun row => row.state = some .idle ∧
            IdleExpired P (nowMs P params.now clock) params.idleHardMs row)
            (closedSession now .idleTimeout none) s₂).2 :=
          pass_stated hidle fun row row' hclosed => by simp [closedSession_state hclosed]
        split <;>
          next heq₃ =>
            rw [heq₃] at hclosed
            exact hclosed

theorem perform_stated (P : SessionPorts) (operation : SessionOperation)
    (hleaves : LeavesState sessions operation) : Stated (operation.perform P sessions).2 := by
  cases operation with
  | create input clock => exact create_stated hstated input
  | get sessionId => exact hstated
  | update sessionId patch clock => exact update_stated hstated hleaves
  | resume input clock => exact resume_stated hstated P input
  | supersedeAndCreate params clock => exact supersedeAndCreate_stated hstated params
  | claimForDispatch params clock => exact claimForDispatch_stated hstated params
  | markAuthorized params clock => exact markAuthorized_stated hstated params
  | closeByToken tokenId reason now clock => exact closeAll_stated hstated
  | closeByPrincipal principalDid reason now clock => exact closeAll_stated hstated
  | listActive filter => exact hstated
  | cleanExpired params clock => exact cleanExpired_stated hstated P params

end Stated

/-! ## Runs -/

def sessionStep (P : SessionPorts) (sessions : Sessions) (operation : SessionOperation) :
    Option Sessions :=
  some (operation.perform P sessions).2

theorem perform_kept (P : SessionPorts) (operation : SessionOperation) {sessions : Sessions}
    (hnumbered : Numbered sessions) : Kept sessions (operation.perform P sessions).2 := by
  cases operation with
  | create input clock => exact create_kept hnumbered input
  | get sessionId => exact .refl hnumbered
  | update sessionId patch clock => exact update_kept hnumbered sessionId patch
  | resume input clock => exact resume_kept hnumbered P input
  | supersedeAndCreate params clock => exact supersedeAndCreate_kept hnumbered params
  | claimForDispatch params clock =>
      exact store_kept hnumbered fun session hsession =>
        (claimedSession_spec hnumbered hsession).2
  | markAuthorized params clock =>
      exact store_kept hnumbered fun session hsession =>
        (authorizedSession_spec hnumbered hsession).2
  | closeByToken tokenId reason now clock => exact (closeAll_spec hnumbered).1
  | closeByPrincipal principalDid reason now clock => exact (closeAll_spec hnumbered).1
  | listActive filter => exact .refl hnumbered
  | cleanExpired params clock => exact cleanExpired_kept P params hnumbered

theorem run_kept (P : SessionPorts) (operations : List SessionOperation)
    {sessions sessions' : Sessions} (hnumbered : Numbered sessions)
    (hrun : run (sessionStep P) sessions operations = some sessions') :
    Kept sessions sessions' := by
  induction operations generalizing sessions with
  | nil =>
      cases hrun
      exact .refl hnumbered
  | cons operation rest ih =>
      have hkept := perform_kept P operation hnumbered
      exact hkept.trans (ih hkept.numbered hrun)

theorem numbered_empty : Numbered OrderedMap.empty := by simp [Numbered]

/-! ## The fence -/

theorem mem_keepDid {wanted : Option String} {did : Session → String} {l : List Session}
    {s : Session} (hs : s ∈ keepDid wanted did l) : s ∈ l := by
  unfold keepDid at hs
  split at hs
  next => exact hs
  next =>
    split at hs
    next => exact hs
    next => exact List.mem_of_mem_filter hs

theorem mem_keepLimit {limit : Option Int} {l : List Session} {s : Session}
    (hs : s ∈ keepLimit limit l) : s ∈ l := by
  unfold keepLimit at hs
  split at hs
  next => exact hs
  next =>
    split at hs
    next => exact hs
    next =>
      split at hs
      next => exact List.mem_of_mem_take hs
      next => exact List.mem_of_mem_take hs

theorem Numbered.get?_sessionId {sessions : Sessions} (hnumbered : Numbered sessions)
    {id : String} {row : Session} (hrow : sessions.get? id = some row) :
    sessions.get? row.sessionId = some row := by
  rw [(hnumbered id row hrow).1]
  exact hrow

theorem mem_sortSessions {P : SessionPorts} {results sorted : List Session}
    (hsorted : sortSessions P results = .ok sorted) {s : Session} (hs : s ∈ sorted) :
    s ∈ results := by
  unfold sortSessions at hsorted
  split at hsorted
  next =>
    cases hsorted
    exact List.mem_mergeSort.mp hs
  next =>
    split at hsorted
    next => cases hsorted
    next hundated =>
      cases hsorted
      exact P.mem_of_sortUndated results _ hundated s hs

theorem listActive_stored {P : SessionPorts} {filter : SessionListActiveFilter}
    {sessions : Sessions} (hnumbered : Numbered sessions) {listed : List Session}
    (hlisted : listActive P filter sessions = .ok listed) {s : Session} (hs : s ∈ listed) :
    sessions.get? s.sessionId = some s := by
  obtain ⟨sorted, hsorted, rfl⟩ := map_eq_ok.mp hlisted
  have hfiltered := mem_keepDid (mem_keepDid (mem_sortSessions hsorted (mem_keepLimit hs)))
  obtain ⟨⟨id, row⟩, hentry, rfl⟩ := List.mem_map.mp (List.mem_of_mem_filter hfiltered)
  exact hnumbered.get?_sessionId ((OrderedMap.mem_entries_iff sessions id row).mp hentry)

theorem store_stored {sessions : Sessions} {sessionId : String}
    {computed : Except SessionError Session} {value : SessionValue}
    (hvalue : (store sessionId computed sessions).1 = .ok value) {snapshot : Session}
    (hsnapshot : snapshot ∈ value.snapshots) :
    (store sessionId computed sessions).2.get? sessionId = some snapshot := by
  unfold store at hvalue ⊢
  split at hvalue
  next => cases hvalue
  next session =>
    cases hvalue
    cases List.mem_singleton.mp hsnapshot
    exact (OrderedMap.get?_set ..).trans (if_pos rfl)

theorem supersedeAndCreate_stored {params : SupersedeParams} {clock : Int} {sessions : Sessions}
    {value : SessionValue} {snapshot : Session} (hsnapshot : snapshot ∈ value.snapshots) :
    (supersedeAndCreate params clock sessions).1 = .ok value →
      (supersedeAndCreate params clock sessions).2.get? params.newCreateInput.sessionId =
        some snapshot := by
  unfold supersedeAndCreate
  split
  next => exact fun hvalue => by cases hvalue
  next old _ =>
    split
    next =>
      split
      next => exact fun hvalue => by cases hvalue
      next => exact fun hvalue => store_stored hvalue hsnapshot
    next => exact fun hvalue => store_stored hvalue hsnapshot

/-- What an operation returns is what is stored after it. -/
theorem snapshot_stored (P : SessionPorts) (operation : SessionOperation) {sessions : Sessions}
    (hnumbered : Numbered sessions) {value : SessionValue}
    (hvalue : (operation.perform P sessions).1 = .ok value) {snapshot : Session}
    (hsnapshot : snapshot ∈ value.snapshots) :
    (operation.perform P sessions).2.get? snapshot.sessionId = some snapshot := by
  have hafter := (perform_kept P operation hnumbered).numbered
  suffices hstored : ∃ id, (operation.perform P sessions).2.get? id = some snapshot by
    obtain ⟨id, hid⟩ := hstored
    exact hafter.get?_sessionId hid
  cases operation with
  | create input clock => exact ⟨_, store_stored hvalue hsnapshot⟩
  | get sessionId =>
      cases hvalue
      exact ⟨sessionId, Option.mem_toList.mp hsnapshot⟩
  | update sessionId patch clock => exact ⟨_, store_stored hvalue hsnapshot⟩
  | resume input clock =>
      simp only [SessionOperation.perform, resume] at hvalue ⊢
      split at hvalue
      next => cases hvalue
      next session _ =>
        cases hvalue
        cases List.mem_singleton.mp hsnapshot
        exact ⟨input.sessionId, (OrderedMap.get?_set ..).trans (if_pos rfl)⟩
      next => cases hvalue
  | supersedeAndCreate params clock => exact ⟨_, supersedeAndCreate_stored hsnapshot hvalue⟩
  | claimForDispatch params clock => exact ⟨_, store_stored hvalue hsnapshot⟩
  | markAuthorized params clock => exact ⟨_, store_stored hvalue hsnapshot⟩
  | closeByToken tokenId reason now clock =>
      obtain ⟨ids, rfl⟩ := closeAll_ids hvalue
      cases hsnapshot
  | closeByPrincipal principalDid reason now clock =>
      obtain ⟨ids, rfl⟩ := closeAll_ids hvalue
      cases hsnapshot
  | listActive filter =>
      obtain ⟨listed, hlisted, rfl⟩ := map_eq_ok.mp hvalue
      exact ⟨_, listActive_stored hnumbered hlisted hsnapshot⟩
  | cleanExpired params clock =>
      simp only [SessionOperation.perform, cleanExpired] at hvalue
      repeat' split at hvalue
      all_goals
        cases hvalue
        try cases hsnapshot

/-- The sessions can be dispatched to: some claim of it succeeds. -/
def Dispatchable (P : SessionPorts) (sessions : Sessions) (sessionId : String) : Prop :=
  ∃ params clock value, params.sessionId = sessionId ∧
    ((SessionOperation.claimForDispatch params clock).perform P sessions).1 = .ok value

theorem store_eq_ok {sessions : Sessions} {sessionId : String}
    {computed : Except SessionError Session} {value : SessionValue}
    (hvalue : (store sessionId computed sessions).1 = .ok value) :
    ∃ session, computed = .ok session := by
  unfold store at hvalue
  split at hvalue
  next => cases hvalue
  next session => exact ⟨session, rfl⟩

theorem active_of_dispatchable {P : SessionPorts} {sessions : Sessions} {sessionId : String}
    (hnumbered : Numbered sessions) (hdispatch : Dispatchable P sessions sessionId) :
    ∃ row, sessions.get? sessionId = some row ∧ row.state = some .active := by
  obtain ⟨params, clock, value, rfl, hvalue⟩ := hdispatch
  obtain ⟨session, hclaimed⟩ := store_eq_ok hvalue
  exact (claimedSession_spec hnumbered hclaimed).1

/-- A closed session is never changed again. -/
theorem closed_final {P : SessionPorts} {sessions sessions' : Sessions}
    (hnumbered : Numbered sessions) {id : String} {row : Session}
    (hrow : sessions.get? id = some row) (hclosed : row.state = some .closed)
    {later : List SessionOperation}
    (hrun : run (sessionStep P) sessions later = some sessions') :
    sessions'.get? id = some row := by
  obtain ⟨row', hrow', rfl | hmutated⟩ := (run_kept P later hnumbered hrun).evolves id row hrow
  · exact hrow'
  · exact absurd hclosed hmutated.opened

theorem not_dispatchable_of_closed {P : SessionPorts} {sessions sessions' : Sessions}
    (hnumbered : Numbered sessions) {id : String} {row : Session}
    (hrow : sessions.get? id = some row) (hclosed : row.state = some .closed)
    {later : List SessionOperation}
    (hrun : run (sessionStep P) sessions later = some sessions') :
    ¬ Dispatchable P sessions' id := by
  intro hdispatch
  obtain ⟨row', hrow', hactive⟩ :=
    active_of_dispatchable (run_kept P later hnumbered hrun).numbered hdispatch
  cases hrow'.symm.trans (closed_final hnumbered hrow hclosed hrun)
  cases hactive.symm.trans hclosed

/-- A session that has the revision of an earlier version is that version, and was it all
the time. -/
theorem unchanged_of_revision {P : SessionPorts} {sessions mid sessions' : Sessions}
    (hnumbered : Numbered sessions) {id : String} {snapshot row : Session}
    (hsnapshot : sessions.get? id = some snapshot) {before after : List SessionOperation}
    (hbefore : run (sessionStep P) sessions before = some mid)
    (hafter : run (sessionStep P) mid after = some sessions')
    (hrow : sessions'.get? id = some row) (hrevision : row.revision = snapshot.revision) :
    mid.get? id = some snapshot := by
  have hkept := run_kept P before hnumbered hbefore
  obtain ⟨row₁, hrow₁, hfirst⟩ := hkept.evolves id snapshot hsnapshot
  obtain ⟨row₂, hrow₂, hsecond⟩ := (run_kept P after hkept.numbered hafter).evolves id row₁ hrow₁
  cases hrow.symm.trans hrow₂
  obtain rfl | hfirst := hfirst
  · exact hrow₁
  · -- The revision has grown since the snapshot, so it is not the snapshot's.
    have hnewer : Newer snapshot row := by
      obtain rfl | hsecond := hsecond
      · exact hfirst.newer
      · exact hfirst.newer.trans hsecond.newer
    exact absurd hrevision hnewer.revision_ne

/-- A change of a session raises its revision; an authorization at the revision of a snapshot
finds the session as it was in the snapshot, and so it was at all times between; a dispatch is
claimed on an active session; a closed session is never changed; and a session whose token or
principal was revoked is never dispatched to again. -/
structure Fence (P : SessionPorts) (sessions : Sessions) : Prop where
  newer : ∀ operation id row row', sessions.get? id = some row →
    (SessionOperation.perform P operation sessions).2.get? id = some row' →
      row' = row ∨ Newer row row'
  unchanged : ∀ operation value snapshot,
    (SessionOperation.perform P operation sessions).1 = .ok value →
    snapshot ∈ value.snapshots → ∀ before after mid sessions',
    run (sessionStep P) (operation.perform P sessions).2 before = some mid →
    run (sessionStep P) mid after = some sessions' →
    ∀ params clock value', params.sessionId = snapshot.sessionId →
      params.expectedRevision = snapshot.revision →
      ((SessionOperation.markAuthorized params clock).perform P sessions').1 = .ok value' →
        mid.get? snapshot.sessionId = some snapshot
  active : ∀ id, Dispatchable P sessions id →
    ∃ row, sessions.get? id = some row ∧ row.state = some .active
  final : ∀ id row, sessions.get? id = some row → row.state = some .closed → ∀ later sessions',
    run (sessionStep P) sessions later = some sessions' → sessions'.get? id = some row
  byToken : ∀ tokenId reason now clock value,
    (closeByToken tokenId reason now clock sessions).1 = .ok value →
    ∀ id row, sessions.get? id = some row → row.capabilityTokenId = some tokenId →
    ∀ later sessions', run (sessionStep P)
        (closeByToken tokenId reason now clock sessions).2 later = some sessions' →
      ¬ Dispatchable P sessions' id
  byPrincipal : ∀ principalDid reason now clock value,
    (closeByPrincipal principalDid reason now clock sessions).1 = .ok value →
    ∀ id row, sessions.get? id = some row → row.principalDid = principalDid →
    ∀ later sessions', run (sessionStep P)
        (closeByPrincipal principalDid reason now clock sessions).2 later = some sessions' →
      ¬ Dispatchable P sessions' id

theorem fence_of_stated {P : SessionPorts} {sessions : Sessions} (hnumbered : Numbered sessions)
    (hstated : Stated sessions) : Fence P sessions := by
  constructor
  case newer =>
    intro operation id row row' hrow hrow'
    obtain ⟨row₁, hrow₁, hchange⟩ := (perform_kept P operation hnumbered).evolves id row hrow
    cases hrow'.symm.trans hrow₁
    exact hchange.imp_right Mutated.newer
  case unchanged =>
    intro operation value snapshot hvalue hsnapshot before after mid sessions' hbefore hafter
      params clock value' hid hrevision hauthorized
    have hnumbered₁ := (perform_kept P operation hnumbered).numbered
    have hstored := snapshot_stored P operation hnumbered hvalue hsnapshot
    have hkept := run_kept P before hnumbered₁ hbefore
    have hnumbered' := (run_kept P after hkept.numbered hafter).numbered
    obtain ⟨session, hsession⟩ := store_eq_ok hauthorized
    obtain ⟨⟨row, hrow, hexpected⟩, _⟩ := authorizedSession_spec hnumbered' hsession
    exact unchanged_of_revision hnumbered₁ hstored hbefore hafter (hid ▸ hrow)
      (hexpected.trans hrevision)
  case active => exact fun id => active_of_dispatchable hnumbered
  case final =>
    intro id row hrow hclosed later sessions' hlater
    exact closed_final hnumbered hrow hclosed hlater
  case byToken =>
    intro tokenId reason now clock value hvalue id row hrow htoken later sessions' hlater
    obtain ⟨hkept, hclosed⟩ :=
      closeAll_spec (p := fun row => row.capabilityTokenId = some tokenId) hnumbered
    obtain ⟨row', hrow', hstate⟩ := hclosed value hvalue id row hrow htoken (hstated id row hrow)
    exact not_dispatchable_of_closed hkept.numbered hrow' hstate hlater
  case byPrincipal =>
    intro principalDid reason now clock value hvalue id row hrow hprincipal later sessions' hlater
    obtain ⟨hkept, hclosed⟩ :=
      closeAll_spec (p := fun row => row.principalDid = principalDid) hnumbered
    obtain ⟨row', hrow', hstate⟩ :=
      hclosed value hvalue id row hrow hprincipal (hstated id row hrow)
    exact not_dispatchable_of_closed hkept.numbered hrow' hstate hlater

/-- The fence stands in every store that operations lead to when no update among them takes the
state of a session away. -/
theorem session_fence (P : SessionPorts) (operations : List SessionOperation)
    (sessions : Sessions)
    (hleaves : Along (sessionStep P) LeavesState OrderedMap.empty operations)
    (hrun : run (sessionStep P) OrderedMap.empty operations = some sessions) :
    Fence P sessions :=
  fence_of_stated (run_kept P operations numbered_empty hrun).numbered
    (run_invariant Stated
      (fun _ operation _ hstated hleaves hstep => by
        cases hstep
        exact perform_stated hstated P operation hleaves)
      stated_empty hleaves hrun)

/-! ## A revoked session -/

namespace Revocation

def ports : SessionPorts where
  getTime := Calendar.getTime
  localeCompare a b := if TextLe a b then -1 else 1
  sortUndated _ := none
  mem_of_sortUndated _ _ hsorted := by cases hsorted

def initiator : String := "did:agent:bcb87e6537efe28620ec0d8ef6e8e7e50e39bfad"

def responder : String := "did:agent:0f3b8fd5d1b0c2a7c9e1d4a6b8c0e2f4a6b8c0d2"

def input : SessionCreateInput where
  sessionId := "5e0c6f3a-1b7d-4c29-9a84-0f2e6d8b7c51"
  initiatorDid := initiator
  responderDid := responder
  principalDid := "did:key:z6MkuFTkJCZWP6hzDRkwrBHV62CCSLvzPqaj5a66KsBjGA6Y"
  capabilityTokenId := some "urn:cap:7c9e6679-7425-40de-944b-e07fc1f90ae7"
  capabilityTokenFingerprint := some "9f86d081884c7d65"
  negotiatedCapabilities := none
  encryptionState := none
  sessionKeyFingerprint := none
  initialState := some .active
  supersedesSessionId := none

def claim : ClaimParams where
  sessionId := input.sessionId
  senderDid := initiator
  selfDid := responder
  expectedCapabilityTokenId := input.capabilityTokenId
  expectedCapabilityTokenFingerprint := input.capabilityTokenFingerprint
  now := none

def noon : Int := 1781956800000

def opened : List SessionOperation := [.create input noon, .claimForDispatch claim (noon + 5)]

def sessions : Sessions :=
  ((SessionOperation.claimForDispatch claim (noon + 5)).perform ports
    ((SessionOperation.create input noon).perform ports OrderedMap.empty).2).2

def tokenId : String := "urn:cap:7c9e6679-7425-40de-944b-e07fc1f90ae7"

theorem exists_of_isOk {ε α : Type} {x : Except ε α} (hx : x.isOk = true) : ∃ a, x = .ok a := by
  cases x with
  | error error => cases hx
  | ok a => exact ⟨a, rfl⟩

/-- The session is dispatched to, and not after its token was revoked. -/
theorem revoked_undispatchable :
    run (sessionStep ports) OrderedMap.empty opened = some sessions ∧
      Dispatchable ports sessions input.sessionId ∧
      ¬ Dispatchable ports (closeByToken tokenId none none (noon + 9) sessions).2
        input.sessionId := by
  have hrun : run (sessionStep ports) OrderedMap.empty opened = some sessions := rfl
  have hclaim : ((SessionOperation.claimForDispatch claim (noon + 6)).perform ports
      sessions).1.isOk = true := by
    decide +kernel
  have hclose : (closeByToken tokenId none none (noon + 9) sessions).1.isOk = true := by
    decide +kernel
  have hfound : (sessions.get? input.sessionId).any
      (fun row => row.capabilityTokenId = some tokenId) = true := by
    decide +kernel
  obtain ⟨row, hrow, htoken⟩ := (Option.any_eq_true _ _).mp hfound
  obtain ⟨value, hvalue⟩ := exists_of_isOk hclaim
  obtain ⟨closed, hclosed⟩ := exists_of_isOk hclose
  refine ⟨hrun, ⟨claim, noon + 6, value, rfl, hvalue⟩, ?_⟩
  exact (session_fence ports opened sessions ⟨trivial, trivial, trivial⟩ hrun).byToken tokenId
    none none (noon + 9) closed hclosed input.sessionId row hrow (of_decide_eq_true htoken) [] _ rfl

/-! ### A session without a state -/

def noPatch : SessionUpdatePatch := ⟨none, none, none, none, none, none, none, none, none, none⟩

/-- `{ state: undefined }`. -/
def stateless : SessionUpdatePatch := { noPatch with state := some none }

/-- `{ state: 'ACTIVE' }`. -/
def activating : SessionUpdatePatch := { noPatch with state := some (some .active) }

def withdrawn : Sessions :=
  ((SessionOperation.update input.sessionId stateless (noon + 5)).perform ports
    ((SessionOperation.create input noon).perform ports OrderedMap.empty).2).2

def revoked : Sessions := (closeByToken tokenId none none (noon + 9) withdrawn).2

/-- The revocation passes over a session without a state, and the next update that names one
makes the session one to dispatch to. -/
theorem revoked_dispatchable :
    run (sessionStep ports) OrderedMap.empty
        [.create input noon, .update input.sessionId stateless (noon + 5)] = some withdrawn ∧
      (∃ value, (closeByToken tokenId none none (noon + 9) withdrawn).1 = .ok value) ∧
      (∃ row, withdrawn.get? input.sessionId = some row ∧ row.capabilityTokenId = some tokenId) ∧
      ∃ sessions, run (sessionStep ports) revoked
          [.update input.sessionId activating (noon + 12)] = some sessions ∧
        Dispatchable ports sessions input.sessionId := by
  have hclose : (closeByToken tokenId none none (noon + 9) withdrawn).1.isOk = true := by
    decide +kernel
  have hfound : (withdrawn.get? input.sessionId).any
      (fun row => row.capabilityTokenId = some tokenId) = true := by
    decide +kernel
  have hclaim : ((SessionOperation.claimForDispatch claim (noon + 15)).perform ports
      ((SessionOperation.update input.sessionId activating (noon + 12)).perform ports
        revoked).2).1.isOk = true := by
    decide +kernel
  obtain ⟨row, hrow, htoken⟩ := (Option.any_eq_true _ _).mp hfound
  obtain ⟨value, hvalue⟩ := exists_of_isOk hclaim
  exact ⟨rfl, exists_of_isOk hclose, ⟨row, hrow, of_decide_eq_true htoken⟩, _, rfl, claim,
    noon + 15, value, rfl, hvalue⟩

end Revocation

end Coivitas.Communication
