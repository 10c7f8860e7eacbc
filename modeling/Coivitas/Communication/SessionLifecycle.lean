import Coivitas.Communication.SessionFence

/-! # The lifecycle of a session

What the fields of a stored session say together, and the changes of its state. All operations
but one write sessions that fit together; `update` writes what its patch says.
-/

namespace Coivitas.Communication

open Foundation

/-! ## Sessions that fit together -/

structure Session.Coherent (row : Session) : Prop where
  stated : row.state ≠ none
  closed : row.state = some .closed ↔ row.closedAt.isSome ∧ row.closeReason.isSome
  idle : row.state = some .idle ↔ row.idleSince.isSome
  off : row.encryptionState = .off → row.sessionKeyFingerprint = none ∧ row.rekeyCount = 0

/-- The changes of the state machine. -/
inductive StateChange : Option SessionState → Option SessionState → Prop where
  | activate : StateChange (some .created) (some .active)
  | idle : StateChange (some .active) (some .idle)
  | resume : StateChange (some .idle) (some .active)
  | close {state : SessionState} (hlive : state ≠ .closed) :
      StateChange (some state) (some .closed)

/-- An operation at a time takes the stored session to the other one. A session that goes idle
is given the time. -/
structure Advances (time : Option Int) (row row' : Session) : Prop where
  change : row.Coherent → row.state = row'.state ∨ StateChange row.state row'.state
  coherent : row.Coherent → row'.Coherent
  idle : row'.state = some .idle →
    row.state = some .idle ∧ row'.idleSince = row.idleSince ∨
      row.state ≠ some .idle ∧ ∃ ms text, time = some ms ∧ Calendar.toISOString ms = some text ∧
        row'.idleSince = some text

theorem Advances.refl (time : Option Int) (row : Session) : Advances time row row :=
  ⟨fun _ => .inl rfl, id, fun hidle => .inl ⟨hidle, rfl⟩⟩

/-- A session goes on with other times and another revision. -/
theorem advances_of_fields {time : Option Int} {row row' : Session}
    (hstate : row'.state = row.state) (hclosedAt : row'.closedAt = row.closedAt)
    (hcloseReason : row'.closeReason = row.closeReason)
    (hidleSince : row'.idleSince = row.idleSince)
    (hencryption : row'.encryptionState = row.encryptionState)
    (hkey : row'.sessionKeyFingerprint = row.sessionKeyFingerprint)
    (hrekey : row'.rekeyCount = row.rekeyCount) : Advances time row row' := by
  refine ⟨fun _ => .inl hstate.symm, fun hrow => ?_,
    fun hidle => .inl ⟨hstate ▸ hidle, hidleSince⟩⟩
  constructor
  · rw [hstate]
    exact hrow.stated
  · rw [hstate, hclosedAt, hcloseReason]
    exact hrow.closed
  · rw [hstate, hidleSince]
    exact hrow.idle
  · rw [hencryption, hkey, hrekey]
    exact hrow.off

/-- A live session is closed. -/
structure Closes (row row' : Session) : Prop where
  live : row.state ≠ some .closed
  state : row'.state = some .closed
  closedAt : row'.closedAt.isSome
  closeReason : row'.closeReason.isSome
  idleSince : row.Coherent → row'.idleSince = none
  encryptionState : row'.encryptionState = row.encryptionState
  sessionKeyFingerprint : row'.sessionKeyFingerprint = row.sessionKeyFingerprint
  rekeyCount : row'.rekeyCount = row.rekeyCount

theorem Closes.advances {time : Option Int} {row row' : Session} (hcloses : Closes row row') :
    Advances time row row' := by
  constructor
  case change =>
    intro hrow
    obtain ⟨state, hstate⟩ := Option.ne_none_iff_exists'.mp hrow.stated
    rw [hcloses.state, hstate]
    exact .inr (.close fun heq => hcloses.live (hstate.trans (congrArg some heq)))
  case coherent =>
    intro hrow
    constructor
    · simp [hcloses.state]
    · simp [hcloses.state, hcloses.closedAt, hcloses.closeReason]
    · simp [hcloses.state, hcloses.idleSince hrow]
    · rw [hcloses.encryptionState, hcloses.sessionKeyFingerprint, hcloses.rekeyCount]
      exact hrow.off
  case idle =>
    intro hidle
    cases hcloses.state.symm.trans hidle

theorem closes_of_closedSession {now : String} {reason : CloseReason} {idleSince : Option String}
    {row row' : Session} (hlive : row.state ≠ some .closed)
    (hidle : row.Coherent → idleSince = none)
    (hclosed : closedSession now reason idleSince row = .ok row') : Closes row row' := by
  simp only [closedSession, bind_eq_ok, pure_eq_ok] at hclosed
  obtain ⟨revision, -, rfl⟩ := hclosed
  exact ⟨hlive, rfl, rfl, rfl, hidle, rfl, rfl, rfl⟩

/-- An active session goes idle. -/
theorem advances_of_idleSession {ms : Int} {now : String} {row row' : Session}
    (hactive : row.state = some .active) (hnow : Calendar.toISOString ms = some now)
    (hidle : idleSession now row = .ok row') : Advances (some ms) row row' := by
  simp only [idleSession, bind_eq_ok, pure_eq_ok] at hidle
  obtain ⟨revision, -, rfl⟩ := hidle
  constructor
  case change =>
    rw [hactive]
    exact fun _ => .inr .idle
  case coherent =>
    intro hrow
    have hopen := hrow.closed.not.mp (by simp [hactive])
    constructor
    · simp
    · simpa using hopen
    · simp
    · exact hrow.off
  case idle =>
    exact fun _ => .inr ⟨by simp [hactive], ms, now, rfl, hnow, rfl⟩

/-! ## What an operation does to the store -/

/-- Every session was advanced, or is new. -/
structure Progress (time : Option Int) (sessions sessions' : Sessions) : Prop where
  rows : ∀ id row', sessions'.get? id = some row' →
    (∃ row, sessions.get? id = some row ∧ Advances time row row') ∨
      sessions.get? id = none ∧ row'.Coherent ∧ row'.state ≠ some .idle

theorem Progress.refl (time : Option Int) (sessions : Sessions) : Progress time sessions sessions :=
  ⟨fun _ row hrow => .inl ⟨row, hrow, .refl time row⟩⟩

section Operations

variable {time : Option Int} {sessions sessions' : Sessions} {clock : Int}

theorem progress_set {id : String} {row row' : Session} (hrow : sessions.get? id = some row)
    (hadvances : Advances time row row') : Progress time sessions (sessions.set id row') := by
  constructor
  intro other found hfound
  rw [OrderedMap.get?_set] at hfound
  split at hfound
  next heq =>
    cases hfound
    exact .inl ⟨row, heq ▸ hrow, hadvances⟩
  next => exact .inl ⟨found, hfound, .refl time found⟩

theorem store_progress {sessionId : String} {computed : Except SessionError Session}
    (hset : ∀ row', computed = .ok row' →
      ∃ row, sessions.get? sessionId = some row ∧ Advances time row row') :
    Progress time sessions (store sessionId computed sessions).2 := by
  unfold store
  split
  next => exact .refl time sessions
  next row' =>
    obtain ⟨row, hrow, hadvances⟩ := hset row' rfl
    exact progress_set hrow hadvances

/-- A session is created under a new identifier. -/
theorem Progress.create (hprogress : Progress time sessions sessions')
    (hkept : Evolves sessions sessions') (input : SessionCreateInput) :
    Progress time sessions (create input clock sessions').2 := by
  unfold Communication.create store
  split
  next => exact hprogress
  next session hsession =>
    simp only [newSession, bind_eq_ok, exists_unit, require_eq_ok, pure_eq_ok] at hsession
    obtain ⟨hfresh, now, -, hkey, rfl⟩ := hsession
    constructor
    intro id row' hrow'
    rw [OrderedMap.get?_set] at hrow'
    split at hrow'
    next heq =>
      cases hrow'
      refine .inr ⟨?_, ?_, ?_⟩
      · cases hrow : sessions.get? id with
        | none => rfl
        | some row =>
            obtain ⟨kept, hkept, -⟩ := hkept id row hrow
            rw [OrderedMap.has, heq, hkept] at hfresh
            cases hfresh
      · constructor
        · by_cases hactive : input.initialState = some .active <;> simp [hactive]
        · by_cases hactive : input.initialState = some .active <;> simp [hactive]
        · by_cases hactive : input.initialState = some .active <;> simp [hactive]
        · intro hoff
          simp only at hoff
          simp [hoff]
      · by_cases hactive : input.initialState = some .active <;> simp [hactive]
    next => exact hprogress.rows id row' hrow'

theorem create_progress (input : SessionCreateInput) :
    Progress time sessions (create input clock sessions).2 :=
  (Progress.refl time sessions).create (.refl sessions) input

theorem resume_progress (P : SessionPorts) (input : SessionResumeInput) :
    Progress time sessions (resume P input clock sessions).2 := by
  have hset : ∀ row' error, resumedSession P input clock sessions = .ok (row', error) →
      ∃ row, sessions.get? input.sessionId = some row ∧ Advances time row row' := by
    intro row' error hresumed
    simp only [resumedSession, resumable, bind_eq_ok, exists_unit, require_eq_ok, pure_eq_ok,
      lookup_eq_ok] at hresumed
    obtain ⟨row, ⟨_, hrow, hopened, hidle, _, _, rfl⟩, hresumed⟩ := hresumed
    refine ⟨_, hrow, ?_⟩
    split at hresumed
    next =>
      simp only [bind_eq_ok, pure_eq_ok, Prod.mk.injEq] at hresumed
      obtain ⟨now, -, closed, hclosed, rfl, -⟩ := hresumed
      exact (closes_of_closedSession hopened (fun _ => rfl) hclosed).advances
    next =>
      simp only [bind_eq_ok, pure_eq_ok, Prod.mk.injEq] at hresumed
      obtain ⟨_, _, revision, -, rfl, -⟩ := hresumed
      constructor
      case change =>
        rw [hidle]
        exact fun _ => .inr .resume
      case coherent =>
        intro hrow
        have hopen := hrow.closed.not.mp hopened
        constructor
        · simp
        · simpa using hopen
        · simp
        · exact hrow.off
      case idle =>
        intro hactive
        cases hactive
  unfold resume
  split
  next => exact .refl time sessions
  next row' heq =>
    obtain ⟨row, hrow, hadvances⟩ := hset row' none heq
    exact progress_set hrow hadvances
  next row' error heq =>
    obtain ⟨row, hrow, hadvances⟩ := hset row' (some error) heq
    exact progress_set hrow hadvances

theorem supersedeAndCreate_progress (hnumbered : Numbered sessions) (params : SupersedeParams) :
    Progress time sessions (supersedeAndCreate params clock sessions).2 := by
  unfold supersedeAndCreate
  split
  next => exact .refl time sessions
  next old hold =>
    split
    next hopened =>
      split
      next => exact .refl time sessions
      next closed hclosed =>
        have hbind : (nowText params.now clock >>= fun now =>
            closedSession now params.fallbackCloseReason none old) = .ok closed := hclosed
        rw [bind_eq_ok] at hbind
        obtain ⟨now, -, hclosed⟩ := hbind
        have hkept : Kept sessions (sessions.set params.oldSessionId closed) := by
          simp only [closedSession, bind_eq_ok, pure_eq_ok] at hclosed
          obtain ⟨revision, hrevision, rfl⟩ := hclosed
          exact kept_mutation hnumbered hold hopened rfl rfl rfl hrevision
        exact (progress_set hold
          (closes_of_closedSession hopened (fun _ => rfl) hclosed).advances).create hkept.evolves _
    next => exact create_progress _

theorem claimForDispatch_progress (params : ClaimParams) :
    Progress time sessions
      (store params.sessionId (claimedSession params clock sessions) sessions).2 := by
  refine store_progress fun row' hclaimed => ?_
  simp only [claimedSession, bind_eq_ok, exists_unit, require_eq_ok, pure_eq_ok, lookup_eq_ok]
    at hclaimed
  obtain ⟨row, hrow, _, _, _, _, _, _, revision, -, rfl⟩ := hclaimed
  exact ⟨row, hrow, advances_of_fields rfl rfl rfl rfl rfl rfl rfl⟩

theorem markAuthorized_progress (params : AuthorizeParams) :
    Progress time sessions
      (store params.sessionId (authorizedSession params clock sessions) sessions).2 := by
  refine store_progress fun row' hauthorized => ?_
  simp only [authorizedSession, bind_eq_ok, exists_unit, require_eq_ok, pure_eq_ok, lookup_eq_ok]
    at hauthorized
  obtain ⟨row, hrow, _, _, _, _, _, revision, -, rfl⟩ := hauthorized
  exact ⟨row, hrow, advances_of_fields rfl rfl rfl rfl rfl rfl rfl⟩

end Operations

/-! ## Loops over the sessions -/

/-- The loop leaves a session as it was, or rewrites it. -/
theorem sweep_rows {p : Session → Prop} [DecidablePred p]
    {rewrite : Session → Except SessionError Session} {entries : List (String × Session)}
    {sessions : Sessions} {id : String} {row' : Session}
    (hrow' : (sweep p rewrite entries sessions).2.get? id = some row') :
    sessions.get? id = some row' ∨
      ∃ row, (id, row) ∈ entries ∧ p row ∧ rewrite row = .ok row' := by
  induction entries generalizing sessions with
  | nil => exact .inl hrow'
  | cons entry rest ih =>
      obtain ⟨first, row⟩ := entry
      by_cases hp : p row
      · cases hrewrite : rewrite row with
        | error error =>
            simp only [sweep, hp, if_true, hrewrite] at hrow'
            exact .inl hrow'
        | ok written =>
            simp only [sweep, hp, if_true, hrewrite] at hrow'
            obtain hsame | ⟨other, hother, hwritten⟩ := ih hrow'
            · rw [OrderedMap.get?_set] at hsame
              split at hsame
              next heq =>
                cases hsame
                exact .inr ⟨row, heq ▸ List.mem_cons_self, hp, hrewrite⟩
              next => exact .inl hsame
            · exact .inr ⟨other, List.mem_cons_of_mem _ hother, hwritten⟩
      · simp only [sweep, hp, if_false] at hrow'
        obtain hsame | ⟨other, hother, hwritten⟩ := ih hrow'
        · exact .inl hsame
        · exact .inr ⟨other, List.mem_cons_of_mem _ hother, hwritten⟩

/-- The loop runs through if no session of the kind is refused. -/
theorem sweep_ok {p : Session → Prop} [DecidablePred p]
    {rewrite : Session → Except SessionError Session} {entries : List (String × Session)}
    (hrewrite : ∀ entry ∈ entries, p entry.2 → ∃ row', rewrite entry.2 = .ok row')
    (sessions : Sessions) : ∃ ids, (sweep p rewrite entries sessions).1 = .ok ids := by
  induction entries generalizing sessions with
  | nil => exact ⟨[], rfl⟩
  | cons entry rest ih =>
      obtain ⟨first, row⟩ := entry
      rw [List.forall_mem_cons] at hrewrite
      obtain ⟨hfirst, hrest⟩ := hrewrite
      by_cases hp : p row
      · obtain ⟨row', hrow'⟩ := hfirst hp
        obtain ⟨ids, hids⟩ := ih hrest (sessions.set first row')
        refine ⟨first :: ids, ?_⟩
        simp only [sweep, hp, if_true, hrow', hids]
        rfl
      · obtain ⟨ids, hids⟩ := ih hrest sessions
        exact ⟨ids, by simp only [sweep, hp, if_false, hids]⟩

section Passes

variable {p : Session → Prop} [DecidablePred p] {rewrite : Session → Except SessionError Session}
  {sessions : Sessions} {id : String} {row row' : Session}

theorem pass_rows (hrow' : (pass p rewrite sessions).2.get? id = some row') :
    ∃ row, sessions.get? id = some row ∧ (row' = row ∨ p row ∧ rewrite row = .ok row') := by
  obtain hsame | ⟨row, hmem, hrewritten⟩ := sweep_rows hrow'
  · exact ⟨row', hsame, .inl rfl⟩
  · exact ⟨row, (OrderedMap.mem_entries_iff sessions id row).mp hmem, .inr hrewritten⟩

/-- A pass that can rewrite every numbered session runs through. -/
theorem pass_ok (hnumbered : Numbered sessions)
    (hrewrite : ∀ row, (∃ n : Nat, row.revision = toString n) → ∃ row', rewrite row = .ok row') :
    ∃ count, pass p rewrite sessions = (.ok count, (pass p rewrite sessions).2) := by
  have hentries : ∀ entry ∈ sessions.entries, p entry.2 → ∃ row', rewrite entry.2 = .ok row' := by
    intro entry hentry _
    have hrow := (OrderedMap.mem_entries_iff sessions entry.1 entry.2).mp hentry
    exact hrewrite entry.2 (hnumbered entry.1 entry.2 hrow).2
  obtain ⟨ids, hids⟩ := sweep_ok hentries sessions
  refine ⟨ids.length, Prod.ext ?_ rfl⟩
  show (sweep p rewrite sessions.entries sessions).1.map List.length = _
  rw [hids]
  rfl

/-- A session that is not of the kind is left alone. -/
theorem pass_other (hrewrites : Rewrites p rewrite) (hnumbered : Numbered sessions)
    (hrow : sessions.get? id = some row) (hother : ¬ p row) :
    (pass p rewrite sessions).2.get? id = some row := by
  obtain ⟨row', hrow', -⟩ := (pass_kept hrewrites hnumbered).evolves id row hrow
  obtain ⟨found, hfound, rfl | ⟨hp, -⟩⟩ := pass_rows hrow'
  · cases hrow.symm.trans hfound
    exact hrow'
  · cases hrow.symm.trans hfound
    exact absurd hp hother

end Passes

theorem closedSession_ok (now : String) (reason : CloseReason) (idleSince : Option String)
    {row : Session} (hrevision : ∃ n : Nat, row.revision = toString n) :
    ∃ row', closedSession now reason idleSince row = .ok row' := by
  obtain ⟨n, hn⟩ := hrevision
  rw [closedSession, hn, bumpRevision_toString]
  exact ⟨_, rfl⟩

theorem idleSession_ok (now : String) {row : Session}
    (hrevision : ∃ n : Nat, row.revision = toString n) :
    ∃ row', idleSession now row = .ok row' := by
  obtain ⟨n, hn⟩ := hrevision
  rw [idleSession, hn, bumpRevision_toString]
  exact ⟨_, rfl⟩

theorem closeAll_progress {p : Session → Prop} [DecidablePred p] {reason : Option CloseReason}
    {now : Option String} {clock : Int} {time : Option Int} {sessions : Sessions} :
    Progress time sessions (closeAll p reason now clock sessions).2 := by
  unfold closeAll
  split
  next => exact .refl time sessions
  next text _ =>
    constructor
    intro id row' hrow'
    obtain ⟨row, hrow, rfl | ⟨hp, hclosed⟩⟩ := pass_rows hrow'
    · exact .inl ⟨row', hrow, .refl time row'⟩
    · have hcloses := closes_of_closedSession hp.2.ne_closed (fun _ => rfl) hclosed
      exact .inl ⟨row, hrow, hcloses.advances⟩

/-! ## The three passes -/

section Cleaning

variable {P : SessionPorts} {params : CleanParams} {clock ms : Int} {now : String}
  {sessions : Sessions}

/-- The sessions of the three passes. -/
abbrev Stale (P : SessionPorts) (params : CleanParams) (time : Option Int) (row : Session) : Prop :=
  row.state = some .created ∧ Elapsed P time row.createdAt params.createdTimeoutMs

abbrev Resting (P : SessionPorts) (params : CleanParams) (time : Option Int) (row : Session) :
    Prop :=
  row.state = some .active ∧ Unauthorized P time params.idleSoftMs row

abbrev Overdue (P : SessionPorts) (params : CleanParams) (time : Option Int) (row : Session) :
    Prop :=
  row.state = some .idle ∧ IdleExpired P time params.idleHardMs row

/-- The sessions after the first pass, after two and after all of them. -/
def cleanedStale (P : SessionPorts) (params : CleanParams) (time : Option Int) (now : String)
    (sessions : Sessions) : Sessions :=
  (pass (Stale P params time) (fun row => closedSession now .handshakeRejected row.idleSince row)
    sessions).2

def cleanedActive (P : SessionPorts) (params : CleanParams) (time : Option Int) (now : String)
    (sessions : Sessions) : Sessions :=
  (pass (Resting P params time) (idleSession now) (cleanedStale P params time now sessions)).2

def cleaned (P : SessionPorts) (params : CleanParams) (time : Option Int) (now : String)
    (sessions : Sessions) : Sessions :=
  (pass (Overdue P params time) (closedSession now .idleTimeout none)
    (cleanedActive P params time now sessions)).2

theorem cleanedStale_kept (time : Option Int) (now : String) (hnumbered : Numbered sessions) :
    Kept sessions (cleanedStale P params time now sessions) :=
  pass_kept (rewrites_closedSession (fun _ hrow hclosed => by cases hrow.1.symm.trans hclosed) now
    .handshakeRejected Session.idleSince) hnumbered

theorem cleanedActive_kept (time : Option Int) (now : String) (hnumbered : Numbered sessions) :
    Kept sessions (cleanedActive P params time now sessions) :=
  have hstale := cleanedStale_kept time now hnumbered
  hstale.trans (pass_kept (rewrites_idleSession
    (fun _ hrow hclosed => by cases hrow.1.symm.trans hclosed) now) hstale.numbered)

/-- On numbered sessions no pass fails. -/
theorem cleanExpired_eq (hnumbered : Numbered sessions)
    (hnow : dateText (nowMs P params.now clock) = .ok now) :
    (cleanExpired P params clock sessions).2 =
      cleaned P params (nowMs P params.now clock) now sessions := by
  have hstaled : Kept sessions (cleanedStale P params (nowMs P params.now clock) now sessions) :=
    cleanedStale_kept _ now hnumbered
  have hactived : Kept sessions (cleanedActive P params (nowMs P params.now clock) now sessions) :=
    cleanedActive_kept _ now hnumbered
  obtain ⟨markedStale, hstale⟩ : ∃ count, pass (Stale P params (nowMs P params.now clock))
      (fun row => closedSession now .handshakeRejected row.idleSince row) sessions =
        (.ok count, cleanedStale P params (nowMs P params.now clock) now sessions) :=
    pass_ok hnumbered fun row hrow => closedSession_ok now _ row.idleSince hrow
  obtain ⟨markedIdle, hactive⟩ : ∃ count, pass (Resting P params (nowMs P params.now clock))
      (idleSession now) (cleanedStale P params (nowMs P params.now clock) now sessions) =
        (.ok count, cleanedActive P params (nowMs P params.now clock) now sessions) :=
    pass_ok hstaled.numbered fun row hrow => idleSession_ok now hrow
  obtain ⟨markedClosed, hidle⟩ : ∃ count, pass (Overdue P params (nowMs P params.now clock))
      (closedSession now .idleTimeout none)
        (cleanedActive P params (nowMs P params.now clock) now sessions) =
        (.ok count, cleaned P params (nowMs P params.now clock) now sessions) :=
    pass_ok hactived.numbered fun row hrow => closedSession_ok now _ none hrow
  unfold cleanExpired
  simp only [hnow]
  rw [hstale]
  simp only
  rw [hactive]
  simp only
  rw [hidle]

theorem dateText_eq_ok {time : Option Int} :
    dateText time = .ok now ↔ ∃ ms, time = some ms ∧ Calendar.toISOString ms = some now := by
  unfold dateText
  cases time with
  | none => simp
  | some ms => cases htext : Calendar.toISOString ms <;> simp [htext]

/-- A session that goes idle and is closed in one cleaning is closed. -/
theorem Closes.of_idle {time : Option Int} {a b c : Session} (hidle : idleSession now a = .ok b)
    (hadvances : Advances time a b) (hactive : a.state = some .active) (hcloses : Closes b c) :
    Closes a c := by
  simp only [idleSession, bind_eq_ok, pure_eq_ok] at hidle
  obtain ⟨revision, -, rfl⟩ := hidle
  exact ⟨by simp [hactive], hcloses.state, hcloses.closedAt, hcloses.closeReason,
    fun ha => hcloses.idleSince (hadvances.coherent ha), hcloses.encryptionState,
    hcloses.sessionKeyFingerprint, hcloses.rekeyCount⟩

theorem cleaned_progress (hnow : Calendar.toISOString ms = some now) :
    Progress (some ms) sessions (cleaned P params (some ms) now sessions) := by
  constructor
  intro id row₃ hrow₃
  obtain ⟨row₂, hrow₂, hthird⟩ := pass_rows hrow₃
  obtain ⟨row₁, hrow₁, hsecond⟩ := pass_rows hrow₂
  obtain ⟨row, hrow, hfirst⟩ := pass_rows hrow₁
  refine .inl ⟨row, hrow, ?_⟩
  -- What the third pass makes of a session that the second one has left alone.
  have hclosed : ∀ {row₂ : Session}, Overdue P params (some ms) row₂ ∧
      closedSession now .idleTimeout none row₂ = .ok row₃ → Closes row₂ row₃ :=
    fun h => closes_of_closedSession (by simp [h.1.1]) (fun _ => rfl) h.2
  obtain rfl | ⟨hstale, hstaled⟩ := hfirst
  · obtain rfl | ⟨hresting, hrested⟩ := hsecond
    · obtain rfl | hoverdue := hthird
      · exact .refl _ _
      · exact (hclosed hoverdue).advances
    · have hadvances := advances_of_idleSession hresting.1 hnow hrested
      obtain rfl | hoverdue := hthird
      · exact hadvances
      · exact (Closes.of_idle hrested hadvances hresting.1 (hclosed hoverdue)).advances
  · have hcloses : Closes row row₁ := by
      refine closes_of_closedSession (by simp [hstale.1]) (fun hrow => ?_) hstaled
      have hidle := hrow.idle.not.mp (by simp [hstale.1])
      simpa using hidle
    obtain rfl | ⟨hresting, -⟩ := hsecond
    · obtain rfl | ⟨hoverdue, -⟩ := hthird
      · exact hcloses.advances
      · cases hcloses.state.symm.trans hoverdue.1
    · cases hcloses.state.symm.trans hresting.1

theorem cleanExpired_progress (hnumbered : Numbered sessions) :
    Progress (nowMs P params.now clock) sessions (cleanExpired P params clock sessions).2 := by
  cases hdate : dateText (nowMs P params.now clock) with
  | error error =>
      have hsame : (cleanExpired P params clock sessions).2 = sessions := by
        simp only [cleanExpired, hdate]
      rw [hsame]
      exact .refl _ sessions
  | ok now =>
      obtain ⟨ms, hms, hnow⟩ := dateText_eq_ok.mp hdate
      rw [cleanExpired_eq hnumbered hdate, hms]
      exact cleaned_progress hnow

/-- The cleaning closes an idle session whose hard timeout is over. -/
theorem cleanExpired_closes (hnumbered : Numbered sessions) {id : String} {row : Session}
    (hrow : sessions.get? id = some row) (hidle : row.state = some .idle)
    (hms : nowMs P params.now clock = some ms) (hnow : Calendar.toISOString ms = some now)
    (hexpired : IdleExpired P (some ms) params.idleHardMs row) :
    ∃ row', (cleanExpired P params clock sessions).2.get? id = some row' ∧
      row'.state = some .closed := by
  have hstaled : Kept sessions (cleanedStale P params (some ms) now sessions) :=
    cleanedStale_kept _ now hnumbered
  have hactived : Kept sessions (cleanedActive P params (some ms) now sessions) :=
    cleanedActive_kept _ now hnumbered
  have hrow₁ : (cleanedStale P params (some ms) now sessions).get? id = some row :=
    pass_other (rewrites_closedSession (fun _ hrow hclosed => by cases hrow.1.symm.trans hclosed)
      now .handshakeRejected Session.idleSince) hnumbered hrow (by simp [hidle])
  have hrow₂ : (cleanedActive P params (some ms) now sessions).get? id = some row :=
    pass_other (rewrites_idleSession (fun _ hrow hclosed => by cases hrow.1.symm.trans hclosed) now)
      hstaled.numbered hrow₁ (by simp [hidle])
  obtain ⟨-, hswept⟩ := sweep_entries (p := Overdue P params (some ms))
    (rewrites_closedSession (fun _ hrow hclosed => by cases hrow.1.symm.trans hclosed) now
      .idleTimeout (fun _ => none)) hactived.numbered
  obtain ⟨ids, hids⟩ : ∃ ids, (sweep (Overdue P params (some ms))
      (closedSession now .idleTimeout none) (cleanedActive P params (some ms) now sessions).entries
      (cleanedActive P params (some ms) now sessions)).1 = .ok ids :=
    sweep_ok (fun entry hentry _ => closedSession_ok now _ none (hactived.numbered entry.1 entry.2
      ((OrderedMap.mem_entries_iff _ entry.1 entry.2).mp hentry)).2) _
  obtain ⟨row', hclosed, hrow'⟩ := hswept ids hids id row hrow₂ ⟨hidle, hexpired⟩
  rw [cleanExpired_eq hnumbered (dateText_eq_ok.mpr ⟨ms, hms, hnow⟩), hms]
  refine ⟨row', hrow', ?_⟩
  exact (closes_of_closedSession (by simp [hidle]) (fun _ => rfl) hclosed).state

end Cleaning

/-! ## Patches that fit -/

/-- The patch leads from the stored session to one that fits together, by a change of the state
machine, and dates an idle session no later than it is idle. A state of `undefined` is reached
by no change. -/
structure SessionUpdatePatch.Fits (P : SessionPorts) (patch : SessionUpdatePatch) (row : Session)
    (idleFrom : Option Int) : Prop where
  change : ∀ state, patch.state = some state → row.state = state ∨ StateChange row.state state
  closed : patch.state.getD row.state = some .closed ↔
    (patch.closedAt.getD row.closedAt).isSome ∧
      (patch.closeReason.getD row.closeReason).isSome
  idle : patch.state.getD row.state = some .idle ↔ (patch.idleSince.getD row.idleSince).isSome
  off : row.encryptionState = .off →
    patch.sessionKeyFingerprint.getD row.sessionKeyFingerprint = none ∧
      patch.rekeyCount.getD row.rekeyCount = 0
  idleSince : ∀ text, patch.idleSince = some (some text) → text ≠ "" ∧
    ∃ ms ∈ P.getTime text, ∀ since ∈ idleFrom, ms ≤ since

/-- The store, and when each session has last gone idle. -/
structure WatchedSessions where
  sessions : Sessions
  idleFrom : String → Option Int

def IsIdle (sessions : Sessions) (id : String) : Prop :=
  ∃ row ∈ sessions.get? id, row.state = some .idle

instance (sessions : Sessions) (id : String) : Decidable (IsIdle sessions id) := by
  unfold IsIdle
  infer_instance

/-- The time at which an operation puts sessions into the state `IDLE`. -/
def SessionOperation.idleTime (P : SessionPorts) : SessionOperation → Option Int
  | update _ _ clock => some clock
  | cleanExpired params clock => nowMs P params.now clock
  | _ => none

namespace WatchedSessions

def start : WatchedSessions := ⟨OrderedMap.empty, fun _ => none⟩

def perform (P : SessionPorts) (operation : SessionOperation) (s : WatchedSessions) :
    WatchedSessions :=
  let sessions := (operation.perform P s.sessions).2
  { sessions
    idleFrom := fun id =>
      if IsIdle sessions id ∧ ¬ IsIdle s.sessions id then operation.idleTime P else s.idleFrom id }

def step (P : SessionPorts) (s : WatchedSessions) (operation : SessionOperation) :
    Option WatchedSessions :=
  some (s.perform P operation)

/-- A patch that is written fits. -/
def Fits (P : SessionPorts) (s : WatchedSessions) : SessionOperation → Prop
  | .update sessionId patch clock => ∀ row, s.sessions.get? sessionId = some row →
      row.state ≠ some .closed →
        patch.Fits P row (if row.state = some .idle then s.idleFrom sessionId else some clock)
  | _ => True

/-- The session is idle since an instant that is not after it has gone idle. -/
def Dated (P : SessionPorts) (s : WatchedSessions) (id : String) (row : Session) : Prop :=
  row.state = some .idle → ∃ since, s.idleFrom id = some since ∧
    ∃ text ms, row.idleSince = some text ∧ text ≠ "" ∧ P.getTime text = some ms ∧ ms ≤ since

/-- What holds of a watched store in which only patches that fit were written. -/
structure Inv (P : SessionPorts) (s : WatchedSessions) : Prop where
  numbered : Numbered s.sessions
  coherent : ∀ id row, s.sessions.get? id = some row → row.Coherent
  dated : ∀ id row, s.sessions.get? id = some row → s.Dated P id row

variable {P : SessionPorts} {s : WatchedSessions}

theorem inv_start (P : SessionPorts) : Inv P start := by
  constructor <;> simp [start, Numbered]

/-- All operations but `update` advance the sessions. -/
theorem perform_progress (hnumbered : Numbered s.sessions) {operation : SessionOperation}
    (hother : ∀ sessionId patch clock, operation ≠ .update sessionId patch clock) :
    Progress (operation.idleTime P) s.sessions (s.perform P operation).sessions := by
  cases operation with
  | create input clock => exact create_progress input
  | get sessionId => exact .refl _ _
  | update sessionId patch clock => exact absurd rfl (hother sessionId patch clock)
  | resume input clock => exact resume_progress P input
  | supersedeAndCreate params clock => exact supersedeAndCreate_progress hnumbered params
  | claimForDispatch params clock => exact claimForDispatch_progress params
  | markAuthorized params clock => exact markAuthorized_progress params
  | closeByToken tokenId reason now clock => exact closeAll_progress
  | closeByPrincipal principalDid reason now clock => exact closeAll_progress
  | listActive filter => exact .refl _ _
  | cleanExpired params clock => exact cleanExpired_progress hnumbered

theorem idleFrom_perform (operation : SessionOperation) {id : String}
    (hidle : IsIdle (s.perform P operation).sessions id) :
    (s.perform P operation).idleFrom id =
      if IsIdle s.sessions id then s.idleFrom id else operation.idleTime P := by
  show (if IsIdle (s.perform P operation).sessions id ∧ ¬ IsIdle s.sessions id then _ else _) = _
  by_cases hbefore : IsIdle s.sessions id <;> simp [hidle, hbefore]

theorem toISOString_ne_empty {ms : Int} {text : String}
    (htext : Calendar.toISOString ms = some text) : text ≠ "" := by
  rintro rfl
  unfold Calendar.toISOString at htext
  split at htext
  next =>
    have hempty := congrArg String.toList (Option.some.inj htext)
    simp at hempty
  next => cases htext

theorem Inv.of_progress {operation : SessionOperation} (hinv : Inv P s)
    (hport : ∀ ms text, Calendar.toISOString ms = some text → P.getTime text = some ms)
    (hprogress : Progress (operation.idleTime P) s.sessions (s.perform P operation).sessions) :
    Inv P (s.perform P operation) := by
  constructor
  case numbered => exact (perform_kept P operation hinv.numbered).numbered
  case coherent =>
    intro id row' hrow'
    obtain ⟨row, hrow, hadvances⟩ | ⟨-, hcoherent, -⟩ := hprogress.rows id row' hrow'
    · exact hadvances.coherent (hinv.coherent id row hrow)
    · exact hcoherent
  case dated =>
    intro id row' hrow' hidle'
    rw [idleFrom_perform operation ⟨row', hrow', hidle'⟩]
    obtain ⟨row, hrow, hadvances⟩ | ⟨-, -, hnew⟩ := hprogress.rows id row' hrow'
    · obtain ⟨hidle, hsince⟩ | ⟨hidle, ms, text, htime, htext, hsince⟩ := hadvances.idle hidle'
      · rw [if_pos ⟨row, hrow, hidle⟩, hsince]
        exact hinv.dated id row hrow hidle
      · have hbefore : ¬ IsIdle s.sessions id := by
          rintro ⟨found, hfound, hfoundIdle⟩
          cases hrow.symm.trans hfound
          exact hidle hfoundIdle
        rw [if_neg hbefore]
        exact ⟨ms, htime, text, ms, hsince, toISOString_ne_empty htext, hport ms text htext, le_rfl⟩
    · exact absurd hidle' hnew

/-- What `update` writes, if it writes. -/
theorem update_rows {sessionId id : String} {patch : SessionUpdatePatch} {clock : Int}
    {row' : Session}
    (hrow' : (s.perform P (.update sessionId patch clock)).sessions.get? id = some row') :
    s.sessions.get? id = some row' ∨ id = sessionId ∧ ∃ row now revision,
      s.sessions.get? id = some row ∧ row.state ≠ some .closed ∧
        row' = patched patch now revision row := by
  have hstored : (store sessionId (updatedSession sessionId patch clock s.sessions)
      s.sessions).2.get? id = some row' := hrow'
  unfold store at hstored
  split at hstored
  next => exact .inl hstored
  next session hsession =>
    simp only [updatedSession, bind_eq_ok, exists_unit, require_eq_ok, pure_eq_ok, lookup_eq_ok]
      at hsession
    obtain ⟨row, hrow, hopened, now, -, revision, -, rfl⟩ := hsession
    rw [OrderedMap.get?_set] at hstored
    split at hstored
    next heq =>
      cases hstored
      exact .inr ⟨heq.symm, row, now, revision, heq ▸ hrow, hopened, rfl⟩
    next => exact .inl hstored

theorem coherent_patched {patch : SessionUpdatePatch} {row : Session} {idleFrom : Option Int}
    (hrow : row.Coherent) (hfits : patch.Fits P row idleFrom) (now revision : String) :
    (patched patch now revision row).Coherent := by
  refine ⟨?_, hfits.closed, hfits.idle, hfits.off⟩
  show patch.state.getD row.state ≠ none
  cases hpatch : patch.state with
  | none => exact hrow.stated
  | some state =>
      rintro rfl
      obtain hsame | hchange := hfits.change none hpatch
      · exact hrow.stated hsame
      · generalize row.state = state at hchange
        cases hchange

theorem Inv.update {sessionId : String} {patch : SessionUpdatePatch} {clock : Int}
    (hinv : Inv P s) (hfits : s.Fits P (.update sessionId patch clock)) :
    Inv P (s.perform P (.update sessionId patch clock)) := by
  constructor
  case numbered => exact (perform_kept P _ hinv.numbered).numbered
  case coherent =>
    intro id row' hrow'
    obtain hsame | ⟨rfl, row, now, revision, hrow, hopened, rfl⟩ := update_rows hrow'
    · exact hinv.coherent id row' hsame
    · exact coherent_patched (hinv.coherent _ row hrow) (hfits row hrow hopened) now revision
  case dated =>
    intro id row' hrow' hidle'
    rw [idleFrom_perform _ ⟨row', hrow', hidle'⟩]
    obtain hsame | ⟨rfl, row, now, revision, hrow, hopened, rfl⟩ := update_rows hrow'
    · rw [if_pos ⟨row', hsame, hidle'⟩]
      exact hinv.dated id row' hsame hidle'
    · have hpatch := hfits row hrow hopened
      have hset : (patch.idleSince.getD row.idleSince).isSome := hpatch.idle.mp hidle'
      by_cases hidle : row.state = some .idle
      · rw [if_pos hidle] at hpatch
        rw [if_pos ⟨row, hrow, hidle⟩]
        obtain ⟨since, hfrom, hdated⟩ := hinv.dated _ row hrow hidle
        refine ⟨since, hfrom, ?_⟩
        cases hsince : patch.idleSince with
        | none => simpa [patched, hsince] using hdated
        | some written =>
            cases written with
            | none => simp [hsince] at hset
            | some text =>
                obtain ⟨hne, ms, hms, hle⟩ := hpatch.idleSince text hsince
                exact ⟨text, ms, by simp [patched, hsince], hne, hms, hle since hfrom⟩
      · rw [if_neg hidle] at hpatch
        have hbefore : ¬ IsIdle s.sessions id := by
          rintro ⟨found, hfound, hfoundIdle⟩
          cases hrow.symm.trans hfound
          exact hidle hfoundIdle
        rw [if_neg hbefore]
        refine ⟨clock, rfl, ?_⟩
        cases hsince : patch.idleSince with
        | none =>
            rw [hsince, Option.getD_none] at hset
            exact absurd ((hinv.coherent _ row hrow).idle.mpr hset) hidle
        | some written =>
            cases written with
            | none => simp [hsince] at hset
            | some text =>
                obtain ⟨hne, ms, hms, hle⟩ := hpatch.idleSince text hsince
                exact ⟨text, ms, by simp [patched, hsince], hne, hms, hle clock rfl⟩

theorem Inv.perform {operation : SessionOperation} (hinv : Inv P s)
    (hport : ∀ ms text, Calendar.toISOString ms = some text → P.getTime text = some ms)
    (hfits : s.Fits P operation) : Inv P (s.perform P operation) := by
  by_cases hother : ∀ sessionId patch clock, operation ≠ .update sessionId patch clock
  · exact hinv.of_progress hport (perform_progress hinv.numbered hother)
  · push Not at hother
    obtain ⟨sessionId, patch, clock, rfl⟩ := hother
    exact hinv.update hfits

theorem perform_change {operation : SessionOperation} (hinv : Inv P s)
    (hfits : s.Fits P operation) {id : String} {row row' : Session}
    (hrow : s.sessions.get? id = some row)
    (hrow' : (s.perform P operation).sessions.get? id = some row') :
    row.state = row'.state ∨ StateChange row.state row'.state := by
  by_cases hother : ∀ sessionId patch clock, operation ≠ .update sessionId patch clock
  · obtain ⟨found, hfound, hadvances⟩ | ⟨hnone, -⟩ :=
      (perform_progress hinv.numbered hother).rows id row' hrow'
    · cases hrow.symm.trans hfound
      exact hadvances.change (hinv.coherent id row hrow)
    · cases hrow.symm.trans hnone
  · push Not at hother
    obtain ⟨sessionId, patch, clock, rfl⟩ := hother
    obtain hsame | ⟨rfl, found, now, revision, hfound, hopened, rfl⟩ := update_rows hrow'
    · cases hrow.symm.trans hsame
      exact .inl rfl
    · cases hrow.symm.trans hfound
      show row.state = patch.state.getD row.state ∨
        StateChange row.state (patch.state.getD row.state)
      cases hstate : patch.state with
      | none => exact .inl rfl
      | some state => exact (hfits row hrow hopened).change state hstate

/-- The session is closed by a cleaning when it has been idle for too long. -/
theorem Inv.closes (hinv : Inv P s) {params : CleanParams} {clock ms : Int} {now : String}
    {id : String} {row : Session} (hrow : s.sessions.get? id = some row)
    (hidle : row.state = some .idle) (hms : nowMs P params.now clock = some ms)
    (hnow : Calendar.toISOString ms = some now)
    (hlong : ∀ since ∈ s.idleFrom id, params.idleHardMs < ((ms - since : Int) : ℚ)) :
    ∃ row', (cleanExpired P params clock s.sessions).2.get? id = some row' ∧
      row'.state = some .closed := by
  obtain ⟨since, hfrom, text, started, htext, hne, hstarted, hle⟩ := hinv.dated id row hrow hidle
  have helapsed : params.idleHardMs < ((ms - started : Int) : ℚ) := by
    refine (hlong since hfrom).trans_le ?_
    exact_mod_cast sub_le_sub_left hle ms
  exact cleanExpired_closes hinv.numbered hrow hidle hms hnow
    ⟨text, htext, hne, ms, rfl, started, hstarted, helapsed⟩

theorem run_inv (hport : ∀ ms text, Calendar.toISOString ms = some text → P.getTime text = some ms)
    {operations : List SessionOperation} (hfits : Along (step P) (Fits P) start operations)
    (hrun : run (step P) start operations = some s) : Inv P s := by
  refine run_invariant (Inv P) ?_ (inv_start P) hfits hrun
  intro s operation s' hinv hfits hstep
  cases hstep
  exact hinv.perform hport hfits

/-- In every run in which only patches that fit are written, every stored session fits together,
every next operation changes its state by the state machine, and a cleaning closes every session
that has been idle for longer than the hard timeout. -/
theorem lifecycle_run
    (hport : ∀ ms text, Calendar.toISOString ms = some text → P.getTime text = some ms)
    (operations : List SessionOperation) (hfits : Along (step P) (Fits P) start operations)
    (hrun : run (step P) start operations = some s) :
    (∀ id row, s.sessions.get? id = some row → row.Coherent) ∧
      (∀ operation, s.Fits P operation → ∀ id row row', s.sessions.get? id = some row →
        (operation.perform P s.sessions).2.get? id = some row' →
          row.state = row'.state ∨ StateChange row.state row'.state) ∧
      ∀ params clock ms now id row, s.sessions.get? id = some row → row.state = some .idle →
        nowMs P params.now clock = some ms → Calendar.toISOString ms = some now →
        (∀ since ∈ s.idleFrom id, params.idleHardMs < ((ms - since : Int) : ℚ)) →
          ∃ row', (cleanExpired P params clock s.sessions).2.get? id = some row' ∧
            row'.state = some .closed := by
  have hinv := run_inv hport hfits hrun
  refine ⟨hinv.coherent, ?_, ?_⟩
  · intro operation hfits id row row' hrow hrow'
    exact perform_change hinv hfits hrow hrow'
  · intro params clock ms now id row hrow hidle hms hnow hlong
    exact hinv.closes hrow hidle hms hnow hlong

end WatchedSessions

/-! ## A session that is put to rest by a patch -/

namespace PutToRest

open Revocation

/-- The patch says `IDLE`, and does not say since when. -/
def undated : SessionUpdatePatch := { noPatch with state := some (some .idle) }

def dated : SessionUpdatePatch :=
  { undated with idleSince := some (some "2026-06-20T12:00:05.000Z") }

/-- A cleaning a day later, with a hard timeout of an hour. -/
def params : CleanParams := ⟨60000, 600000, 3600000, none⟩

def tomorrow : Int := noon + 86400000

def operations (patch : SessionUpdatePatch) : List SessionOperation :=
  [.create input noon, .update input.sessionId patch (noon + 5000)]

def reached (P : SessionPorts) (patch : SessionUpdatePatch) : WatchedSessions :=
  (WatchedSessions.start.perform P (.create input noon)).perform P
    (.update input.sessionId patch (noon + 5000))

/-- The patch of `SessionManager.close`. -/
def closing : SessionUpdatePatch :=
  { noPatch with
    state := some (some .closed)
    closedAt := some (some "2026-06-20T12:20:00.000Z")
    closeReason := some (some .explicitClose) }

/-- The session is closed after a cleaning has put it to rest. -/
def closedIdle : List SessionOperation :=
  [.create input noon, .cleanExpired params (noon + 900000),
    .update input.sessionId closing (noon + 1200000)]

/-- The sessions do not fit together. A session is idle since no time, and a cleaning a day
later leaves it idle; another one is closed, and idle since a time. -/
theorem patches_break_lifecycle :
    run (WatchedSessions.step ports) WatchedSessions.start (operations undated) =
        some (reached ports undated) ∧
      (∃ row, (reached ports undated).sessions.get? input.sessionId = some row ∧
        row.state = some .idle ∧ row.idleSince = none) ∧
      (reached ports undated).idleFrom input.sessionId = some (noon + 5000) ∧
      (∃ row, (cleanExpired ports params tomorrow (reached ports undated).sessions).2.get?
        input.sessionId = some row ∧ row.state = some .idle) ∧
      ∃ s row, run (WatchedSessions.step ports) WatchedSessions.start closedIdle = some s ∧
        s.sessions.get? input.sessionId = some row ∧ row.state = some .closed ∧
          row.idleSince = some "2026-06-20T12:15:00.000Z" := by
  have hidle : ((reached ports undated).sessions.get? input.sessionId).any
      (fun row => row.state = some .idle ∧ row.idleSince = none) = true := by
    decide +kernel
  have hstays : ((cleanExpired ports params tomorrow (reached ports undated).sessions).2.get?
      input.sessionId).any (fun row => row.state = some .idle) = true := by
    decide +kernel
  have hclosed : ((((WatchedSessions.start.perform ports (.create input noon)).perform ports
      (.cleanExpired params (noon + 900000))).perform ports
        (.update input.sessionId closing (noon + 1200000))).sessions.get? input.sessionId).any
      (fun row => row.state = some .closed ∧ row.idleSince = some "2026-06-20T12:15:00.000Z") =
        true := by
    decide +kernel
  refine ⟨rfl, ?_, by decide +kernel, ?_, ?_⟩
  · obtain ⟨row, hrow, hfields⟩ := (Option.any_eq_true _ _).mp hidle
    exact ⟨row, hrow, of_decide_eq_true hfields⟩
  · obtain ⟨row, hrow, hstate⟩ := (Option.any_eq_true _ _).mp hstays
    exact ⟨row, hrow, of_decide_eq_true hstate⟩
  · obtain ⟨row, hrow, hfields⟩ := (Option.any_eq_true _ _).mp hclosed
    exact ⟨_, row, rfl, hrow, of_decide_eq_true hfields⟩

open Classical in
/-- A reading of times that reads the texts of instants back. -/
noncomputable def readTime (text : String) : Option Int :=
  if h : ∃ ms, Calendar.toISOString ms = some text then some h.choose else none

theorem readTime_toISOString (ms : Int) (text : String)
    (htext : Calendar.toISOString ms = some text) : readTime text = some ms := by
  have hread : ∃ ms, Calendar.toISOString ms = some text := ⟨ms, htext⟩
  rw [readTime, dif_pos hread, Option.some.injEq]
  exact Calendar.toISOString_injective hread.choose_spec htext

noncomputable def readPorts : SessionPorts := { ports with getTime := readTime }

theorem created_fields {row : Session}
    (hrow : (WatchedSessions.start.perform readPorts (.create input noon)).sessions.get?
      input.sessionId = some row) :
    row.state = some .active ∧ row.closedAt = none ∧ row.closeReason = none ∧
      row.sessionKeyFingerprint = none ∧ row.rekeyCount = 0 := by
  have hfields : ((WatchedSessions.start.perform readPorts (.create input noon)).sessions.get?
      input.sessionId).all (fun row => row.state = some .active ∧ row.closedAt = none ∧
        row.closeReason = none ∧ row.sessionKeyFingerprint = none ∧ row.rekeyCount = 0) = true := by
    decide +kernel
  rw [hrow] at hfields
  exact of_decide_eq_true hfields

theorem dated_fits : Along (WatchedSessions.step readPorts) (WatchedSessions.Fits readPorts)
    WatchedSessions.start (operations dated) := by
  refine ⟨trivial, fun row hrow _ => ?_, trivial⟩
  have hfive : Calendar.toISOString (noon + 5000) = some "2026-06-20T12:00:05.000Z" := by
    decide +kernel
  obtain ⟨hstate, hclosedAt, hcloseReason, hkey, hrekey⟩ := created_fields hrow
  rw [if_neg (by simp [hstate])]
  constructor
  case change =>
    rintro _ ⟨⟩
    rw [hstate]
    exact .inr .idle
  case closed => simp [dated, undated, noPatch, hclosedAt]
  case idle => simp [dated, undated]
  case off => exact fun _ => ⟨hkey, hrekey⟩
  case idleSince =>
    rintro _ ⟨⟩
    exact ⟨by decide, noon + 5000, readTime_toISOString _ _ hfive, by simp⟩

/-- The session is closed on the next day when the patch fits. -/
theorem dated_closes : ∃ row,
    (cleanExpired readPorts params tomorrow (reached readPorts dated).sessions).2.get?
      input.sessionId = some row ∧ row.state = some .closed := by
  have hidle : ((reached readPorts dated).sessions.get? input.sessionId).any
      (fun row => row.state = some .idle) = true := by
    decide +kernel
  have hfrom : (reached readPorts dated).idleFrom input.sessionId = some (noon + 5000) := by
    decide +kernel
  have htomorrow : Calendar.toISOString tomorrow = some "2026-06-21T12:00:00.000Z" := by
    decide +kernel
  obtain ⟨row, hrow, hstate⟩ := (Option.any_eq_true _ _).mp hidle
  refine (WatchedSessions.lifecycle_run readTime_toISOString (operations dated) dated_fits
    rfl).2.2 params tomorrow tomorrow _ input.sessionId row hrow (of_decide_eq_true hstate) rfl
    htomorrow ?_
  rintro since hsince
  cases hfrom.symm.trans hsince
  norm_num [params, tomorrow]

end PutToRest

end Coivitas.Communication
