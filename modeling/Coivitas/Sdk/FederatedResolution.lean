import Coivitas.Foundation.Emits
import Coivitas.Sdk.TenantFederation

/-! # Whose row a login is resolved under

A login is resolved by the row found under the identifier of the request, for a tenant on the list
of that row, and to a user of that tenant. The identifier is never compared with the issuer of the
verified claims, nor the type of the row with the protocol.
-/

namespace Coivitas.Sdk.Sso

open Foundation

/-! ## The user -/

section Users

variable {ω : Type} {port : FederationPort ω} {externalSubject idpIdentifier tenantId : String}
  {role : Role}

theorem safeWriteAuditEvent_silent (event : FederationAuditEvent) :
    (safeWriteAuditEvent port event).Silent :=
  (Program.emits_ask _).tryCatch fun _ => Program.emits_pure _

theorem updateRole_silent (user : User) : (updateRole port user role).Silent := by
  unfold updateRole
  split
  · exact Program.emits_ask _
  · exact Program.emits_pure _

theorem recoverUser_silent :
    (recoverUser port externalSubject idpIdentifier tenantId role).Silent := by
  refine (Program.emits_ask _).bind fun found => ?_
  cases found with
  | none => exact Program.emits_throw _
  | some user =>
      dsimp only
      split
      · exact Program.emits_throw _
      · exact (updateRole_silent user).bind fun _ => Program.emits_pure _

theorem provisionUser_silent :
    (provisionUser port externalSubject idpIdentifier tenantId role).Silent := by
  refine Program.Emits.bind (Program.Emits.tryCatch ?_ fun err => ?_) fun created => ?_
  · exact (Program.emits_ask _).bind fun _ => Program.emits_pure _
  · unfold recoverCreation
    split
    · exact recoverUser_silent.bind fun _ => Program.emits_pure _
    · exact Program.emits_throw _
    · exact Program.emits_throw _
  · exact (safeWriteAuditEvent_silent _).bind fun _ => Program.emits_pure _

theorem updateUser_silent (existingUser : User) :
    (updateUser port existingUser externalSubject idpIdentifier tenantId role).Silent := by
  unfold updateUser
  split
  · exact (safeWriteAuditEvent_silent _).bind fun _ => Program.emits_throw _
  · exact (updateRole_silent existingUser).bind fun _ =>
      (safeWriteAuditEvent_silent _).bind fun _ => Program.emits_pure _

theorem provisionOrUpdateUser_silent :
    (provisionOrUpdateUser port externalSubject idpIdentifier tenantId role).Silent := by
  refine (Program.emits_ask _).bind fun found => ?_
  cases found with
  | none => exact provisionUser_silent
  | some existingUser => exact updateUser_silent existingUser

/-- The user has the role, or the port sets it. -/
def RoleSet (port : FederationPort ω) (user : User) (role : Role) (w w' : ω) : Prop :=
  if user.role = role then w' = w else port.updateUserRole user.id role w = (.ok (), w')

/-- The user is found under the subject and the identifier, is one of the tenant, and has the role
in the end. -/
def Known (port : FederationPort ω) (externalSubject idpIdentifier tenantId : String) (role : Role)
    (userId : String) (w w' : ω) : Prop :=
  ∃ user w₁, port.findUserByExternalSubject externalSubject idpIdentifier w =
      (.ok (some user), w₁) ∧
    user.tenantId = tenantId ∧ user.id = userId ∧ RoleSet port user role w₁ w'

/-- No user is found, and one is created. -/
def Created (port : FederationPort ω) (externalSubject idpIdentifier tenantId : String)
    (role : Role) (userId : String) (w w' : ω) : Prop :=
  ∃ user w₁, port.findUserByExternalSubject externalSubject idpIdentifier w = (.ok none, w₁) ∧
    port.createUser ⟨tenantId, role, externalSubject, idpIdentifier⟩ w₁ = (.ok user, w') ∧
    user.id = userId

/-- No user is found, another request creates it first, and it is found then. -/
def Recovered (port : FederationPort ω) (externalSubject idpIdentifier tenantId : String)
    (role : Role) (userId : String) (w w' : ω) : Prop :=
  ∃ message w₁ w₂, port.findUserByExternalSubject externalSubject idpIdentifier w =
      (.ok none, w₁) ∧
    port.createUser ⟨tenantId, role, externalSubject, idpIdentifier⟩ w₁ =
      (.error (.thrown (some "23505") message), w₂) ∧
    Known port externalSubject idpIdentifier tenantId role userId w₂ w'

/-- The user of a resolution, by the answers of the ports from `w` on; the last thing written is an
event about this user. -/
def Serves (port : FederationPort ω) (externalSubject idpIdentifier tenantId : String)
    (role : Role) (resolution : FederationResolution) (w w' : ω) : Prop :=
  resolution.tenantId = tenantId ∧ resolution.role = role ∧
    ∃ w₁ event, event.userId = resolution.userId ∧ w' = (port.writeAuditEvent event w₁).2 ∧
      if resolution.isNewUser then
        Created port externalSubject idpIdentifier tenantId role resolution.userId w w₁
      else
        Known port externalSubject idpIdentifier tenantId role resolution.userId w w₁ ∨
          Recovered port externalSubject idpIdentifier tenantId role resolution.userId w w₁

theorem updateRole_eq_ok {user : User} {w w' : ω} {events : List SsoEvent}
    (h : (updateRole port user role).run w = ⟨.ok (), w', events⟩) :
    RoleSet port user role w w' := by
  unfold updateRole at h
  split at h
  next hother =>
    rw [RoleSet, if_neg hother]
    exact (Program.run_ask_eq_ok.mp h).1
  next hsame =>
    rw [RoleSet, if_pos (not_not.mp hsame)]
    exact (Program.run_pure_eq_ok.mp h).2.1.symm

theorem safeWriteAuditEvent_eq_ok {event : FederationAuditEvent} {w w' : ω}
    {events : List SsoEvent}
    (h : (safeWriteAuditEvent port event).run w = ⟨.ok (), w', events⟩) :
    w' = (port.writeAuditEvent event w).2 := by
  rcases Program.run_tryCatch_eq_ok h with hwritten | ⟨err, w₁, _, _, hfailed, hend, -⟩
  · rw [(Program.run_ask_eq_ok.mp hwritten).1]
  · obtain ⟨-, rfl, -⟩ := Program.run_pure_eq_ok.mp hend
    exact (congrArg Execution.world hfailed).symm

theorem recoverUser_known {w w' : ω} {user : User} {previousRole : Option Role}
    {events : List SsoEvent}
    (h : (recoverUser port externalSubject idpIdentifier tenantId role).run w =
      ⟨.ok (user, previousRole), w', events⟩) :
    Known port externalSubject idpIdentifier tenantId role user.id w w' := by
  obtain ⟨found, w₁, _, _, hfind, hrest, -⟩ := Program.run_bind_eq_ok.mp h
  obtain ⟨hfound, -⟩ := Program.run_ask_eq_ok.mp hfind
  cases found with
  | none => exact (Program.run_throw_ne_ok.mp hrest).elim
  | some found =>
      dsimp only at hrest
      split at hrest
      next => exact (Program.run_throw_ne_ok.mp hrest).elim
      next htenant =>
        obtain ⟨_, w₂, _, _, hrole, hend, -⟩ := Program.run_bind_eq_ok.mp hrest
        obtain ⟨hpair, rfl, -⟩ := Program.run_pure_eq_ok.mp hend
        obtain ⟨rfl, -⟩ := Prod.mk.inj hpair
        exact ⟨found, w₁, hfound, not_not.mp htenant, rfl, updateRole_eq_ok hrole⟩

/-- Only a database error of a lost race leads to a user. -/
theorem recoverCreation_known {err : SsoError} {w w' : ω} {user : User} {isNewUser : Bool}
    {previousRole : Option Role} {events : List SsoEvent}
    (h : (recoverCreation port externalSubject idpIdentifier tenantId role err).run w =
      ⟨.ok (user, isNewUser, previousRole), w', events⟩) :
    isNewUser = false ∧ (∃ message, err = .thrown (some "23505") message) ∧
      Known port externalSubject idpIdentifier tenantId role user.id w w' := by
  unfold recoverCreation at h
  split at h
  next message =>
    obtain ⟨⟨found, previous⟩, _, _, _, hfound, hpure, -⟩ := Program.run_bind_eq_ok.mp h
    obtain ⟨hpair, rfl, -⟩ := Program.run_pure_eq_ok.mp hpure
    cases hpair
    exact ⟨rfl, ⟨message, rfl⟩, recoverUser_known hfound⟩
  next => exact (Program.run_throw_ne_ok.mp h).elim
  next => exact (Program.run_throw_ne_ok.mp h).elim

theorem provisionUser_serves {w₀ w w' : ω} {resolution : FederationResolution}
    {events : List SsoEvent}
    (hnone : port.findUserByExternalSubject externalSubject idpIdentifier w₀ = (.ok none, w))
    (h : (provisionUser port externalSubject idpIdentifier tenantId role).run w =
      ⟨.ok resolution, w', events⟩) :
    Serves port externalSubject idpIdentifier tenantId role resolution w₀ w' := by
  obtain ⟨⟨user, isNewUser, previousRole⟩, w₁, first, rest, hcreate, hrest, -⟩ :=
    Program.run_bind_eq_ok.mp h
  obtain ⟨_, _, _, _, haudit, hend, -⟩ := Program.run_bind_eq_ok.mp hrest
  obtain ⟨rfl, rfl, -⟩ := Program.run_pure_eq_ok.mp hend
  refine ⟨rfl, rfl, w₁, _, ?_, safeWriteAuditEvent_eq_ok haudit, ?_⟩
  · rfl
  rcases Program.run_tryCatch_eq_ok hcreate with hcreated | ⟨err, w₂, _, _, hfailed, hrecover, -⟩
  · obtain ⟨created, w₂, _, _, hask, hpure, -⟩ := Program.run_bind_eq_ok.mp hcreated
    obtain ⟨hanswer, -⟩ := Program.run_ask_eq_ok.mp hask
    obtain ⟨hpair, rfl, -⟩ := Program.run_pure_eq_ok.mp hpure
    cases hpair
    exact ⟨_, w, hnone, hanswer, rfl⟩
  · obtain ⟨rfl, ⟨message, rfl⟩, hknown⟩ := recoverCreation_known hrecover
    rcases Program.run_bind_eq_error.mp hfailed with hask | ⟨_, _, _, _, -, hpure, -⟩
    next =>
      obtain ⟨hanswer, -⟩ := Program.run_ask_eq_error.mp hask
      exact .inr ⟨message, w, w₂, hnone, hanswer, hknown⟩
    next => exact (Program.run_pure_ne_error.mp hpure).elim

theorem updateUser_serves {w₀ w w' : ω} {existingUser : User} {resolution : FederationResolution}
    {events : List SsoEvent}
    (hfound : port.findUserByExternalSubject externalSubject idpIdentifier w₀ =
      (.ok (some existingUser), w))
    (h : (updateUser port existingUser externalSubject idpIdentifier tenantId role).run w =
      ⟨.ok resolution, w', events⟩) :
    Serves port externalSubject idpIdentifier tenantId role resolution w₀ w' := by
  unfold updateUser at h
  split at h
  next =>
    obtain ⟨_, _, _, _, -, hthrow, -⟩ := Program.run_bind_eq_ok.mp h
    exact (Program.run_throw_ne_ok.mp hthrow).elim
  next htenant =>
    obtain ⟨_, w₁, _, _, hrole, hrest, -⟩ := Program.run_bind_eq_ok.mp h
    obtain ⟨_, _, _, _, haudit, hend, -⟩ := Program.run_bind_eq_ok.mp hrest
    obtain ⟨rfl, rfl, -⟩ := Program.run_pure_eq_ok.mp hend
    have hknown : Known port externalSubject idpIdentifier tenantId role existingUser.id w₀ w₁ :=
      ⟨existingUser, w, hfound, not_not.mp htenant, rfl, updateRole_eq_ok hrole⟩
    exact ⟨rfl, rfl, w₁, _, rfl, safeWriteAuditEvent_eq_ok haudit, .inl hknown⟩

theorem provisionOrUpdateUser_serves {w w' : ω} {resolution : FederationResolution}
    {events : List SsoEvent}
    (h : (provisionOrUpdateUser port externalSubject idpIdentifier tenantId role).run w =
      ⟨.ok resolution, w', events⟩) :
    Serves port externalSubject idpIdentifier tenantId role resolution w w' := by
  obtain ⟨found, w₁, _, _, hfind, hrest, -⟩ := Program.run_bind_eq_ok.mp h
  obtain ⟨hfind, -⟩ := Program.run_ask_eq_ok.mp hfind
  cases found with
  | none => exact provisionUser_serves hfind hrest
  | some existingUser => exact updateUser_serves hfind hrest

end Users

/-! ## The row -/

/-- The row a run found for an identifier, and what it admitted: the ports are asked one after the
other, from the world the run starts in to the one it ends in. -/
structure Resolved {ω : Type} (port : FederationPort ω) (input : FederationInput)
    (resolution : FederationResolution) (mapping : IdpMapping) (w w' : ω) : Prop where
  asserted : extractTenantClaim input.claims = .ok resolution.tenantId
  admitted : resolution.tenantId ∈ mapping.allowedTenantIds
  roleAsserted : extractRoleClaim input.claims = .ok resolution.role
  answers : ∃ tenant w₁ w₂,
    port.findIdpMapping input.idpIdentifier w = (.ok (some mapping), w₁) ∧
    port.findTenantById resolution.tenantId w₁ = (.ok (some tenant), w₂) ∧
    Serves port (extractExternalSubject input.claims) input.idpIdentifier resolution.tenantId
      resolution.role resolution w₂ w'

section Rows

variable {ω : Type} {port : FederationPort ω} {input : FederationInput}
  {resolution : FederationResolution} {w w' : ω} {events : List SsoEvent}

theorem findIdpMapping_eq_ok {idpIdentifier : String} {mapping : IdpMapping}
    (h : (findIdpMapping port idpIdentifier).run w = ⟨.ok mapping, w', events⟩) :
    port.findIdpMapping idpIdentifier w = (.ok (some mapping), w') ∧
      events = [.mappingFound idpIdentifier mapping] := by
  obtain ⟨found, w₁, _, _, hask, hrest, rfl⟩ := Program.run_bind_eq_ok.mp h
  obtain ⟨hanswer, rfl⟩ := Program.run_ask_eq_ok.mp hask
  cases found with
  | none => exact (Program.run_throw_ne_ok.mp hrest).elim
  | some found =>
      obtain ⟨_, _, _, _, hemit, hend, rfl⟩ := Program.run_bind_eq_ok.mp hrest
      obtain ⟨rfl, rfl⟩ := Program.run_emit_eq_ok.mp hemit
      obtain ⟨rfl, rfl, rfl⟩ := Program.run_pure_eq_ok.mp hend
      exact ⟨hanswer, rfl⟩

theorem findTenantById_eq_ok {tenantId : String} {tenant : Tenant}
    (h : (findTenantById port tenantId).run w = ⟨.ok tenant, w', events⟩) :
    port.findTenantById tenantId w = (.ok (some tenant), w') ∧ events = [] := by
  obtain ⟨found, w₁, _, _, hask, hrest, rfl⟩ := Program.run_bind_eq_ok.mp h
  obtain ⟨hanswer, rfl⟩ := Program.run_ask_eq_ok.mp hask
  cases found with
  | none => exact (Program.run_throw_ne_ok.mp hrest).elim
  | some found =>
      obtain ⟨rfl, rfl, rfl⟩ := Program.run_pure_eq_ok.mp hrest
      exact ⟨hanswer, rfl⟩

/-- A resolution rests on one row. -/
theorem resolveTenant_eq_ok
    (h : (resolveTenant port input).run w = ⟨.ok resolution, w', events⟩) :
    ∃ mapping, events = [.mappingFound input.idpIdentifier mapping] ∧
      Resolved port input resolution mapping w w' := by
  simp only [resolveTenant, Program.run_bind_eq_ok] at h
  obtain ⟨tenantId, w₁, _, _, hclaim, ⟨mapping, w₂, _, _, hmapping, ⟨_, w₃, _, _, hscope,
    ⟨tenant, w₄, _, _, htenant, ⟨role, w₅, _, _, hrole, huser, rfl⟩, rfl⟩, rfl⟩, rfl⟩, rfl⟩ := h
  obtain ⟨hasserted, rfl, rfl⟩ := Program.run_ofExcept_eq_ok.mp hclaim
  obtain ⟨hfound, rfl⟩ := findIdpMapping_eq_ok hmapping
  obtain ⟨hvalid, rfl, rfl⟩ := Program.run_ofExcept_eq_ok.mp hscope
  obtain ⟨htenant', rfl⟩ := findTenantById_eq_ok htenant
  obtain ⟨hrole', rfl, rfl⟩ := Program.run_ofExcept_eq_ok.mp hrole
  have hsilent := provisionOrUpdateUser_silent.events_eq_nil huser
  have hserves := provisionOrUpdateUser_serves huser
  obtain ⟨rfl, rfl, -⟩ := id hserves
  simp only [validateIdpTenantScope, bind_eq_ok, exists_unit, require_eq_ok] at hvalid
  refine ⟨mapping, by simp [hsilent], ?_⟩
  exact ⟨hasserted, hvalid.2, hrole', tenant, _, _, hfound, htenant', hserves⟩

end Rows

/-! ## The two entries -/

section Entries

variable {ω ρ : Type} {client : SSOClient ω ρ} {req : ResolveAuthenticationRequest ρ}
  {port : FederationPort ω} {w w' : ω} {events : List SsoEvent}

theorem wrapping_eq_ok {α : Type} {prefixText : String} {code : SSOClientErrorCode}
    {body : SsoProgram ω α} {a : α}
    (h : (wrapping prefixText code body).run w = ⟨.ok a, w', events⟩) :
    body.run w = ⟨.ok a, w', events⟩ := by
  rcases Program.run_tryCatch_eq_ok h with hbody | ⟨e, w₁, _, _, -, hthrow, -⟩
  · exact hbody
  · exact (Program.run_throw_ne_ok.mp hthrow).elim

theorem liftClaims_eq_ok {α : Type} {value : Except ClaimsError α} {a : α}
    (h : (liftClaims value : SsoProgram ω α).run w = ⟨.ok a, w', events⟩) :
    value = .ok a ∧ w = w' ∧ events = [] := by
  obtain ⟨hvalue, rfl, rfl⟩ := Program.run_ofExcept_eq_ok.mp h
  cases value with
  | ok b => exact ⟨by simpa [Except.mapError] using hvalue, rfl, rfl⟩
  | error e => cases hvalue

theorem resolveFederation_eq_ok {protocol : IdpType} {input : FederationInput}
    {result : ResolveAuthenticationResult}
    (h : (resolveFederation client protocol input).run w = ⟨.ok result, w', events⟩) :
    result.protocol = protocol ∧
      (resolveTenant client.federationPort input).run w = ⟨.ok result.resolution, w', events⟩ := by
  obtain ⟨resolution, w₁, first, rest, hresolve, hend, rfl⟩ := Program.run_bind_eq_ok.mp h
  obtain ⟨rfl, rfl, rfl⟩ := Program.run_pure_eq_ok.mp hend
  rw [List.append_nil]
  exact ⟨rfl, wrapping_eq_ok hresolve⟩

/-- The claims the client makes of what the port of the protocol verified, asked first. -/
def Normalized (client : SSOClient ω ρ) (req : ResolveAuthenticationRequest ρ)
    (claims : FederationClaims) (w w₁ : ω) : SsoEvent → Prop
  | .samlVerified profile => req.protocol = .saml ∧ (∃ verifyResponse,
      client.samlPort = some verifyResponse ∧
      verifyResponse req.callback w = (.ok profile, w₁)) ∧ ∃ samlClaims,
      parseSamlClaims profile req.idpIdentifier = .ok samlClaims ∧ claims = .saml samlClaims
  | .oidcVerified rawClaims => req.protocol = .oidc ∧ (∃ verifyCallback,
      client.oidcPort = some verifyCallback ∧
      verifyCallback req.callback w = (.ok rawClaims, w₁)) ∧ ∃ oidcClaims,
      normalizeOidc rawClaims = .ok oidcClaims ∧ claims = .oidc oidcClaims
  | .mappingFound _ _ => False

theorem resolveSaml_eq_ok {result : ResolveAuthenticationResult} (hprotocol : req.protocol = .saml)
    (h : (resolveSaml client req).run w = ⟨.ok result, w', events⟩) :
    ∃ verified claims mapping w₁, Normalized client req claims w w₁ verified ∧
      events = [verified, .mappingFound req.idpIdentifier mapping] ∧
      Resolved client.federationPort ⟨claims, req.idpIdentifier⟩ result.resolution mapping
        w₁ w' := by
  unfold resolveSaml at h
  split at h
  next => exact (Program.run_throw_ne_ok.mp h).elim
  next verifyResponse hport =>
    simp only [Program.run_bind_eq_ok] at h
    obtain ⟨profile, w₁, _, _, hverify, ⟨_, w₂, _, _, hemit, ⟨claims, w₃, _, _, hparse, hresolve,
      rfl⟩, rfl⟩, rfl⟩ := h
    obtain ⟨hverified, rfl⟩ := Program.run_ask_eq_ok.mp (wrapping_eq_ok hverify)
    obtain ⟨rfl, rfl⟩ := Program.run_emit_eq_ok.mp hemit
    obtain ⟨hclaims, rfl, rfl⟩ := liftClaims_eq_ok (wrapping_eq_ok hparse)
    obtain ⟨mapping, rfl, hresolved⟩ := resolveTenant_eq_ok (resolveFederation_eq_ok hresolve).2
    exact ⟨.samlVerified profile, .saml claims, mapping, w₁,
      ⟨hprotocol, ⟨verifyResponse, hport, hverified⟩, claims, hclaims, rfl⟩, rfl, hresolved⟩

theorem resolveOidc_eq_ok {result : ResolveAuthenticationResult} (hprotocol : req.protocol = .oidc)
    (h : (resolveOidc client req).run w = ⟨.ok result, w', events⟩) :
    ∃ verified claims mapping w₁, Normalized client req claims w w₁ verified ∧
      events = [verified, .mappingFound req.idpIdentifier mapping] ∧
      Resolved client.federationPort ⟨claims, req.idpIdentifier⟩ result.resolution mapping
        w₁ w' := by
  unfold resolveOidc at h
  split at h
  next => exact (Program.run_throw_ne_ok.mp h).elim
  next verifyCallback hport =>
    simp only [Program.run_bind_eq_ok] at h
    obtain ⟨rawClaims, w₁, _, _, hverify, ⟨_, w₂, _, _, hemit, ⟨claims, w₃, _, _, hparse, hresolve,
      rfl⟩, rfl⟩, rfl⟩ := h
    obtain ⟨hverified, rfl⟩ := Program.run_ask_eq_ok.mp (wrapping_eq_ok hverify)
    obtain ⟨rfl, rfl⟩ := Program.run_emit_eq_ok.mp hemit
    obtain ⟨hclaims, rfl, rfl⟩ := liftClaims_eq_ok (wrapping_eq_ok hparse)
    obtain ⟨mapping, rfl, hresolved⟩ := resolveTenant_eq_ok (resolveFederation_eq_ok hresolve).2
    exact ⟨.oidcVerified rawClaims, .oidc claims, mapping, w₁,
      ⟨hprotocol, ⟨verifyCallback, hport, hverified⟩, claims, hclaims, rfl⟩, rfl, hresolved⟩

/-- The two events of a resolved callback. -/
theorem resolveAuthentication_eq_ok {result : ResolveAuthenticationResult}
    (h : (resolveAuthentication client req).run w = ⟨.ok result, w', events⟩) :
    ∃ verified claims mapping w₁, Normalized client req claims w w₁ verified ∧
      events = [verified, .mappingFound req.idpIdentifier mapping] ∧
      Resolved client.federationPort ⟨claims, req.idpIdentifier⟩ result.resolution mapping
        w₁ w' := by
  unfold resolveAuthentication at h
  cases hprotocol : req.protocol with
  | saml =>
      rw [hprotocol] at h
      exact resolveSaml_eq_ok hprotocol h
  | oidc =>
      rw [hprotocol] at h
      exact resolveOidc_eq_ok hprotocol h

/-- What the handler reads from a body. -/
def Requested (body : Option Json) (protocol : IdpType) (input : FederationInput) : Prop :=
  ∃ raw, checkBody body = .ok (protocol, input.idpIdentifier, raw) ∧
    parseUserClaims protocol raw = .ok input.claims

/-- The one event of a resolved request. -/
theorem federationResolveHandler_eq_ok {body : Option Json} {resolution : FederationResolution}
    (h : (federationResolveHandler port body).run w = ⟨.ok (.resolved resolution), w', events⟩) :
    ∃ protocol input mapping, Requested body protocol input ∧
      events = [.mappingFound input.idpIdentifier mapping] ∧
      Resolved port input resolution mapping w w' := by
  unfold federationResolveHandler at h
  split at h
  next message hbody =>
    obtain ⟨hsame, -, -⟩ := Program.run_pure_eq_ok.mp h
    cases hsame
  next protocol idpIdentifier raw hbody =>
    rcases Program.run_tryCatch_eq_ok h with hresolve | ⟨e, w₁, _, _, -, hrefused, -⟩
    · simp only [Program.run_bind_eq_ok] at hresolve
      obtain ⟨claims, w₁, _, _, hparse, ⟨resolved, w₂, _, _, hresolve, hend, rfl⟩, rfl⟩ := hresolve
      obtain ⟨hclaims, rfl, rfl⟩ := liftClaims_eq_ok hparse
      obtain ⟨hsame, rfl, rfl⟩ := Program.run_pure_eq_ok.mp hend
      cases hsame
      obtain ⟨mapping, rfl, hresolved⟩ := resolveTenant_eq_ok hresolve
      exact ⟨protocol, ⟨claims, idpIdentifier⟩, mapping, ⟨raw, hbody, hclaims⟩, rfl, hresolved⟩
    · obtain ⟨hsame, -, -⟩ := Program.run_pure_eq_ok.mp hrefused
      cases e <;> cases hsame

end Entries

/-- A resolution is of a tenant on the list of the one row that was found, and of a user of this
tenant with the role of the claims, by the answers of this run: of a callback, by the claims the
port verified; of a request, by the claims in its body. -/
theorem resolution_sound {ω ρ : Type} (client : SSOClient ω ρ) :
    (∀ req w result w' events,
      (resolveAuthentication client req).run w = ⟨.ok result, w', events⟩ →
        ∃ verified claims mapping w₁, Normalized client req claims w w₁ verified ∧
          events = [verified, .mappingFound req.idpIdentifier mapping] ∧
          Resolved client.federationPort ⟨claims, req.idpIdentifier⟩ result.resolution mapping
            w₁ w') ∧
    ∀ body w resolution w' events,
      (federationResolveHandler client.federationPort body).run w =
          ⟨.ok (.resolved resolution), w', events⟩ →
        ∃ protocol input mapping, Requested body protocol input ∧
          events = [.mappingFound input.idpIdentifier mapping] ∧
          Resolved client.federationPort input resolution mapping w w' :=
  ⟨fun _ _ _ _ _ hrun => resolveAuthentication_eq_ok hrun,
    fun _ _ _ _ _ hrun => federationResolveHandler_eq_ok hrun⟩

/-! ## The issuer -/

/-- The issuer that the verified claims of a run carry. -/
def verifiedIssuer (events : List SsoEvent) : Option String :=
  events.findSome? fun
    | .samlVerified profile => text? (field profile "issuer")
    | .oidcVerified claims => text? (field claims "iss")
    | .mappingFound _ _ => none

/-- The row that admitted the tenant is the row of the issuer, and one of the protocol. -/
def UnderIssuer (issuer : Option String) (protocol : IdpType) (tenantId : String)
    (events : List SsoEvent) : Prop :=
  ∃ idpIdentifier mapping, .mappingFound idpIdentifier mapping ∈ events ∧
    tenantId ∈ mapping.allowedTenantIds ∧ issuer = some mapping.idpIdentifier ∧
    mapping.idpType = protocol

/-- A row is found under its own identifier. -/
def FederationPort.Keyed {ω : Type} (port : FederationPort ω) : Prop :=
  ∀ idpIdentifier w mapping w', port.findIdpMapping idpIdentifier w = (.ok (some mapping), w') →
    mapping.idpIdentifier = idpIdentifier

theorem Resolved.underIssuer_iff {ω : Type} {port : FederationPort ω} (hkeyed : port.Keyed)
    {input : FederationInput} {resolution : FederationResolution} {mapping : IdpMapping}
    {w w' : ω} (hresolved : Resolved port input resolution mapping w w') {events : List SsoEvent}
    (hevents : ∀ idpIdentifier row, .mappingFound idpIdentifier row ∈ events ↔
      idpIdentifier = input.idpIdentifier ∧ row = mapping)
    (issuer : Option String) (protocol : IdpType) :
    UnderIssuer issuer protocol resolution.tenantId events ↔
      issuer = some input.idpIdentifier ∧
        ∃ row, .mappingFound input.idpIdentifier row ∈ events ∧ row.idpType = protocol := by
  obtain ⟨_, _, _, hfound, -, -⟩ := hresolved.answers
  have hidentifier := hkeyed _ _ _ _ hfound
  constructor
  · rintro ⟨idpIdentifier, row, hmem, -, hissuer, htype⟩
    obtain ⟨rfl, rfl⟩ := (hevents _ _).mp hmem
    exact ⟨hidentifier ▸ hissuer, row, hmem, htype⟩
  · rintro ⟨hissuer, row, hmem, htype⟩
    obtain ⟨-, rfl⟩ := (hevents _ _).mp hmem
    exact ⟨_, row, hmem, hresolved.admitted, hidentifier ▸ hissuer, htype⟩

/-- A login is resolved under the issuer of its claims exactly when the request names this issuer
and the row found under the name is one of the protocol. -/
theorem resolved_underIssuer_iff {ω ρ : Type} (client : SSOClient ω ρ)
    (hkeyed : client.federationPort.Keyed) :
    (∀ req w result w' events,
      (resolveAuthentication client req).run w = ⟨.ok result, w', events⟩ →
        (UnderIssuer (verifiedIssuer events) req.protocol result.resolution.tenantId events ↔
          verifiedIssuer events = some req.idpIdentifier ∧
            ∃ row, .mappingFound req.idpIdentifier row ∈ events ∧ row.idpType = req.protocol)) ∧
    ∀ body w resolution w' events,
      (federationResolveHandler client.federationPort body).run w =
          ⟨.ok (.resolved resolution), w', events⟩ →
        ∃ protocol input, Requested body protocol input ∧
          (UnderIssuer (some input.claims.issuer) protocol resolution.tenantId events ↔
            input.claims.issuer = input.idpIdentifier ∧
              ∃ row, .mappingFound input.idpIdentifier row ∈ events ∧ row.idpType = protocol) := by
  constructor
  · intro req w result w' events hrun
    obtain ⟨verified, claims, mapping, _, hnormalized, rfl, hresolved⟩ :=
      resolveAuthentication_eq_ok hrun
    refine hresolved.underIssuer_iff hkeyed (fun idpIdentifier row => ?_) _ _
    have hverified : SsoEvent.mappingFound idpIdentifier row ≠ verified := by
      rintro rfl
      exact hnormalized
    simp [hverified]
  · intro body w resolution w' events hrun
    obtain ⟨protocol, input, mapping, hrequested, rfl, hresolved⟩ :=
      federationResolveHandler_eq_ok hrun
    refine ⟨protocol, input, hrequested, ?_⟩
    have hevents : ∀ idpIdentifier row, .mappingFound idpIdentifier row ∈
        [SsoEvent.mappingFound input.idpIdentifier mapping] ↔
          idpIdentifier = input.idpIdentifier ∧ row = mapping := fun idpIdentifier row => by simp
    have hiff := hresolved.underIssuer_iff hkeyed hevents (some input.claims.issuer) protocol
    rwa [Option.some.injEq] at hiff

/-! ## An id token of one provider under the row of another -/

namespace Logins

def rawClaims : Members :=
  [("iss", .str "a"), ("aud", .str "c"), ("sub", .str "s"), ("exp", .num 1),
    ("tenant_id", .str "t"), ("role", .str "admin")]

def known (row : IdpMapping) : User := ⟨"u", "t", .admin, "s", row.idpIdentifier⟩

/-- One registered provider, one tenant and one user. -/
def port (row : IdpMapping) : FederationPort Unit where
  findTenantById tenantId _ := (.ok (if tenantId = "t" then some ⟨tenantId⟩ else none), ())
  findIdpMapping idpIdentifier _ :=
    (.ok (if row.idpIdentifier = idpIdentifier then some row else none), ())
  findUserByExternalSubject externalSubject idpIdentifier _ :=
    (.ok (if externalSubject = "s" ∧ idpIdentifier = row.idpIdentifier then some (known row)
      else none), ())
  createUser new _ :=
    (.ok ⟨"n", new.tenantId, new.role, new.externalSubject, new.idpIdentifier⟩, ())
  updateUserRole _ _ _ := (.ok (), ())
  writeAuditEvent _ _ := (.ok (), ())

def client (row : IdpMapping) : SSOClient Unit Unit where
  samlPort := none
  oidcPort := some fun _ _ => (.ok rawClaims, ())
  federationPort := port row

def request (row : IdpMapping) : ResolveAuthenticationRequest Unit := ⟨.oidc, (), row.idpIdentifier⟩

def ownRow : IdpMapping := ⟨"a", .oidc, ["t"]⟩

def otherRow : IdpMapping := ⟨"b", .saml, ["t"]⟩

theorem port_keyed (row : IdpMapping) : (port row).Keyed := by
  intro idpIdentifier _ mapping _ hfound
  have hanswer := congrArg Prod.fst hfound
  dsimp only [port] at hanswer
  split at hanswer
  next hsame =>
    cases hanswer
    exact hsame
  next => cases hanswer

def events (row : IdpMapping) : List SsoEvent :=
  [.oidcVerified rawClaims, .mappingFound row.idpIdentifier row]

def result : ResolveAuthenticationResult := ⟨⟨"u", "t", .admin, false⟩, .oidc⟩

theorem ownRow_resolves : (resolveAuthentication (client ownRow) (request ownRow)).run () =
    ⟨.ok result, (), events ownRow⟩ := by
  rfl

theorem otherRow_resolves : (resolveAuthentication (client otherRow) (request otherRow)).run () =
    ⟨.ok result, (), events otherRow⟩ := by
  rfl

theorem ownRow_underIssuer :
    UnderIssuer (verifiedIssuer (events ownRow)) .oidc "t" (events ownRow) :=
  ((resolved_underIssuer_iff (client ownRow) (port_keyed ownRow)).1 (request ownRow) () result ()
    (events ownRow) ownRow_resolves).mpr
      ⟨rfl, ownRow, List.mem_cons_of_mem _ (List.mem_singleton.mpr rfl), rfl⟩

/-- The token of one provider is resolved to a user of another. -/
theorem otherRow_not_underIssuer : ¬ ∀ (client : SSOClient Unit Unit) req w result w' events,
    client.federationPort.Keyed →
      (resolveAuthentication client req).run w = ⟨.ok result, w', events⟩ →
        UnderIssuer (verifiedIssuer events) req.protocol result.resolution.tenantId events := by
  intro h
  obtain ⟨idpIdentifier, mapping, hmem, -, hissuer, -⟩ := h (client otherRow) (request otherRow) ()
    result () (events otherRow) (port_keyed otherRow) otherRow_resolves
  rcases List.mem_cons.mp hmem with hfirst | hlast
  · cases hfirst
  · cases List.mem_singleton.mp hlast
    revert hissuer
    decide

end Logins

end Coivitas.Sdk.Sso
