import SuperBoss.Api.Requests
import SuperBoss.Auth.Disclosure
import SuperBoss.Devices.Authorization

/-!
`get_actor` over the rows of users, sessions and devices, and what becomes of its
errors: in a route the handler of domain errors renders them, in the middleware
only one of the two is caught.
-/

namespace SuperBoss.Api

open SuperBoss.Core
open SuperBoss.Library
open SuperBoss.Library.Transition (run)
open SuperBoss.Library.Transactions (State)
open SuperBoss.Files (Fate)
open SuperBoss.Auth (User UserTable SessionTable unauthenticatedError accessClaims sessionValid)

/-! ### The lookup -/

/-- What the statements of one `get_actor` read; the tables may move on in between. -/
structure Moment where
  now : Instant
  sessions : SessionTable
  sessionFate : Fate
  users : UserTable
  userFate : Fate
  projectIds : UUID → List UUID
  projectFate : Fate
  devices : Devices.Db
  device : Devices.Answer

variable (C : Auth.Context) (D : Devices.Context)

namespace Moment

/-- `AuthService.authenticate_access_token`; none is an `InvalidSession`. -/
def authenticateUser (m : Moment) (token : Text) : Except Failure (Option User) :=
  match accessClaims C m.now token with
  | none => .ok none
  | some (sessionId, userId, claims) =>
      if m.sessionFate ≠ .ok then .error .unexpected
      else
        match m.sessions.get? sessionId with
        | none => .ok none
        | some x =>
            if !sessionValid x userId claims m.now then .ok none
            else if m.userFate ≠ .ok then .error .unexpected
            else .ok ((m.users.get? userId).filter fun user =>
              user.status = .active && Text.ofString user.role.value = claims.role)

/-- `DeviceService.authenticate_access_token`; none is an `InvalidDeviceCredential`. -/
def authenticateDevice (m : Moment) (token : Text) : Except Failure (Option Actor) :=
  match (Devices.authenticateAccessToken D m.device m.devices token).2 with
  | .done (.actor actor) => .ok (some actor)
  | .failed .invalidCredential => .ok none
  | _ => .error .unexpected

/-- The rest of `get_actor`, for a user that the access token stands for. -/
def userActor (m : Moment) (user : User) : Except Failure Actor :=
  if user.mustChangePassword then .error (.domain passwordChangeRequiredError)
  else if user.role = .staff ∧ m.projectFate ≠ .ok then .error .unexpected
  else .ok ⟨.user, user.id, some user.role,
    if user.role = .staff then m.projectIds user.id else [], []⟩

/-- The rest of `get_actor`, for a token that stands for no user. -/
def deviceActor (m : Moment) (browser : Bool) (token : Text) : Except Failure Actor :=
  if browser then .error (.domain unauthenticatedError)
  else
    match authenticateDevice D m token with
    | .error failure => .error failure
    | .ok none => .error (.domain unauthenticatedError)
    | .ok (some actor) => .ok actor

/-- `get_actor`, when no actor is cached. -/
def findActor (m : Moment) (r : Request) : Except Failure Resolved :=
  match r.actorToken with
  | none => .error (.domain unauthenticatedError)
  | some (source, token) =>
      if token = [] then .error (.domain unauthenticatedError)
      else
        match authenticateUser C m token with
        | .error failure => .error failure
        | .ok (some user) => (m.userActor user).map fun actor => ⟨actor, source⟩
        | .ok none => (m.deviceActor D r.hasBrowserCookie token).map fun actor => ⟨actor, source⟩

/-- Where nothing else goes wrong, it is `get_actor` over the services of the moment. -/
theorem findActor_of_services {S : Services} {m : Moment} (r : Request)
    (huser : ∀ token, authenticateUser C m token = .ok (S.authenticateUser token))
    (hdevice : ∀ token, authenticateDevice D m token = .ok (S.authenticateDevice token))
    (hprojects : m.projectFate = .ok ∧ m.projectIds = S.projectIds) :
    findActor C D m r = (getActor S none r).mapError .domain := by
  obtain ⟨hfate, hids⟩ := hprojects
  unfold findActor getActor
  cases htoken : r.actorToken with
  | none => rfl
  | some token =>
      obtain ⟨source, token⟩ := token
      dsimp only
      split
      · rfl
      · rw [huser, resolve]
        cases hfound : S.authenticateUser token with
        | none =>
            dsimp only
            rw [deviceActor, hdevice]
            cases r.hasBrowserCookie with
            | true => rfl
            | false => cases S.authenticateDevice token <;> rfl
        | some user =>
            dsimp only
            rw [Moment.userActor, hfate, hids]
            cases user.mustChangePassword <;> simp [Except.map, Except.mapError, Api.userActor]

end Moment

/-! ### Responses -/

inductive Response
  | error (status : Nat) (code : String)
  /-- What the route answers, with the actor that it depends on, if any. -/
  | route (actor : Option Resolved)
  deriving DecidableEq

/-- `handle_domain_error`. -/
def Response.domain (e : DomainError) : Response := .error e.statusCode e.code

/-- `handle_unexpected_error`. -/
def Response.unexpected : Response := .error 500 "REQUEST_FAILED"

/-- A request's response, and the errors that `get_actor` raised on the way. -/
structure Exchange where
  failures : List Failure
  response : Response
  deriving DecidableEq

/-- A route whose handler has the parameter `actor: Actor = Depends(get_actor)`. -/
def Endpoint.dependsOnActor : Endpoint → Bool
  | .login | .refresh | .changePassword | .logout | .pairDevice | .refreshDevice => false
  | .createPairingCode | .revokeDevice | .createProject | .startUpload | .completeUpload
  | .presignPart | .createImport | .presignImportPart | .completeAttachment | .submitImport
  | .createStaff | .updateStaff | .replaceProjects | .resetStaffPassword => true

/-- The routes that read and depend on the actor. -/
def readRoutes : List String :=
  ["/api/v1/owner/devices", "/api/v1/device-auth/me", "/api/v1/projects",
    "/api/v1/projects/\x7bproject_id\x7d", "/api/v1/files/\x7bfile_id\x7d/download",
    "/api/v1/device/import-jobs/\x7bjob_id\x7d", "/api/v1/owner/import-jobs",
    "/api/v1/owner/users"]

def dependsOnActor (r : Request) : Bool :=
  (route r.method r.path).any Endpoint.dependsOnActor ||
    (decide (r.method = .get) && readRoutes.any fun path => pathMatches (Segment.template path) r.path)

variable (late : Moment) (decodes : Bool) (r : Request)

/-- `call_next`: the route with its dependencies. A body that does not decode is
refused before them. -/
def callNext (cached : Option Resolved) : Exchange :=
  if dependsOnActor r && decodes then
    match cached with
    | some resolved => ⟨[], .route (some resolved)⟩
    | none =>
        match Moment.findActor C D late r with
        | .ok resolved => ⟨[], .route (some resolved)⟩
        | .error (.domain e) => ⟨[.domain e], .domain e⟩
        | .error failure => ⟨[failure], .unexpected⟩
  else ⟨[], .route none⟩

/-- `enforce_browser_csrf` around the route. What it does not catch passes by the
handler of domain errors. -/
def respond (early : Moment) : Exchange :=
  if r.method.writes then
    if r.method = .post ∧ isDeviceAuthPath r.path then callNext C D late decodes r none
    else if r.authorization.isSome ∧ !r.hasBrowserCredentials then
      match Moment.findActor C D early r with
      | .ok resolved => callNext C D late decodes r (some resolved)
      | .error failure =>
          if failure = .domain unauthenticatedError then
            ⟨[failure], .error 401 "AUTHENTICATION_REQUIRED"⟩
          else ⟨[failure], .unexpected⟩
    else if !r.hasBrowserCredentials ∧ isAuthenticatedWritePath r.path then
      callNext C D late decodes r none
    else
      match checkCsrf r with
      | .error (.domain e) => ⟨[], .domain e⟩
      | .error _ => ⟨[], .unexpected⟩
      | .ok () => callNext C D late decodes r none
  else callNext C D late decodes r none

/-! ### Errors of the lookup -/

/-- Every domain error of `get_actor` has its own status and code in the response. -/
def RendersActorErrors (x : Exchange) : Prop :=
  ∀ e, Failure.domain e ∈ x.failures → x.response = .error e.statusCode e.code

/-- The middleware resolves the actor of the request, and finds a user in the
Authorization header who must change the password. -/
def PasswordChangeInHeader (early : Moment) : Prop :=
  r.method.writes = true ∧ ¬(r.method = .post ∧ isDeviceAuthPath r.path = true) ∧
    r.hasBrowserCookie = false ∧ ∃ token user, token ≠ [] ∧ r.bearer = some token ∧
      early.authenticateUser C token = .ok (some user) ∧ user.mustChangePassword = true

section rendering

variable {C D}
variable {m early : Moment} {late : Moment} {decodes : Bool} {r : Request}

/-- A user who must change the password is the one domain error besides a credential
that is not accepted. -/
theorem domain_of_findActor {e : DomainError} (h : m.findActor C D r = .error (.domain e)) :
    e = unauthenticatedError ∨ e = passwordChangeRequiredError ∧ ∃ source token user,
      r.actorToken = some (source, token) ∧ token ≠ [] ∧
        m.authenticateUser C token = .ok (some user) ∧ user.mustChangePassword = true := by
  unfold Moment.findActor at h
  split at h
  · cases h
    exact .inl rfl
  · rename_i source token htoken
    split at h
    · cases h
      exact .inl rfl
    · rename_i hne
      split at h
      · rename_i failure huser
        cases h
        -- The session lookup raises no domain error of its own.
        unfold Moment.authenticateUser at huser
        split at huser
        · cases huser
        · split at huser
          · cases huser
          · split at huser
            · cases huser
            · split at huser
              · cases huser
              · split at huser <;> cases huser
      · rename_i user huser
        unfold Moment.userActor at h
        split at h
        · rename_i hmust
          cases h
          exact .inr ⟨rfl, source, token, user, htoken, hne, huser, hmust⟩
        · split at h <;> cases h
      · unfold Moment.deviceActor at h
        split at h
        · cases h
          exact .inl rfl
        · split at h
          · rename_i failure hdevice
            cases h
            unfold Moment.authenticateDevice at hdevice
            split at hdevice <;> cases hdevice
          · cases h
            exact .inl rfl
          · cases h

theorem findActor_of_mustChange {source : Source} {token : Text} {user : User}
    (htoken : r.actorToken = some (source, token)) (hne : token ≠ [])
    (huser : m.authenticateUser C token = .ok (some user))
    (hmust : user.mustChangePassword = true) :
    m.findActor C D r = .error (.domain passwordChangeRequiredError) := by
  simp only [Moment.findActor, htoken, if_neg hne, huser, Moment.userActor, hmust, if_true,
    Except.map]

theorem renders_of_no_failure {response : Response} : RendersActorErrors ⟨[], response⟩ := by
  intro e he
  cases he

/-- In a route every domain error is rendered. -/
theorem callNext_renders (cached : Option Resolved) :
    RendersActorErrors (callNext C D late decodes r cached) := by
  unfold callNext
  split
  · split
    · exact renders_of_no_failure
    · split
      · exact renders_of_no_failure
      · intro e he
        cases List.mem_singleton.mp he
        rfl
      · rename_i failure hnot hfound
        intro e he
        cases List.mem_singleton.mp he
        exact absurd rfl (hnot e)
  · exact renders_of_no_failure

/-- The requests whose actor the middleware resolves. -/
def ResolvedInMiddleware (r : Request) : Prop :=
  r.method.writes = true ∧ ¬(r.method = .post ∧ isDeviceAuthPath r.path = true) ∧
    r.authorization.isSome = true ∧ r.hasBrowserCredentials = false

theorem respond_renders (h : ¬ResolvedInMiddleware r) :
    RendersActorErrors (respond C D late decodes r early) := by
  unfold respond
  split
  · rename_i hwrites
    split
    · exact callNext_renders none
    · rename_i hpath
      split
      · rename_i hheader
        simp only [Bool.not_eq_true'] at hheader
        exact absurd ⟨hwrites, hpath, hheader⟩ h
      · split
        · exact callNext_renders none
        · split
          · exact renders_of_no_failure
          · exact renders_of_no_failure
          · exact callNext_renders none
  · exact callNext_renders none

theorem respond_of_resolved (h : ResolvedInMiddleware r) :
    respond C D late decodes r early =
      match early.findActor C D r with
      | .ok resolved => callNext C D late decodes r (some resolved)
      | .error failure =>
          if failure = .domain unauthenticatedError then
            ⟨[failure], .error 401 "AUTHENTICATION_REQUIRED"⟩
          else ⟨[failure], .unexpected⟩ := by
  obtain ⟨hwrites, hpath, hauthorization, hcredentials⟩ := h
  unfold respond
  rw [if_pos hwrites, if_neg hpath, if_pos ⟨hauthorization, by rw [hcredentials]; rfl⟩]

/-- A token from the header, since an empty cookie leaves no token. -/
theorem bearer_of_actorToken {source : Source} {token : Text}
    (hcredentials : r.hasBrowserCredentials = false) (hne : token ≠ [])
    (h : r.actorToken = some (source, token)) :
    r.hasBrowserCookie = false ∧ r.bearer = some token := by
  unfold Request.actorToken at h
  split at h
  · rename_i cookie hcookie
    cases h
    rw [Request.hasBrowserCredentials, hcookie] at hcredentials
    simp [truthy, hne] at hcredentials
  · split at h
    · cases h
    · rename_i hnone
      obtain ⟨bearer, hbearer, heq⟩ := Option.map_eq_some_iff.mp h
      cases heq
      exact ⟨Bool.eq_false_iff.mpr hnone, hbearer⟩

theorem resolved_of_bearer {token : Text} (hbearer : r.bearer = some token)
    (hcookie : r.hasBrowserCookie = false) :
    r.authorization.isSome = true ∧ r.hasBrowserCredentials = false ∧
      r.actorToken = some (.header, token) := by
  obtain ⟨haccess, hrefresh⟩ := Bool.or_eq_false_iff.mp hcookie
  rw [Option.isSome_eq_false_iff, Option.isNone_iff_eq_none] at haccess hrefresh
  refine ⟨?_, ?_, ?_⟩
  · cases hauthorization : r.authorization with
    | none =>
        rw [Request.bearer, hauthorization] at hbearer
        cases hbearer
    | some _ => rfl
  · rw [Request.hasBrowserCredentials, haccess, hrefresh]
    rfl
  · rw [Request.actorToken, haccess, hcookie, hbearer]
    rfl

theorem PasswordChangeInHeader.resolved (h : PasswordChangeInHeader C r early) :
    ResolvedInMiddleware r := by
  obtain ⟨hwrites, hpath, hcookie, token, user, -, hbearer, -⟩ := h
  obtain ⟨hauthorization, hcredentials, -⟩ := resolved_of_bearer hbearer hcookie
  exact ⟨hwrites, hpath, hauthorization, hcredentials⟩

theorem PasswordChangeInHeader.findActor (h : PasswordChangeInHeader C r early) :
    early.findActor C D r = .error (.domain passwordChangeRequiredError) := by
  obtain ⟨-, -, hcookie, token, user, hne, hbearer, huser, hmust⟩ := h
  obtain ⟨-, -, htoken⟩ := resolved_of_bearer hbearer hcookie
  exact findActor_of_mustChange htoken hne huser hmust

theorem passwordChangeInHeader_of_findActor {e : DomainError} (hresolved : ResolvedInMiddleware r)
    (h : early.findActor C D r = .error (.domain e)) (hne : e ≠ unauthenticatedError) :
    PasswordChangeInHeader C r early := by
  obtain ⟨hwrites, hpath, -, hcredentials⟩ := hresolved
  obtain heq | ⟨-, source, token, user, htoken, hne, huser, hmust⟩ := domain_of_findActor h
  · exact absurd heq hne
  · obtain ⟨hcookie, hbearer⟩ := bearer_of_actorToken hcredentials hne htoken
    exact ⟨hwrites, hpath, hcookie, token, user, hne, hbearer, huser, hmust⟩

/-- The response has the status and code of every domain error of `get_actor`, unless
the middleware meets a user who must change the password. -/
theorem actor_errors_rendered_iff (C : Auth.Context) (D : Devices.Context) (early late : Moment)
    (decodes : Bool) (r : Request) :
    RendersActorErrors (respond C D late decodes r early) ↔ ¬PasswordChangeInHeader C r early := by
  by_cases hresolved : ResolvedInMiddleware r
  · rw [respond_of_resolved hresolved]
    constructor
    · intro hrenders h
      rw [h.findActor] at hrenders
      have hresponse := hrenders passwordChangeRequiredError (List.mem_singleton_self _)
      dsimp only at hresponse
      rw [if_neg (by decide)] at hresponse
      revert hresponse
      decide
    · intro hnot
      cases hfound : early.findActor C D r with
      | ok resolved => exact callNext_renders _
      | error failure =>
          intro e he
          dsimp only at he ⊢
          split at he
          · rename_i hfailure
            rw [if_pos hfailure]
            cases (List.mem_singleton.mp he).trans hfailure
            rfl
          · rename_i hfailure
            obtain rfl := List.mem_singleton.mp he
            refine absurd (passwordChangeInHeader_of_findActor hresolved hfound ?_) hnot
            rintro rfl
            exact hfailure rfl
  · exact iff_of_true (respond_renders hresolved) fun h => hresolved h.resolved

end rendering

namespace Sample

/-- A member of staff, as `create_staff` leaves the row. -/
def newcomer : User :=
  { Auth.Sample.user with role := .staff, mustChangePassword := true }

def accounts : Auth.Db where
  users := (Table.insert? ∅ newcomer).getD ∅
  sessions := ∅

/-- A login up to its response. -/
def login : List Auth.AuthEvent :=
  .start ⟨.login Auth.Sample.username Auth.Sample.password, .start⟩ ::
    List.replicate 5 (.act 0 Auth.Sample.answer)

/-- What a request meets after a run of the browser endpoints. -/
def moment (s : Auth.AuthState) : Moment where
  now := Auth.Sample.answer.now
  sessions := s.db.sessions
  sessionFate := .ok
  users := s.db.users
  userFate := .ok
  projectIds _ := []
  projectFate := .ok
  devices := ⟨s.db.users, ∅, ∅, ∅, s.db.sessions⟩
  device := Devices.Sample.answer

/-- `POST /api/v1/projects` with an access token in the header. -/
def withToken (token : Text) : Request where
  method := .post
  path := Text.ofString "/api/v1/projects"
  authorization := some (bearerPrefix ++ token)
  accessToken := none
  refreshToken := none
  xsrfToken := none
  csrfHeader := none

/-- The token that the login gives out. -/
def loginToken (s : Auth.AuthState) : Option Text :=
  s.clients[0]?.bind fun c => (Auth.Sample.sent c.pc.stage).bind fun reply =>
    reply.pair.map fun pair => pair.accessToken

end Sample

/-- After the login, the error is raised in the middleware and the response is the
generic one. -/
theorem actor_errors_generic : ¬∀ es s early late decodes r,
    run (Auth.next Auth.Sample.context) (State.init Sample.accounts) es = some s →
      early = Sample.moment s → late = Sample.moment s →
        RendersActorErrors
          (respond Auth.Sample.context Devices.Sample.context late decodes r early) := by
  have hrun : ((run (Auth.next Auth.Sample.context) (State.init Sample.accounts)
      Sample.login).bind fun s => (Sample.loginToken s).map fun token => decide
        (respond Auth.Sample.context Devices.Sample.context (Sample.moment s) true
          (Sample.withToken token) (Sample.moment s) =
            ⟨[.domain passwordChangeRequiredError], .unexpected⟩)) = some true := by
    decide +kernel
  obtain ⟨s, hs, hrun⟩ := Option.bind_eq_some_iff.mp hrun
  obtain ⟨token, -, hresponse⟩ := Option.map_eq_some_iff.mp hrun
  intro h
  have hrenders := h _ s _ _ true (Sample.withToken token) hs rfl rfl
  rw [of_decide_eq_true hresponse] at hrenders
  have heq := hrenders _ (List.mem_singleton_self _)
  revert heq
  decide

end SuperBoss.Api
