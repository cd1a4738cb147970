import SuperBoss.Auth.Service

/-!
A request on its way to a handler: the CSRF middleware, the routes that write, the
actor that a handler depends on, and what the auth routes take from the request.
-/

namespace SuperBoss.Api

open SuperBoss.Core
open SuperBoss.Auth (User unauthenticatedError)

inductive Method
  | get
  | head
  | options
  | post
  | put
  | patch
  | delete
  | other (name : Text)
  deriving DecidableEq

/-- `{"POST", "PUT", "PATCH", "DELETE"}`. -/
def Method.writes : Method → Bool
  | .post | .put | .patch | .delete => true
  | .get | .head | .options | .other _ => false

/-- What the middleware and `get_actor` read of a request. The last three fields
but one are cookies. -/
structure Request where
  method : Method
  path : Text
  authorization : Option Text
  accessToken : Option Text
  refreshToken : Option Text
  xsrfToken : Option Text
  csrfHeader : Option Text
  deriving DecidableEq

/-! ### Routes -/

inductive Segment
  | literal (text : Text)
  | parameter
  deriving DecidableEq

/-- A path template, with its parameters in braces. -/
def Segment.template (s : String) : List Segment :=
  ((Text.ofString s).splitOn 47).map fun t =>
    if t.head? = some 123 then .parameter else .literal t

def segmentsMatch : List Segment → List Text → Bool
  | [], [] => true
  | .literal text :: segments, t :: ts => text == t && segmentsMatch segments ts
  | .parameter :: segments, t :: ts => t != [] && segmentsMatch segments ts
  | _, _ => false

/-- The route's pattern matches; its `$` also matches before a last newline. -/
def pathMatches (segments : List Segment) (path : Text) : Bool :=
  segmentsMatch segments (path.splitOn 47) ||
    (path.getLast? == some 10 && segmentsMatch segments (path.dropLast.splitOn 47))

inductive Endpoint
  | login
  | refresh
  | changePassword
  | logout
  | createPairingCode
  | revokeDevice
  | pairDevice
  | refreshDevice
  | createProject
  | startUpload
  | completeUpload
  | presignPart
  | createImport
  | presignImportPart
  | completeAttachment
  | submitImport
  | createStaff
  | updateStaff
  | replaceProjects
  | resetStaffPassword
  deriving DecidableEq

def routes : List (Method × String × Endpoint) :=
  [(.post, "/api/v1/auth/login", .login),
    (.post, "/api/v1/auth/refresh", .refresh),
    (.post, "/api/v1/auth/password/change", .changePassword),
    (.post, "/api/v1/auth/logout", .logout),
    (.post, "/api/v1/owner/devices/pairing-codes", .createPairingCode),
    (.delete, "/api/v1/owner/devices/\x7bdevice_id\x7d", .revokeDevice),
    (.post, "/api/v1/device-auth/pair", .pairDevice),
    (.post, "/api/v1/device-auth/refresh", .refreshDevice),
    (.post, "/api/v1/projects", .createProject),
    (.post, "/api/v1/files/uploads", .startUpload),
    (.post, "/api/v1/files/uploads/\x7bupload_id\x7d/complete", .completeUpload),
    (.post, "/api/v1/files/uploads/\x7bupload_id\x7d/parts/\x7bpart_number\x7d", .presignPart),
    (.post, "/api/v1/device/import-jobs", .createImport),
    (.post, "/api/v1/device/import-jobs/\x7bjob_id\x7d/attachments/\x7battachment_id\x7d/parts/\x7bpart_number\x7d",
      .presignImportPart),
    (.post, "/api/v1/device/import-jobs/\x7bjob_id\x7d/attachments/\x7battachment_id\x7d/complete",
      .completeAttachment),
    (.post, "/api/v1/device/import-jobs/\x7bjob_id\x7d/submit", .submitImport),
    (.post, "/api/v1/owner/users", .createStaff),
    (.patch, "/api/v1/owner/users/\x7buser_id\x7d", .updateStaff),
    (.put, "/api/v1/owner/users/\x7buser_id\x7d/projects", .replaceProjects),
    (.post, "/api/v1/owner/users/\x7buser_id\x7d/password-reset", .resetStaffPassword)]

def route (method : Method) (path : Text) : Option Endpoint :=
  (routes.find? fun r => decide (r.1 = method) && pathMatches (Segment.template r.2.1) path).map
    fun r => r.2.2

/-! ### The actor -/

/-- What the services answer at one moment: tokens that they accept, and what these
stand for. -/
structure Services where
  /-- `AuthService.authenticate_access_token`; none is an `InvalidSession`. -/
  authenticateUser : Text → Option User
  projectIds : UUID → List UUID
  /-- `DeviceService.authenticate_access_token`. -/
  authenticateDevice : Text → Option Actor
  /-- The session that `rotate_refresh_token` uses up. -/
  rotateRefreshToken : Text → Option UUID
  /-- The sessions that `logout` revokes. -/
  sessionByRefreshToken : Text → Option UUID
  sessionByAccessToken : Text → Option UUID

/-- Where a token was taken from. -/
inductive Source
  | cookie
  | header
  deriving DecidableEq

structure Resolved where
  actor : Actor
  source : Source
  deriving DecidableEq

def passwordChangeRequiredError : DomainError :=
  ⟨"PASSWORD_CHANGE_REQUIRED", "Password change required", 403⟩

def bearerPrefix : Text := Text.ofString "Bearer "

namespace Request

/-- `authorization.removeprefix("Bearer ")` where it has the prefix. -/
def bearer (r : Request) : Option Text :=
  let authorization := r.authorization.getD []
  if bearerPrefix.isPrefixOf authorization then some (authorization.drop bearerPrefix.length) else none

def hasBrowserCookie (r : Request) : Bool := r.accessToken.isSome || r.refreshToken.isSome

/-- The token that `get_actor` reads, and where. -/
def actorToken (r : Request) : Option (Source × Text) :=
  match r.accessToken with
  | some token => some (.cookie, token)
  | none => if r.hasBrowserCookie then none else r.bearer.map fun token => (.header, token)

end Request

def userActor (S : Services) (user : User) : Actor :=
  ⟨.user, user.id, some user.role, if user.role = .staff then S.projectIds user.id else [], []⟩

/-- The actor of a token; `browser` is `has_browser_cookie`. -/
def resolve (S : Services) (browser : Bool) (token : Text) : Except DomainError Actor :=
  match S.authenticateUser token with
  | none =>
      if browser then .error unauthenticatedError
      else
        match S.authenticateDevice token with
        | none => .error unauthenticatedError
        | some actor => .ok actor
  | some user =>
      if user.mustChangePassword then .error passwordChangeRequiredError else .ok (userActor S user)

/-- `get_actor`. `cached` is `request.state.resolved_actor`. -/
def getActor (S : Services) (cached : Option Resolved) (r : Request) :
    Except DomainError Resolved :=
  match cached with
  | some resolved => .ok resolved
  | none =>
      match r.actorToken with
      | none => .error unauthenticatedError
      | some (source, token) =>
          if token = [] then .error unauthenticatedError
          else (resolve S r.hasBrowserCookie token).map fun actor => ⟨actor, source⟩

/-! ### The middleware -/

/-- `request.url.path in {…}` of the requests that carry a code or a refresh token. -/
def isDeviceAuthPath (path : Text) : Bool :=
  path == Text.ofString "/api/v1/device-auth/pair" ||
    path == Text.ofString "/api/v1/device-auth/refresh"

def isAuthenticatedWritePath (path : Text) : Bool :=
  ["/api/v1/projects", "/api/v1/files", "/api/v1/device/import-jobs"].any
      (fun p => path == Text.ofString p) ||
    ["/api/v1/projects/", "/api/v1/files/", "/api/v1/owner/devices", "/api/v1/owner/users",
      "/api/v1/device/import-jobs/"].any fun p => (Text.ofString p).isPrefixOf path

/-- `secrets.compare_digest`; none is the `TypeError` of a text that is not ASCII. -/
def compareDigest (a b : Text) : Option Bool :=
  if (a ++ b).all fun c => decide (c < 128) then some (a == b) else none

def csrfValidationFailed : DomainError := ⟨"CSRF_VALIDATION_FAILED", "CSRF validation failed", 403⟩

/-- A cookie or header that is there and not empty. -/
def truthy (value : Option Text) : Bool := value.any fun t => t != []

namespace Request

def hasBrowserCredentials (r : Request) : Bool := truthy r.accessToken || truthy r.refreshToken

end Request

/-- The last check of the middleware. -/
def checkCsrf (r : Request) : Except Failure Unit :=
  match r.xsrfToken, r.csrfHeader with
  | some cookie, some header =>
      if cookie = [] ∨ header = [] then .error (.domain csrfValidationFailed)
      else
        match compareDigest cookie header with
        | none => .error .unexpected
        | some false => .error (.domain csrfValidationFailed)
        | some true => .ok ()
  | _, _ => .error (.domain csrfValidationFailed)

/-- `enforce_browser_csrf`: the response that it sends instead, or the actor that it
has resolved for the handler. Any other error of `get_actor` leaves the middleware
unhandled. -/
def enforceBrowserCsrf (S : Services) (r : Request) : Except Failure (Option Resolved) :=
  if r.method.writes then
    if r.method = .post ∧ isDeviceAuthPath r.path then .ok none
    else if r.authorization.isSome ∧ !r.hasBrowserCredentials then
      match getActor S none r with
      | .ok resolved => .ok (some resolved)
      | .error e => .error (if e = unauthenticatedError then .domain e else .unexpected)
    else if !r.hasBrowserCredentials ∧ isAuthenticatedWritePath r.path then .ok none
    else (checkCsrf r).map fun _ => none
  else .ok none

/-! ### Handlers -/

/-- Whom, or which session, a handler acts on behalf of. -/
inductive Identity
  | actor (actor : Actor)
  | user (id : UUID)
  | session (id : UUID)
  deriving DecidableEq

structure Acting where
  identity : Identity
  source : Source
  deriving DecidableEq

/-- `logout` revokes the session of a token that is there. -/
def revokes (found : Text → Option UUID) (token : Option (Source × Text)) : List Acting :=
  match token with
  | none => []
  | some (source, token) =>
      if token = [] then []
      else ((found token).map fun id => (⟨.session id, source⟩ : Acting)).toList

/-- The access token that `logout` reads. -/
def Request.logoutToken (r : Request) : Option (Source × Text) :=
  match r.bearer with
  | some token => some (.header, token)
  | none => r.accessToken.map fun token => (.cookie, token)

/-- A handler, once its dependencies are there: the identities and sessions that it
acts with. The device and login routes take theirs from the request body. -/
def handle (S : Services) (cached : Option Resolved) (r : Request) :
    Endpoint → Except DomainError (List Acting)
  | .login | .pairDevice | .refreshDevice => .ok []
  | .refresh =>
      match S.rotateRefreshToken (r.refreshToken.getD []) with
      | none => .error unauthenticatedError
      | some id => .ok (r.refreshToken.map fun _ => (⟨.session id, .cookie⟩ : Acting)).toList
  | .changePassword =>
      match r.accessToken with
      | none => .error unauthenticatedError
      | some token =>
          match S.authenticateUser token with
          | none => .error unauthenticatedError
          | some user => .ok [⟨.user user.id, .cookie⟩]
  | .logout =>
      .ok (revokes S.sessionByRefreshToken (r.refreshToken.map fun token => (.cookie, token)) ++
        revokes S.sessionByAccessToken r.logoutToken)
  | .createPairingCode | .revokeDevice | .createProject | .startUpload | .completeUpload
  | .presignPart | .createImport | .presignImportPart | .completeAttachment | .submitImport
  | .createStaff | .updateStaff | .replaceProjects | .resetStaffPassword =>
      (getActor S cached r).map fun resolved => [⟨.actor resolved.actor, resolved.source⟩]

/-- A request through the middleware to its handler; none where the handler does not
run, or fails before it acts. The services may answer differently by then. -/
def serve (early late : Services) (r : Request) : Option (List Acting) :=
  match enforceBrowserCsrf early r, route r.method r.path with
  | .ok cached, some endpoint => (handle late cached r endpoint).toOption
  | _, _ => none

end SuperBoss.Api
