import SuperBoss.Web.Models

/-!
`createHttpClient` with the handlers that the router installs, the auth store,
and navigations with their guard. An event is a call by the page, the answer of
the adapter to a request, or the turn of a call whose awaited promise is settled;
what it does up to the next `await` is one step.
-/

namespace SuperBoss.Web

open SuperBoss.Core
open SuperBoss.Library.Promises

structure State where
  promises : PromiseHeap
  /-- `refreshPromise` of the client. -/
  refreshPromise : Option Nat
  lostNotified : Bool
  /-- `refreshPromise` of the store. -/
  storePromise : Option Nat
  bootstrapPromise : Option Nat
  isBootstrapped : Bool
  user : Option AuthUser
  currentRoute : Route

/-- A call by the page. -/
inductive Call
  | request (url : Url)
  | login
  | changePassword
  | logout
  | navigate (target : Route)
  deriving DecidableEq

inductive Event
  | call (c : Call)
  /-- The adapter answers; none where there is no response. -/
  | respond (i : Nat) (answer : Option Response)
  /-- A call goes on. A navigation that may end also does, unless it was superseded. -/
  | resume (i : Nat) (current : Bool)
  deriving DecidableEq

namespace State

def init : State := ⟨[], none, false, none, none, false, none, .start⟩

def spawn (s : State) (task : Task) : Nat × State :=
  (s.promises.length, { s with promises := s.promises.spawn task })

def advance (s : State) (i : Nat) (task : Task) : State :=
  { s with promises := s.promises.advance i task }

def settle (s : State) (i : Nat) (r : Settlement) : State :=
  { s with promises := s.promises.settle i r }

/-- `client.request` of a new configuration. -/
def send (s : State) (url : Url) : Nat × State := s.spawn (.request ⟨url, false, none⟩ .sent)

/-! ### The auth store and the router -/

def markAuthenticationLost (s : State) : State := { s with user := none, isBootstrapped := true }

/-- `bootstrap`; none is a promise that is resolved already. -/
def bootstrap (s : State) : Option Nat × State :=
  match s.bootstrapPromise with
  | some p => (some p, s)
  | none =>
      if s.isBootstrapped then (none, s)
      else
        let (me, s) := s.send .me
        let (pending, s) := s.spawn (.bootstrap me)
        let (derived, s) := s.spawn (.bootstrapFinally pending)
        (some derived, { s with bootstrapPromise := some derived })

/-- `refresh` of the store. -/
def storeRefresh (s : State) : Nat × State :=
  match s.storePromise with
  | some p => (p, s)
  | none =>
      let (me, s) := s.send .me
      let (pending, s) := s.spawn (.storeRefresh me)
      let (derived, s) := s.spawn (.storeFinally pending)
      (derived, { s with storePromise := some derived })

/-- `router.replace` and `router.push`. -/
def replace (s : State) (target : Route) : Nat × State := s.spawn (.navigate target .starting)

/-- The route is one that a user has to be logged in for. -/
def onProtectedRoute (s : State) : Bool := s.currentRoute.requiresAuth && s.currentRoute != .login

/-- The handler of `setAuthenticationLostHandler`; none where it has nothing to await. -/
def lostHandler (s : State) : Option Nat × State :=
  let s := s.markAuthenticationLost
  if s.onProtectedRoute then
    let (navigation, s) := s.replace .login
    let (handler, s) := s.spawn (.authenticationLost navigation)
    (some handler, s)
  else (none, s)

/-- The handler of `setSessionRefreshedHandler`. -/
def refreshedHandler (s : State) : Nat × State :=
  let (restored, s) := s.storeRefresh
  s.spawn (.sessionRefreshed (.restoring restored))

/-- Where the handler goes after the store has been refreshed. -/
def refreshedTarget (s : State) : Option Route :=
  match s.user with
  | none => if s.onProtectedRoute then some .login else none
  | some u =>
      if u.mustChangePassword && s.currentRoute != .passwordChange then some .passwordChange
      else if s.currentRoute.roles.any fun roles => !roles.contains u.role then some .forbidden
      else if s.currentRoute = .forbidden ∧ u.role = .owner then some (.owner .home)
      else none

/-- What the guard of a navigation returns after `bootstrap`: a route to go to
instead, or none. -/
def guard (user : Option AuthUser) (target : Route) : Option Route :=
  match user with
  | none => if target = .login then none else some .login
  | some u =>
      if u.mustChangePassword then
        if target = .passwordChange then none else some .passwordChange
      else if target = .login ∨ target = .passwordChange then
        some (if u.role = .owner then .owner .home else .forbidden)
      else if target.roles.any fun roles => !roles.contains u.role then some .forbidden
      else none

/-! ### The HTTP client -/

def notifyLost (s : State) : Option Nat × State :=
  if s.lostNotified then (none, s) else { s with lostNotified := true }.lostHandler

/-- `refresh` of the client. -/
def refresh (s : State) : Nat × State :=
  match s.refreshPromise with
  | some p => (p, s)
  | none =>
      let (post, s) := s.send .refresh
      let (pending, s) := s.spawn (.refresh (.posting post))
      let (derived, s) := s.spawn (.refreshFinally pending)
      (derived, { s with refreshPromise := some derived })

/-- The interceptor notifies, and will throw. -/
def lose (s : State) (i : Nat) (config : Config) : State :=
  let (notified, s) := s.notifyLost
  s.advance i (.request config (.losing notified))

/-- `validateStatus` and the interceptor of the response to request `i`. -/
def respond (s : State) (i : Nat) (config : Config) (answer : Option Response) : State :=
  match answer with
  | none => s.settle i .rejected
  | some r =>
      if 200 ≤ r.status ∧ r.status < 300 then s.settle i (.resolved (some r))
      else if r.status ≠ 401 ∨ config.url = .refresh then s.settle i .rejected
      else if !r.refreshable || config.retried then s.lose i config
      else
        let (refreshed, s) := s.refresh
        s.advance i (.request { config with retried := true } (.refreshing refreshed))

/-! ### After an `await` -/

/-- A request of `me()` that was answered with a user. -/
def me : Settlement → Option AuthUser
  | .resolved (some ⟨200, _, .user u⟩) => some u
  | _ => none

/-- The answer of a request that returns nothing. -/
def noContent : Settlement → Bool
  | .resolved (some r) => r.status == 204 && r.body == .empty
  | _ => false

def resumeRequest (s : State) (i : Nat) (config : Config) (r : Settlement) : RequestPoint → State
  | .sent => s
  | .refreshing _ =>
      match r with
      | .resolved _ =>
          let (retry, s) := s.spawn (.request { config with retryOf := some i } .sent)
          s.advance i (.request config (.retrying retry))
      | .rejected => s.lose i config
  | .retrying _ =>
      match r with
      | .resolved response => s.settle i (.resolved response)
      | .rejected => s.lose i config
  | .losing _ => s.settle i .rejected

def resumeRefresh (s : State) (i : Nat) (r : Settlement) : RefreshPoint → State
  | .posting _ =>
      match r with
      | .resolved (some response) =>
          if response.status = 204 then
            let (handler, s) := s.refreshedHandler
            s.advance i (.refresh (.handling handler))
          else s.settle i .rejected
      | .resolved none | .rejected => s.settle i .rejected
  | .handling _ =>
      match r with
      | .resolved _ => { s with lostNotified := false }.settle i (.resolved none)
      | .rejected => s.settle i .rejected

def resumeHandler (s : State) (i : Nat) (r : Settlement) : HandlerPoint → State
  | .restoring _ =>
      match r with
      | .rejected =>
          if s.onProtectedRoute then
            let (navigation, s) := s.replace .login
            s.advance i (.sessionRefreshed (.failing navigation))
          else s.settle i .rejected
      | .resolved _ =>
          match s.refreshedTarget with
          | some target =>
              let (navigation, s) := s.replace target
              s.advance i (.sessionRefreshed (.navigating navigation))
          | none => s.settle i (.resolved none)
  | .failing _ => s.settle i .rejected
  | .navigating _ => s.settle i r

def resumeNavigation (s : State) (i : Nat) (current : Bool) (target : Route) :
    NavigationPoint → State
  | .starting =>
      if target = .health then s.advance i (.navigate target .finishing)
      else
        let (bootstrapped, s) := s.bootstrap
        s.advance i (.navigate target (.guarding bootstrapped))
  | .guarding _ =>
      match guard s.user target with
      | some redirect => s.advance i (.navigate redirect .starting)
      | none => s.advance i (.navigate target .finishing)
  | .finishing =>
      { s with currentRoute := if current then target else s.currentRoute }.settle i
        (.resolved none)

def resumeLogin (s : State) (i : Nat) (r : Settlement) : LoginPoint → State
  | .preparing _ =>
      if noContent r then
        let (post, s) := s.send .login
        s.advance i (.login (.posting post))
      else s.settle i .rejected
  | .posting _ =>
      if noContent r then
        let (restored, s) := s.storeRefresh
        s.advance i (.login (.restoring restored))
      else s.settle i .rejected
  | .restoring _ => s.settle i r

def resumeChange (s : State) (i : Nat) (r : Settlement) : ChangePoint → State
  | .posting _ =>
      if noContent r then
        let (restored, s) := s.storeRefresh
        s.advance i (.changePassword (.restoring restored))
      else s.settle i .rejected
  | .restoring _ => s.settle i r

/-- `user.value = …` with `isBootstrapped.value = true`. -/
def setUser (s : State) (user : Option AuthUser) : State := { s with user, isBootstrapped := true }

/-- What a call does with the settlement that it awaited, up to its next `await`. -/
def resume (s : State) (i : Nat) (current : Bool) (r : Settlement) : Task → State
  | .request config point => s.resumeRequest i config r point
  | .refresh point => s.resumeRefresh i r point
  | .refreshFinally pending =>
      { s with refreshPromise :=
          if s.refreshPromise = some pending then none else s.refreshPromise }.settle i r
  | .sessionRefreshed point => s.resumeHandler i r point
  | .authenticationLost _ => s.settle i r
  | .storeRefresh _ =>
      (s.setUser (me r)).settle i (if (me r).isSome then .resolved none else .rejected)
  | .storeFinally _ => { s with storePromise := none }.settle i r
  | .bootstrap _ => (s.setUser (me r)).settle i (.resolved none)
  | .bootstrapFinally _ => { s with bootstrapPromise := none }.settle i r
  | .navigate target point => s.resumeNavigation i current target point
  | .login point => s.resumeLogin i r point
  | .changePassword point => s.resumeChange i r point
  | .logout _ => s.markAuthenticationLost.settle i (.resolved none)

/-- What a call awaits is settled so. A request at the adapter waits for its answer. -/
def ready (s : State) : Task → Option Settlement
  | .request _ .sent => none
  | task =>
      match task.awaits with
      | none => some (.resolved none)
      | some p => s.promises[p]?.bind (·.result)

def call (s : State) : Call → Option State
  | .request url => if url = .refresh then none else some (s.send url).2
  | .login =>
      let (csrf, s) := s.send .csrf
      some (s.spawn (.login (.preparing csrf))).2
  | .changePassword =>
      let (post, s) := s.send .passwordChange
      some (s.spawn (.changePassword (.posting post))).2
  | .logout =>
      let (post, s) := s.send .logout
      some (s.spawn (.logout post)).2
  | .navigate target => some (s.replace target).2

end State

def next (s : State) : Event → Option State
  | .call c => s.call c
  | .respond i answer =>
      match s.promises[i]? with
      | some ⟨.request config .sent, none⟩ => some (s.respond i config answer)
      | _ => none
  | .resume i current =>
      match s.promises[i]? with
      | some ⟨task, none⟩ => (s.ready task).map fun r => s.resume i current r task
      | _ => none

end SuperBoss.Web
