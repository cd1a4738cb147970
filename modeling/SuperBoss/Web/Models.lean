import SuperBoss.Core.Values
import SuperBoss.Library.Promises

/-!
The browser application: routes, users, requests and their answers, and where
the asynchronous functions of the HTTP client, the auth store and the router are
suspended.
-/

namespace SuperBoss.Web

open SuperBoss.Core
open SuperBoss.Library.Promises

inductive OwnerPage
  | home
  | projects
  | users
  | drive
  | devices
  | importJobs
  deriving DecidableEq

/-- The named routes; `start` is `START_LOCATION`, `unknown` a path that matches none. -/
inductive Route
  | start
  | unknown
  | health
  | login
  | passwordChange
  | forbidden
  | owner (page : OwnerPage)
  deriving DecidableEq

namespace Route

def requiresAuth : Route → Bool
  | .passwordChange | .owner _ => true
  | .start | .unknown | .health | .login | .forbidden => false

def roles : Route → Option (List Role)
  | .owner _ => some [.owner]
  | .start | .unknown | .health | .login | .passwordChange | .forbidden => none

end Route

structure AuthUser where
  role : Role
  mustChangePassword : Bool
  deriving DecidableEq

inductive Url
  | refresh
  | me
  | csrf
  | login
  | passwordChange
  | logout
  | other (path : Text)
  deriving DecidableEq

/-- A response body: nothing, a user that `parseUser` accepts, or anything else. -/
inductive Body
  | empty
  | user (user : AuthUser)
  | other
  deriving DecidableEq

structure Response where
  status : Nat
  /-- `X-SuperBoss-Refreshable` is `1`. -/
  refreshable : Bool
  body : Body
  deriving DecidableEq

inductive Settlement
  | resolved (response : Option Response)
  | rejected
  deriving DecidableEq

/-- The configuration of a request. It is reissued with the configuration of the
request that it retries. -/
structure Config where
  url : Url
  retried : Bool
  retryOf : Option Nat
  deriving DecidableEq

/-- `client.request`: at the adapter, or in the interceptor of its response. -/
inductive RequestPoint
  | sent
  | refreshing (refreshed : Nat)
  | retrying (retry : Nat)
  | losing (notified : Option Nat)
  deriving DecidableEq

inductive RefreshPoint
  | posting (post : Nat)
  | handling (handler : Nat)
  deriving DecidableEq

inductive HandlerPoint
  | restoring (restored : Nat)
  | failing (navigation : Nat)
  | navigating (navigation : Nat)
  deriving DecidableEq

inductive NavigationPoint
  | starting
  | guarding (bootstrapped : Option Nat)
  | finishing
  deriving DecidableEq

inductive LoginPoint
  | preparing (csrf : Nat)
  | posting (post : Nat)
  | restoring (restored : Nat)
  deriving DecidableEq

inductive ChangePoint
  | posting (post : Nat)
  | restoring (restored : Nat)
  deriving DecidableEq

/-- Where an asynchronous call is suspended. `refreshFinally`, `storeFinally` and
`bootstrapFinally` are the promises that `finally` derives. -/
inductive Task
  | request (config : Config) (point : RequestPoint)
  | refresh (point : RefreshPoint)
  | refreshFinally (pending : Nat)
  | sessionRefreshed (point : HandlerPoint)
  | authenticationLost (navigation : Nat)
  | storeRefresh (me : Nat)
  | storeFinally (pending : Nat)
  | bootstrap (me : Nat)
  | bootstrapFinally (pending : Nat)
  | navigate (target : Route) (point : NavigationPoint)
  | login (point : LoginPoint)
  | changePassword (point : ChangePoint)
  | logout (post : Nat)
  deriving DecidableEq

inductive Kind
  | request (url : Url) (retryOf : Option Nat)
  | refresh
  | refreshFinally (pending : Nat)
  | sessionRefreshed
  | authenticationLost
  | storeRefresh (me : Nat)
  | storeFinally (pending : Nat)
  | bootstrap (me : Nat)
  | bootstrapFinally (pending : Nat)
  | navigate
  | login
  | changePassword
  | logout
  deriving DecidableEq

namespace Task

def kind : Task → Kind
  | .request config _ => .request config.url config.retryOf
  | .refresh _ => .refresh
  | .refreshFinally pending => .refreshFinally pending
  | .sessionRefreshed _ => .sessionRefreshed
  | .authenticationLost _ => .authenticationLost
  | .storeRefresh me => .storeRefresh me
  | .storeFinally pending => .storeFinally pending
  | .bootstrap me => .bootstrap me
  | .bootstrapFinally pending => .bootstrapFinally pending
  | .navigate _ _ => .navigate
  | .login _ => .login
  | .changePassword _ => .changePassword
  | .logout _ => .logout

/-- The promise that a call awaits; none where it awaits the adapter, or a value
that is there. -/
def awaits : Task → Option Nat
  | .request _ .sent | .request _ (.losing none) => none
  | .request _ (.refreshing p) | .request _ (.retrying p) | .request _ (.losing (some p)) => some p
  | .refresh (.posting p) | .refresh (.handling p) => some p
  | .refreshFinally p => some p
  | .sessionRefreshed (.restoring p) | .sessionRefreshed (.failing p)
  | .sessionRefreshed (.navigating p) => some p
  | .authenticationLost p => some p
  | .storeRefresh p | .storeFinally p => some p
  | .bootstrap p | .bootstrapFinally p => some p
  | .navigate _ .starting | .navigate _ (.guarding none) | .navigate _ .finishing => none
  | .navigate _ (.guarding (some p)) => some p
  | .login (.preparing p) | .login (.posting p) | .login (.restoring p) => some p
  | .changePassword (.posting p) | .changePassword (.restoring p) => some p
  | .logout p => some p

/-- What the code awaits at a point. -/
def expects : Task → Kind → Prop
  | .request _ (.refreshing _), k => ∃ pending, k = .refreshFinally pending
  | .request config (.retrying _), k => ∃ i, k = .request config.url (some i)
  | .request _ (.losing _), k => k = .authenticationLost
  | .refresh (.posting _), k => k = .request .refresh none
  | .refresh (.handling _), k => k = .sessionRefreshed
  | .refreshFinally _, k => k = .refresh
  | .sessionRefreshed (.restoring _), k => ∃ pending, k = .storeFinally pending
  | .sessionRefreshed (.failing _), k | .sessionRefreshed (.navigating _), k => k = .navigate
  | .authenticationLost _, k => k = .navigate
  | .storeRefresh _, k | .bootstrap _, k => k = .request .me none
  | .storeFinally _, k => ∃ me, k = .storeRefresh me
  | .bootstrapFinally _, k => ∃ me, k = .bootstrap me
  | .navigate _ (.guarding _), k => ∃ pending, k = .bootstrapFinally pending
  | .login (.preparing _), k => k = .request .csrf none
  | .login (.posting _), k => k = .request .login none
  | .login (.restoring _), k | .changePassword (.restoring _), k =>
      ∃ pending, k = .storeFinally pending
  | .changePassword (.posting _), k => k = .request .passwordChange none
  | .logout _, k => k = .request .logout none
  | .request _ .sent, _ | .navigate _ .starting, _ | .navigate _ .finishing, _ => False

end Task

def code : Code Task Kind := ⟨Task.kind, Task.awaits, Task.expects⟩

abbrev PromiseHeap := Heap Task Settlement

end SuperBoss.Web
