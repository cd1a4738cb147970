import SuperBoss.Auth.Service
import SuperBoss.Devices.Service

/-!
The requests of the OWNER that create staff, projects and memberships, as
transactions over the whole database of the application.
-/

namespace SuperBoss.Users

open SuperBoss.Core
open SuperBoss.Library
open SuperBoss.Library.Transactions
open SuperBoss.Auth (User UserTable SessionTable hashPassword ownerRequired ownerProtected userNotFound)
open SuperBoss.Devices (Project ProjectTable PairingTable DeviceTable)
open SuperBoss.Files (Fate)

/-- `project_members`. -/
structure ProjectMember where
  projectId : UUID
  userId : UUID
  deriving DecidableEq

structure Db where
  users : UserTable
  sessions : SessionTable
  projects : ProjectTable
  members : List ProjectMember
  pairings : PairingTable
  devices : DeviceTable

/-- Rows, and the entries of the index of usernames. -/
inductive Row
  | user (id : UUID)
  | session (id : UUID)
  | project (id : UUID)
  | pairing (id : UUID)
  | device (id : UUID)
  | username (username : Text)
  deriving DecidableEq

inductive Call
  | createStaff (actor : Actor) (username displayName : Text) (projectIds : List UUID)
  | replaceProjects (actor : Actor) (userId : UUID) (projectIds : List UUID)
  | createProject (actor : Actor)
  deriving DecidableEq

inductive Reply
  | credential (userId : UUID) (temporaryPassword : Text)
  | replaced (userId : UUID)
  | project (id : UUID)
  deriving DecidableEq

/-- What a transaction has flushed. -/
structure Writes where
  user : Option User
  members : Option (UUID × List UUID)
  project : Option Project
  deriving DecidableEq

def Writes.none : Writes := ⟨.none, .none, .none⟩

inductive Stage
  | start
  /-- `SELECT … FROM users … FOR UPDATE`. -/
  | user
  /-- `SELECT … FROM projects … FOR UPDATE`: its snapshot, then row by row. -/
  | projects
  | lockProjects (ids found : List UUID)
  | insertUser
  | insertMembers (userId : UUID) (w : Writes) (reply : Reply)
  | insertProject
  | commit (w : Writes) (reply : Reply)
  | done (reply : Reply)
  | failed (failure : Failure)
  | aborted
  deriving DecidableEq

structure Request where
  call : Call
  stage : Stage
  deriving DecidableEq

structure Answer where
  fate : Fate
  now : Instant
  salt : Nat
  id : UUID
  temporaryPassword : Text
  /-- `uq_projects_name_ci` objects. -/
  nameTaken : Bool
  deriving DecidableEq

namespace Db

def insertUser (db : Db) : Option User → Option Db
  | none => some db
  | some u => (db.users.insert? u).map fun users => { db with users }

def insertProject (db : Db) : Option Project → Option Db
  | none => some db
  | some p => (db.projects.insert? p).map fun projects => { db with projects }

/-- `_replace_project_memberships`; `none` when a constraint objects. -/
def replaceMembers (db : Db) : Option (UUID × List UUID) → Option Db
  | none => some db
  | some (userId, projectIds) =>
      if (db.users.get? userId).isSome ∧ projectIds.Nodup ∧
          ∀ id ∈ projectIds, (db.projects.get? id).isSome then
        some { db with
          members := (db.members.filter fun m => decide (m.userId ≠ userId)) ++
            projectIds.map fun id => ⟨id, userId⟩ }
      else none

/-- Make the writes of a transaction visible; `none` when a constraint objects. -/
def write? (db : Db) (w : Writes) : Option Db :=
  ((db.insertUser w.user).bind fun db => db.insertProject w.project).bind fun db =>
    db.replaceMembers w.members

end Db

/-! ### Errors -/

def projectNotFound : DomainError := notFoundError "PROJECT_NOT_FOUND" "Project not found"

def usernameConflict : DomainError := conflictError "USERNAME_CONFLICT" "Username already exists"

def projectNameConflict : DomainError :=
  conflictError "PROJECT_NAME_CONFLICT" "A project with this name already exists"

def projectCreateForbidden : DomainError :=
  forbiddenError "PROJECT_CREATE_FORBIDDEN" "You cannot create projects"

/-! ### Statements -/

abbrev Next := Stage × Effect Db

def raise (failure : Failure) : Next := (.failed failure, .release)

def reject (error : DomainError) : Next := raise (.domain error)

/-- A statement of a transaction that goes on, or fails and is rolled back. -/
def statement (fate : Fate) (next : Next) : Next :=
  if fate = .ok then next else raise .unexpected

def goto (stage : Stage) : Next := (stage, .proceed)

variable (C : Auth.Context)

/-- `_require_owner`. -/
def isOwner (actor : Actor) : Bool := actor.kind == .user && actor.role == some .owner

/-- The STAFF user that `create_staff` adds. -/
def newStaff (username displayName hash : Text) (a : Answer) : User where
  id := a.id
  username
  displayName
  passwordHash := hash
  mustChangePassword := true
  passwordChangedAt := a.now
  failedLoginCount := 0
  lockedUntil := none
  role := .staff
  status := .active
  lastLoginAt := none

namespace Call

def projectIds : Call → List UUID
  | .createStaff _ _ _ projectIds | .replaceProjects _ _ projectIds => projectIds
  | .createProject _ => []

end Call

namespace Request

/-- After the locks of the projects. -/
def projectsLocked (found : List UUID) (call : Call) : Next :=
  if found.length ≠ call.projectIds.length then reject projectNotFound
  else
    match call with
    | .createStaff _ _ _ _ => goto .insertUser
    | .replaceProjects _ userId _ => goto (.insertMembers userId .none (.replaced userId))
    | .createProject _ => raise .unexpected

/-- `_projects_for_update`: there is no statement for an empty list. -/
def lockProjects (call : Call) : Next :=
  if call.projectIds = [] then projectsLocked [] call else goto .projects

def startStep (call : Call) : Next :=
  match call with
  | .createStaff actor _ _ _ => if isOwner actor then lockProjects call else reject ownerRequired
  | .replaceProjects actor _ _ => if isOwner actor then goto .user else reject ownerRequired
  | .createProject actor =>
      if isOwner actor then goto .insertProject else reject projectCreateForbidden

/-- `_staff_for_update`, after its lock. -/
def userStep (user : Option User) (call : Call) : Next :=
  match user with
  | none => reject userNotFound
  | some user => if user.role = .owner then reject ownerProtected else lockProjects call

def insertStep (a : Answer) (db : Db) : Call → Next
  | .createStaff _ username displayName _ =>
      match hashPassword C a.salt a.temporaryPassword with
      | none => raise .unexpected
      | some hash =>
          let user := newStaff username displayName hash a
          match db.users.insert? user with
          | none => reject usernameConflict
          | some _ =>
              goto (.insertMembers user.id { Writes.none with user := some user }
                (.credential user.id a.temporaryPassword))
  | .replaceProjects _ _ _ | .createProject _ => raise .unexpected

def step (a : Answer) (db : Db) (r : Request) : Option Next :=
  match r.stage with
  | .start => some (startStep r.call)
  | .user =>
      match r.call with
      | .replaceProjects _ userId _ =>
          some (statement a.fate (userStep (db.users.get? userId) r.call))
      | _ => none
  | .projects => some <| statement a.fate <|
      let ids := ((db.projects.rows.filter fun p => decide (p.id ∈ r.call.projectIds)).map
        (·.id)).insertionSort fun x y => x ≤ y
      goto (.lockProjects ids [])
  | .lockProjects ids found => some <| statement a.fate <|
      match ids with
      | [] => projectsLocked found r.call
      | id :: rest =>
          goto (.lockProjects rest (found ++ ((db.projects.get? id).map (·.id)).toList))
  | .insertUser => some (statement a.fate (insertStep C a db r.call))
  | .insertMembers userId w reply => some <| statement a.fate <|
      goto (.commit { w with members := some (userId, r.call.projectIds) } reply)
  | .insertProject => some <| statement a.fate <|
      if a.nameTaken then reject projectNameConflict
      else goto (.commit { Writes.none with project := some ⟨a.id, .active⟩ } (.project a.id))
  | .commit w reply => some <|
      match db.write? w, a.fate with
      | some db', .ok => (.done reply, .commit db')
      | some db', .lost => (.failed .unexpected, .commit db')
      | _, _ => raise .unexpected
  | .done _ | .failed _ | .aborted => none

/-- Locks that the next statement takes. A username waits for its entry in the index. -/
def needs (r : Request) : List (Lock Row) :=
  match r.stage, r.call with
  | .user, .replaceProjects _ userId _ => [.exclusive (.user userId)]
  | .lockProjects (id :: _) _, _ => [.exclusive (.project id)]
  | .insertUser, .createStaff _ username _ _ => [.exclusive (.username username)]
  | _, _ => []

/-- A process that stops, or the victim of a deadlock. -/
def abort (r : Request) : Request :=
  match r.stage with
  | .done _ | .failed _ => r
  | _ => { r with stage := .aborted }

end Request

def program : Program Db Request Answer Row where
  initial r := decide (r.stage = .start)
  needs := Request.needs
  step a db r := (r.step C a db).map fun n => ({ r with stage := n.1 }, n.2)
  abort := Request.abort

end SuperBoss.Users
