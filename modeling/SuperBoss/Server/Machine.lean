import SuperBoss.Server.Store
import SuperBoss.Infrastructure.Clamav

/-!
The shape of a request's code: program counters between the points where other
requests can act, and for each of them the action that follows.
-/

namespace SuperBoss.Server

open SuperBoss.Core
open SuperBoss.Files
open SuperBoss.Imports

/-- What the outside world contributes to one action. Each action uses the
parts it needs. -/
structure Answer where
  /-- The end of the statement, the commit or the external call of the action. -/
  fate : Fate
  /-- Whether the `HEAD` after a finished multipart upload succeeds. -/
  head : Bool
  now : Instant
  uuid : UUID
  attachmentIds : List UUID
  auditId : UUID
  multipartId : Text
  /-- What the parts of a finished multipart upload add up to. -/
  content : Bytes
  /-- The pieces in which the body of an object is read. -/
  chunks : List Bytes
  /-- The bytes clamd sends back. -/
  received : Bytes
  /-- The awaits of a scan that succeed. -/
  patience : Option Nat
  /-- The broker delivers the received message again. -/
  redelivered : Bool
  deriving DecidableEq

/-- Where a request or task is. `crashed` is a process that died or a task
that was cancelled. -/
inductive Progress (Pc Result : Type)
  | running (pc : Pc)
  | returned (result : Result)
  | raised (failure : Failure)
  | crashed
  deriving DecidableEq

namespace Progress

variable {Pc Pc' Result : Type}

def map (f : Pc → Pc') : Progress Pc Result → Progress Pc' Result
  | running pc => running (f pc)
  | returned r => returned r
  | raised e => raised e
  | crashed => crashed

def crash : Progress Pc Result → Progress Pc Result
  | running _ => crashed
  | p => p

def isRunning : Progress Pc Result → Bool
  | running _ => true
  | _ => false

end Progress

/-- The end of an action: where the request is then, and what it wrote. -/
structure Outcome (Pc Result : Type) where
  progress : Progress Pc Result
  write : Write

namespace Outcome

variable {Pc Pc' Result Result' : Type}

def goto (pc : Pc) : Outcome Pc Result := ⟨.running pc, .nothing⟩
def done (r : Result) : Outcome Pc Result := ⟨.returned r, .nothing⟩
def fail (e : Failure) : Outcome Pc Result := ⟨.raised e, .nothing⟩
def reject (e : DomainError) : Outcome Pc Result := fail (.domain e)

/-- A statement that only reads. -/
def read (fate : Fate) (next : Outcome Pc Result) : Outcome Pc Result :=
  if fate = .ok then next else fail .unexpected

/-- Commit a write. A violated constraint, a lost connection and a lost
acknowledgement all raise; after the last of them the write is done. -/
def commit (s : Store) (fate : Fate) (w : Write) (next : Progress Pc Result) :
    Outcome Pc Result :=
  match s.write? w, fate with
  | some _, .ok => ⟨next, w⟩
  | some _, .lost => ⟨.raised .unexpected, w⟩
  | _, _ => fail .unexpected

/-- An external call whose failures are swallowed. -/
def attempt (fate : Fate) (w : Write) (next : Progress Pc Result) : Outcome Pc Result :=
  ⟨next, if fate.applied then w else .nothing⟩

def map (f : Pc → Pc') (o : Outcome Pc Result) : Outcome Pc' Result :=
  ⟨o.progress.map f, o.write⟩

/-- The cases of a commit: it took place, with or without the caller learning
it, or it did not. -/
theorem commit_cases (s : Store) (fate : Fate) (w : Write) (next : Progress Pc Result) :
    (∃ s', s.write? w = some s') ∧
        (commit s fate w next = ⟨next, w⟩ ∨ commit s fate w next = ⟨.raised .unexpected, w⟩) ∨
      commit s fate w next = fail .unexpected := by
  unfold commit
  cases hw : s.write? w with
  | none => exact .inr rfl
  | some s' =>
      cases fate with
      | ok => exact .inl ⟨⟨s', rfl⟩, .inl rfl⟩
      | lost => exact .inl ⟨⟨s', rfl⟩, .inr rfl⟩
      | error => exact .inr rfl

theorem read_cases (fate : Fate) (next : Outcome Pc Result) :
    read fate next = next ∨ read fate next = fail .unexpected := by
  unfold read
  split
  · exact .inl rfl
  · exact .inr rfl

theorem running_read {fate : Fate} {o : Outcome Pc Result} {pc : Pc}
    (h : (read fate o).progress = .running pc) : o.progress = .running pc := by
  rcases read_cases fate o with heq | heq
  · rwa [heq] at h
  · rw [heq] at h
    cases h

theorem returned_read {fate : Fate} {o : Outcome Pc Result} {r : Result}
    (h : (read fate o).progress = .returned r) : o.progress = .returned r := by
  rcases read_cases fate o with heq | heq
  · rwa [heq] at h
  · rw [heq] at h
    cases h

/-- A request that goes on after a commit has committed. -/
theorem running_commit {s : Store} {fate : Fate} {w : Write} {next : Progress Pc Result} {pc : Pc}
    (h : (commit s fate w next).progress = .running pc) :
    next = .running pc ∧ (∃ s', s.write? w = some s') ∧ (commit s fate w next).write = w := by
  rcases commit_cases s fate w next with ⟨hvalid, heq | heq⟩ | heq
  · rw [heq] at h ⊢
    exact ⟨h, hvalid, rfl⟩
  · rw [heq] at h
    cases h
  · rw [heq] at h
    cases h

theorem write_read {fate : Fate} {o : Outcome Pc Result} {w : Write} (hw : w ≠ .nothing)
    (h : (read fate o).write = w) : o.write = w := by
  rcases read_cases fate o with heq | heq
  · rwa [heq] at h
  · rw [heq] at h
    exact absurd h.symm hw

theorem write_commit {s : Store} {fate : Fate} {w w' : Write} {next : Progress Pc Result} (hw : w ≠ .nothing)
    (h : (commit s fate w' next).write = w) : w' = w := by
  rcases commit_cases s fate w' next with ⟨-, heq | heq⟩ | heq
  · rwa [heq] at h
  · rwa [heq] at h
  · rw [heq] at h
    exact absurd h.symm hw

theorem write_attempt {fate : Fate} {w w' : Write} {next : Progress Pc Result} (hw : w ≠ .nothing)
    (h : (attempt fate w' next).write = w) : w' = w := by
  unfold attempt at h
  split at h
  · exact h
  · exact absurd h.symm hw

end Outcome

/-- The row that `AuditService.record` inserts for a denied operation. -/
def denialRow (actor : Actor) (action objectType : String) (objectId projectId : Option UUID)
    (requestId : Option UUID) (metadata : List (Text × Json)) (auditId : UUID) : AuditLog :=
  { id := auditId
    actorKind := actor.kind
    actorId := some actor.subjectId
    action
    objectType
    objectId
    projectId
    outcome := "DENIED"
    metadata := .obj (metadata ++
      [Json.field "actor_role" (Json.ofOption (fun r => .str (Text.ofString r.value)) actor.role)])
    requestId
    eventKey := none }

/-- Record a denial in a transaction of its own, then raise it. -/
def denyWith {Pc Result : Type} (s : Store) (a : Answer) (row : AuditLog) (error : DomainError) :
    Outcome Pc Result :=
  .commit s a.fate (.record row) (.raised (.domain error))

end SuperBoss.Server
