import SuperBoss.Auth.Isolation
import SuperBoss.Core.Platform
import SuperBoss.Core.Tokens

/-!
What a response says about sessions, and what is committed when it is sent:
`refresh` and `logout` leave their commit to the end of the dependency.
-/

namespace SuperBoss.Auth

open SuperBoss.Core
open SuperBoss.Library
open SuperBoss.Library.Transactions
open SuperBoss.Library.Transition

/-- The statement of a request whose response comes before the commit that it
stands for: a refresh that issues a session, or a logout that revokes a session
which is still live. -/
def Postpones (db : Db) (r : Request) : Prop :=
  match r.stage, r.call with
  | .insert _ _, .refresh _ => True
  | .revokeRecords _ (x :: _) _, _ => ¬Revoked db x.id
  | _, _ => False

instance (db : Db) (r : Request) : Decidable (Postpones db r) := by
  unfold Postpones
  split <;> infer_instance

def Prompt (db : Db) (r : Request) : Prop := ¬Postpones db r

instance : ∀ db r, Decidable (Prompt db r) := fun _ _ => inferInstanceAs (Decidable (¬_))

/-- What a request without postponed statements knows besides. -/
def Told (db : Db) : Stage → Prop
  | .revokeRecords _ _ w => ∀ id ∈ w.sessions.map Prod.fst, Revoked db id
  | .respond reply (some _) => Durable db reply
  | _ => True

section told

variable {C : Context} {w : Writes} {db db' : Db} {stage : Stage} {a : Answer}

theorem Told.written (hw : Written w db db') (h : Told db stage) : Told db' stage := by
  cases stage with
  | revokeRecords now records v => exact fun id hid => hw.stays_revoked (h id hid)
  | respond reply pending =>
      cases pending with
      | none => trivial
      | some v => exact hw.durable h
  | start | user | session | authenticate | change | owner | accessSession | scan | revoke | insert
  | deny | commit | finish | done | failed | aborted => trivial

theorem Goes.told {n : Next} (h : Goes n) : Told (n.2.db db) n.1 := by
  cases h with
  | raise failure => trivial
  | goto hahead =>
      rename_i stage
      cases stage with
      | revokeRecords now records w =>
          obtain rfl : w = .none := hahead
          intro id hid
          cases hid
      | respond reply pending => exact hahead.elim
      | start | user | session | authenticate | change | owner | accessSession | scan | revoke
      | insert | deny | commit | finish | done | failed | aborted => trivial

theorem told_commit {fate : Files.Fate} {next : Stage} (h : ∀ db', Told db' next) :
    Told ((commit db fate w next).2.db db) (commit db fate w next).1 := by
  rcases commit_cases db fate w next with ⟨db', hw, heq | heq⟩ | heq
  · rw [heq]
    exact h db'
  · rw [heq]
    trivial
  · rw [heq]
    trivial

theorem told_statement {fate : Files.Fate} (h : Told db stage) :
    Told ((statement fate (goto stage)).2.db db) (statement fate (goto stage)).1 := by
  unfold statement
  split
  · exact h
  · trivial

theorem told_step {r : Request} {n : Next} (hprompt : Prompt db r) (htold : Told db r.stage)
    (h : r.step C a db = some n) : Told (n.2.db db) n.1 := by
  obtain ⟨call, stage⟩ := r
  cases stage with
  | start | user | session | authenticate | change | owner | accessSession | scan | revoke =>
      refine (goes_of_open ?_ h).told
      trivial
  | revokeRecords now records w =>
      cases records with
      | nil =>
          cases h
          exact ⟨fun id hid => (by cases hid), htold⟩
      | cons x rest =>
          cases h
          have hrevoked : Revoked db x.id := Classical.not_not.mp hprompt
          refine told_statement fun id hid => ?_
          rcases Writes.mem_revoke.mp (show id ∈ (w.revoke x.id now).sessions.map Prod.fst from hid) with
            hid | rfl
          · exact htold id hid
          · exact hrevoked
  | insert user w =>
      cases h
      split
      · trivial
      · refine told_statement ?_
        cases call with
        | refresh token => exact absurd trivial hprompt
        | login | changePassword | logout | updateStaff | resetStaffPassword
        | resetOwnerPassword => trivial
  | deny w failure =>
      cases h
      exact told_commit fun db' => trivial
  | commit w reply =>
      cases h
      exact told_commit fun db' => trivial
  | respond reply pending =>
      cases h
      cases pending <;> trivial
  | finish w reply =>
      cases h
      split <;> trivial
  | done | failed | aborted => cases h

theorem told_outline : Program.Outline ((program C).restrict Prompt) (fun _ => True)
    fun c db => Ok c db ∧ Told db c.pc.stage where
  start hI hinit := by
    rename_i r db
    obtain ⟨call, stage⟩ := r
    obtain rfl : stage = .start := of_decide_eq_true hinit
    exact ⟨trivial, trivial⟩
  abort hok := by
    rename_i c db
    refine ⟨(outline (C := C)).abort hok.1, ?_⟩
    obtain ⟨⟨call, stage⟩, locks⟩ := c
    cases stage <;> trivial
  own hI hok hstep := by
    obtain ⟨hprompt, hstep⟩ := Program.restrict_step.mp hstep
    refine ⟨trivial, (outline.own trivial hok.1 hstep).2, ?_⟩
    obtain ⟨hr, hstep⟩ := program_step hstep
    exact told_step hprompt hok.2 hstep
  other hI hown hok hstep hfree := by
    rename_i a c d db r e
    obtain ⟨-, hstep⟩ := Program.restrict_step.mp hstep
    refine ⟨outline.other trivial hown.1 hok.1 hstep hfree, ?_⟩
    obtain ⟨-, hstep⟩ := program_step hstep
    cases e with
    | proceed | release => exact hok.2
    | commit db' =>
        obtain ⟨w, -, hwrite⟩ := staged_of_commit hstep
        exact hok.2.written (Db.written hwrite)

end told

/-- In a run in which no refresh issues a session and no logout revokes a live
one, every success response that is being sent stands for committed rows. -/
theorem disclosed_durable (C : Context) {db : Db} {es : List AuthEvent} {s : AuthState} {i : Nat}
    {c : Client Request Row} {reply : Reply} {pending : Option Writes}
    (hrun : run (next C) (State.init db) es = some s)
    (hes : (program C).Observes Prompt (State.init db) es) (hc : s.clients[i]? = some c)
    (hstage : c.pc.stage = .respond reply pending) : Durable s.db reply := by
  obtain ⟨hok, htold⟩ := (told_outline.of_run hrun hes trivial).2 i c hc
  unfold Ok at hok
  rw [hstage] at hok htold
  cases pending with
  | none => exact hok
  | some w => exact htold

namespace Sample

/-- Argon2id without the mixing: the salt and the password. -/
def hasher : Hasher where
  hash salt raw := salt :: raw
  verify encoded raw := decide (encoded.tail = raw)
  needsRehash _ := false

/-- SHA-256 on the two refresh tokens of the samples. -/
def sha256 (b : Bytes) : Text :=
  if b.length = 5 then
    Text.ofString "a7937b64b8caa58f03721bb6bacf5c78cb235febe0e70b1b84cd99541461a08e"
  else Text.ofString "16367aacb67a4a017c8da8ab95682ccb390863780f7114dda0a0e0c55644c7c4"

theorem spelled : 1 < (Text.ofString "1970-01-01").length := by decide

def context : Context where
  platform := asciiPlatform sha256 (fun _ => 0) 0 (Text.ofString "1970-01-01") spelled
  hasher
  jwt := plainJwt
  settings := ⟨Text.ofString "secret"⟩

def username : Text := Text.ofString "owner"

def password : Text := Text.ofString "correct horse"

def user : User where
  id := 1
  username
  displayName := username
  passwordHash := hasher.hash 7 password
  mustChangePassword := false
  passwordChangedAt := 0
  failedLoginCount := 0
  lockedUntil := none
  role := .owner
  status := .active
  lastLoginAt := none

def db : Db where
  users := (Table.insert? ∅ user).getD ∅
  sessions := ∅

def answer : Answer where
  fate := .ok
  now := 10
  salt := 8
  sessionId := 20
  jti := 30
  refreshToken := Text.ofString "first"
  temporaryPassword := Text.ofString "temporary password"

/-- Four statements and a commit. -/
def login : List AuthEvent :=
  .start ⟨.login username password, .start⟩ :: List.replicate 4 (.act 0 answer)

def rotated : Answer :=
  { answer with now := 11, sessionId := 21, jti := 31, refreshToken := Text.ofString "second" }

/-- A refresh up to its response. -/
def refresh : List AuthEvent :=
  .start ⟨.refresh answer.refreshToken, .start⟩ :: List.replicate 4 (.act 1 rotated)

/-- The end of a refresh whose commit fails. -/
def failingCommit : List AuthEvent := [.act 1 rotated, .act 1 { rotated with fate := .error }]

/-- A reply that is sent before the commit of its work. -/
def early : Stage → Option Reply
  | .respond reply (some _) => some reply
  | _ => none

def sent : Stage → Option Reply
  | .done reply => some reply
  | _ => none

theorem early_spec {stage : Stage} {reply : Reply} (h : early stage = some reply) :
    ∃ w, stage = .respond reply (some w) := by
  unfold early at h
  split at h
  · cases h
    exact ⟨_, rfl⟩
  · cases h

theorem sent_spec {stage : Stage} {reply : Reply} (h : sent stage = some reply) :
    stage = .done reply := by
  unfold sent at h
  split at h
  · cases h
    rfl
  · cases h

end Sample

/-- The sample login is durable when its response is sent. -/
theorem disclosed_durable_login : ∃ s c reply,
    run (next Sample.context) (State.init Sample.db) Sample.login = some s ∧
      s.clients[0]? = some c ∧ c.pc.stage = .respond reply none ∧ reply.issued = some 20 ∧
      Durable s.db reply := by
  have hrun : ((run ((program Sample.context).restrict Prompt).apply (State.init Sample.db)
      Sample.login).bind fun s => (s.clients[0]?).map fun c =>
        match c.pc.stage with
        | .respond reply none => decide (reply.issued = some 20)
        | _ => false) = some true := by
    decide +kernel
  obtain ⟨s, hs, hclient⟩ := Option.bind_eq_some_iff.mp hrun
  obtain ⟨c, hc, hstage⟩ := Option.map_eq_some_iff.mp hclient
  split at hstage
  · rename_i reply heq
    exact ⟨s, c, reply, Program.run_of_restrict hs, hc, heq, of_decide_eq_true hstage,
      disclosed_durable _ (Program.run_of_restrict hs) (Program.observes_of_restrict hs) hc heq⟩
  · cases hstage

/-- A refresh answers with a session that is not there; after the response its
commit may still fail, and then it never will be. -/
theorem refresh_disclosed_early : ∃ s t c d reply w,
    run (next Sample.context) (State.init Sample.db) (Sample.login ++ Sample.refresh) = some s ∧
      s.clients[1]? = some c ∧ c.pc.stage = .respond reply (some w) ∧ ¬Durable s.db reply ∧
      run (next Sample.context) s Sample.failingCommit = some t ∧
      t.clients[1]? = some d ∧ d.pc.stage = .done reply ∧ ¬Durable t.db reply := by
  have hrun : ((run (next Sample.context) (State.init Sample.db)
      (Sample.login ++ Sample.refresh)).bind fun s => (s.clients[1]?).bind fun c =>
        (run (next Sample.context) s Sample.failingCommit).bind fun t =>
          (t.clients[1]?).bind fun d =>
            (Sample.early c.pc.stage).bind fun reply => (Sample.sent d.pc.stage).map fun reply' =>
              decide (reply' = reply ∧ reply.issued = some 21 ∧ s.db.sessions.get? 21 = none ∧
                t.db.sessions.get? 21 = none)) = some true := by
    decide +kernel
  obtain ⟨s, hs, hrun⟩ := Option.bind_eq_some_iff.mp hrun
  obtain ⟨c, hc, hrun⟩ := Option.bind_eq_some_iff.mp hrun
  obtain ⟨t, ht, hrun⟩ := Option.bind_eq_some_iff.mp hrun
  obtain ⟨d, hd, hrun⟩ := Option.bind_eq_some_iff.mp hrun
  obtain ⟨reply, hearly, hrun⟩ := Option.bind_eq_some_iff.mp hrun
  obtain ⟨reply', hsent, hstages⟩ := Option.map_eq_some_iff.mp hrun
  obtain ⟨rfl, hissued, hbefore, hafter⟩ := of_decide_eq_true hstages
  obtain ⟨w, hrespond⟩ := Sample.early_spec hearly
  refine ⟨s, t, c, d, reply', w, hs, hc, hrespond, fun h => ?_, ht, hd, Sample.sent_spec hsent,
    fun h => ?_⟩
  · have hthere := h.issued 21 hissued
    rw [hbefore] at hthere
    cases hthere
  · have hthere := h.issued 21 hissued
    rw [hafter] at hthere
    cases hthere

end SuperBoss.Auth
