import SuperBoss.Auth.Disclosure

/-!
What a committed password change, reset or disablement leaves of the sessions of
its user. `change_password` checks the row that the session loaded before it
waited for the lock, so a change that was overtaken still uses the old password.
-/

namespace SuperBoss.Auth

open SuperBoss.Core
open SuperBoss.Library
open SuperBoss.Library.Transactions
open SuperBoss.Library.Transition

variable (C : Context)

/-- A password change of user `u` that waits for the lock of the user with a row
on which its checks pass. -/
def Overtakes (u : UUID) (r : Request) : Prop :=
  match r.stage, r.call with
  | .change loaded, .changePassword _ current new =>
      loaded.id = u ∧ changeAccepted C current new loaded = true ∧ validatePassword new = true
  | _, _ => False

def overtakes (u : UUID) (r : Request) : Bool :=
  match r.stage, r.call with
  | .change loaded, .changePassword _ current new =>
      decide (loaded.id = u) && changeAccepted C current new loaded && validatePassword new
  | _, _ => false

theorem overtakes_iff (u : UUID) (r : Request) : overtakes C u r = true ↔ Overtakes C u r := by
  unfold overtakes Overtakes
  split
  · simp only [Bool.and_eq_true, decide_eq_true_eq, and_assoc]
  · exact iff_of_false Bool.false_ne_true id

instance (u : UUID) (r : Request) : Decidable (Overtakes C u r) :=
  decidable_of_iff _ (overtakes_iff C u r)

/-- The request has used a credential of user `u`: its checks of a password or of
a refresh token have passed, or will pass on the row that it has read. -/
def Used (u : UUID) (r : Request) : Prop :=
  match r.stage with
  | .change _ => Overtakes C u r
  | .owner x _ => x.userId = some u
  | .scan user _ _ _ | .revoke user _ _ _ _ | .insert user _ => user.id = u
  | .commit w _ | .finish w _ | .respond _ (some w) => ∃ x, w.insert = some x ∧ x.userId = some u
  | _ => False

theorem used_of_overtakes {u : UUID} {r : Request} (h : Overtakes C u r) : Used C u r := by
  obtain ⟨call, stage⟩ := r
  cases stage with
  | change loaded => exact h
  | start | user | session | authenticate | owner | accessSession | revokeRecords | scan | revoke
  | insert | deny | commit | respond | finish | done | failed | aborted => exact h.elim

/-- The commit of a request that revokes the sessions of user `u`. -/
structure Revokes (s : AuthState) (i : Nat) (a : Answer) (t : AuthState) (u : UUID)
    (call : Call) (w : Writes) : Prop where
  step : next C s (.act i a) = some t
  client : ∃ c reply, s.clients[i]? = some c ∧ c.pc = ⟨call, .commit w reply⟩
  revoking : call.Revoking
  user : w.user.map Prod.fst = some u
  fate : a.fate.applied = true
  write : (s.db.write? w).isSome

/-- The session row was created after state `t` by a request that had not used a
credential of user `u` by then. -/
def CreatedAfresh (t : AuthState) (fs : List AuthEvent) (u : UUID) (y : AuthSession) : Prop :=
  ∃ fs₁ j b fs₂ t₁ d v, fs = fs₁ ++ .act j b :: fs₂ ∧ run (next C) t fs₁ = some t₁ ∧
    t₁.clients[j]? = some d ∧ d.pc.staged = some v ∧ v.insert = some y ∧
    ∀ d₀, t.clients[j]? = some d₀ → ¬Used C u d₀.pc

/-- A revocation that has led to state `t` is complete: only the session that it
issued itself is live, and whatever is live later and was created otherwise comes
from requests that used a credential after it. -/
structure Complete (t : AuthState) (u : UUID) (call : Call) (insert : Option AuthSession) :
    Prop where
  issued : call.Leaves u insert
  stored : ∀ x ∈ insert, t.db.sessions.get? x.id = some x
  live : ∀ id y, t.db.sessions.get? id = some y → y.LiveOf u → insert = some y
  later : ∀ fs t', run (next C) t fs = some t' → ∀ id y, t'.db.sessions.get? id = some y →
    y.LiveOf u → insert = some y ∨ CreatedAfresh C t fs u y

section revocation

variable {C} {db : Db} {s t : AuthState} {i : Nat} {a : Answer} {u : UUID} {call : Call}
  {w : Writes}

theorem commit_stage (db : Db) (w : Writes) (fate : Files.Fate) (next : Stage) :
    (commit db fate w next).1 = next ∨ ∃ failure, (commit db fate w next).1 = .failed failure := by
  rcases commit_cases db fate w next with ⟨db', -, heq | heq⟩ | heq
  · exact .inl (congrArg Prod.fst heq)
  · exact .inr ⟨_, congrArg Prod.fst heq⟩
  · exact .inr ⟨_, congrArg Prod.fst heq⟩

theorem commit_effect {fate : Files.Fate} {next : Stage} (hfate : fate.applied = true)
    {db' : Db} (hw : db.write? w = some db') : (commit db fate w next).2 = .commit db' := by
  unfold commit
  rw [hw]
  cases fate with
  | ok | lost => rfl
  | error => cases hfate

/-- The database changes only by a commit of what a request has staged. -/
theorem written_of_step {e : AuthEvent} (h : next C s e = some t) :
    t.db = s.db ∨ ∃ j b d v, e = .act j b ∧ s.clients[j]? = some d ∧ d.pc.staged = some v ∧
      s.db.write? v = some t.db := by
  cases Program.step_of_apply h with
  | start | abort => exact .inl rfl
  | act hget hfree hstep =>
      rename_i j b d r e
      obtain ⟨-, hstep⟩ := program_step hstep
      cases e with
      | proceed | release => exact .inl rfl
      | commit db' =>
          obtain ⟨v, hv, hwrite⟩ := staged_of_commit hstep
          exact .inr ⟨j, b, d, v, rfl, hget, hv, hwrite⟩

/-- Nobody who holds what it takes to issue a session of the user can be in the
middle of it when the revocation commits. -/
theorem not_used {c d : Client Request Row} {j : Nat} (hcompat : Program.Compatible s.clients)
    (hc : s.clients[i]? = some c) (hd : s.clients[j]? = some d) (hne : i ≠ j)
    (hholds : w.Holds c.locks u) (hcovers : Covers s.db u [] w) (hlocked : w.Locked c.locks)
    (hok : Ok d s.db) (hover : ¬Overtakes C u d.pc) : ¬Used C u d.pc := by
  intro hused
  have hfree := hcompat i j c d hc hd hne
  have huser : ∀ m, ⟨.user u, m⟩ ∉ d.locks := fun m hm =>
    hfree _ hholds.lock _ hm (Lock.exclusive_conflicts _ m)
  have hrotates : ∀ v : Writes, v.Locked d.locks → ¬Rotates s.db (some u) v := by
    rintro v hv ⟨id, x, hid, hx, hx', hlive⟩
    rcases hcovers id x hx ⟨hx', hlive⟩ with hmem | hmem
    · cases hmem
    · exact hfree _ (hlocked.sessions id hmem) _ (hv.sessions id hid)
        (Lock.exclusive_conflicts _ _)
  have hinsert : ∀ v : Writes, v.Locked d.locks → ∀ x, v.insert = some x → x.userId ≠ some u := by
    intro v hv x hx hx'
    obtain ⟨m, hm⟩ := hv.insert x hx u hx'
    exact huser m hm
  obtain ⟨⟨call', stage⟩, locks⟩ := d
  cases stage with
  | change loaded => exact hover hused
  | owner x v =>
      have hx : x.userId = some u := hused
      exact hrotates v hok.1.locked (hx ▸ hok.2.2.1)
  | scan user now v reply =>
      obtain rfl : user.id = u := hused
      exact huser _ hok.1.lock
  | revoke user now ids v reply =>
      obtain rfl : user.id = u := hused
      exact huser _ hok.1.lock
  | insert user v =>
      obtain rfl : user.id = u := hused
      rcases hok.2.2.source with hsource | hsource
      · exact hrotates v hok.1.locked hsource
      · exact huser _ hsource.lock
  | commit v reply =>
      obtain ⟨x, hx, hx'⟩ := hused
      exact hinsert v hok.1.locked x hx hx'
  | finish v reply =>
      obtain ⟨x, hx, hx'⟩ := hused
      exact hinsert v hok x hx hx'
  | respond reply pending =>
      cases pending with
      | none => exact hused
      | some v =>
          obtain ⟨x, hx, hx'⟩ := hused
          exact hinsert v hok x hx hx'
  | start | user | session | authenticate | accessSession | revokeRecords | deny | done | failed
  | aborted => exact hused

theorem CreatedAfresh.append {fs : List AuthEvent} {y : AuthSession}
    (h : CreatedAfresh C t fs u y) (e : AuthEvent) : CreatedAfresh C t (fs ++ [e]) u y := by
  obtain ⟨fs₁, j, b, fs₂, t₁, d, v, rfl, h⟩ := h
  exact ⟨fs₁, j, b, fs₂ ++ [e], t₁, d, v, by simp, h⟩

theorem later_of_spent {insert : Option AuthSession} {t' : AuthState} {fs : List AuthEvent}
    (hspent : ∀ (j : Nat) d, t.clients[j]? = some d → ¬Used C u d.pc)
    (hlive : ∀ id y, t.db.sessions.get? id = some y → y.LiveOf u → insert = some y)
    (hrun : run (next C) t fs = some t') : ∀ id y, t'.db.sessions.get? id = some y →
      y.LiveOf u → insert = some y ∨ CreatedAfresh C t fs u y := by
  refine run_induction (I := fun fs t' => ∀ id y, t'.db.sessions.get? id = some y →
    y.LiveOf u → insert = some y ∨ CreatedAfresh C t fs u y)
    (fun id y hy hyu => .inl (hlive id y hy hyu)) ?_ hrun
  intro fs t₁ e t₂ hrun ih hstep id y hy hyu
  rcases written_of_step hstep with hdb | ⟨j, b, d, v, rfl, hd, hv, hwrite⟩
  · rw [hdb] at hy
    exact (ih id y hy hyu).imp_right fun h => h.append e
  · rcases (Db.written hwrite).live hy hyu with hinsert | ⟨hold, -⟩
    · exact .inr ⟨fs, j, b, [], t₁, d, v, rfl, hrun, hd, hv, hinsert, hspent j⟩
    · exact (ih id y hold hyu).imp_right fun h => h.append _

end revocation

/-- A password change, a reset or a disablement that commits while no other
password change of the user waits with the old row is complete. -/
theorem revocation_complete (C : Context) {db : Db} {es : List AuthEvent} {s t : AuthState}
    {i : Nat} {a : Answer} {u : UUID} {call : Call} {w : Writes}
    (hrun : run (next C) (State.init db) es = some s) (h : Revokes C s i a t u call w)
    (hover : ∀ d ∈ s.clients.eraseIdx i, ¬Overtakes C u d.pc) : Complete C t u call w.insert := by
  obtain ⟨c, reply, hc, hpc⟩ := h.client
  have hreach : Reachable (next C) (State.init db) s := ⟨es, hrun⟩
  have hok := ok_of_reachable hreach hc
  obtain ⟨⟨call', stage⟩, locks⟩ := c
  cases hpc
  obtain ⟨hstaged, hcommit⟩ := hok
  obtain ⟨u', hholds, hcovers, hleaves⟩ := hcommit.covers h.revoking
  obtain rfl : u' = u := Option.some.inj (hholds.user.symm.trans h.user)
  have hwritten : Written w s.db t.db := by
    obtain ⟨db', hw⟩ := Option.isSome_iff_exists.mp h.write
    cases Program.step_of_apply h.step with
    | act hget hfree hstep =>
        obtain rfl := Option.some.inj (hc.symm.trans hget)
        obtain ⟨-, hstep⟩ := program_step hstep
        obtain rfl := (congrArg Prod.snd (Option.some.inj hstep)).symm.trans
          (commit_effect h.fate hw)
        exact Db.written hw
  have hlive : ∀ id y, t.db.sessions.get? id = some y → y.LiveOf u' → w.insert = some y := by
    intro id y hy hyu
    rcases hwritten.live hy hyu with hinsert | ⟨hold, huntouched⟩
    · exact hinsert
    · rcases hcovers id y hold hyu with hmem | hmem
      · cases hmem
      · exact absurd hmem huntouched
  have hspent : ∀ (j : Nat) d, t.clients[j]? = some d → ¬Used C u' d.pc := by
    intro j d hd
    cases Program.step_of_apply h.step with
    | act hget hfree hstep =>
        obtain rfl := Option.some.inj (hc.symm.trans hget)
        rcases Interleaving.getElem?_set_cases hd with ⟨rfl, rfl⟩ | ⟨hne, hd⟩
        · rename_i pc e
          obtain ⟨-, hstep⟩ := program_step hstep
          have hstage : pc.stage = _ := (congrArg Prod.fst (Option.some.inj hstep)).symm
          unfold Used
          rw [hstage]
          rcases commit_stage s.db w a.fate (.respond reply none) with heq | ⟨failure, heq⟩
          · rw [heq]
            exact id
          · rw [heq]
            exact id
        · exact not_used (Program.compatible_of_reachable hreach) hc hd (Ne.symm hne) hholds hcovers
            hstaged.locked (ok_of_reachable hreach hd)
            (hover d (List.mem_eraseIdx_iff_getElem?.mpr ⟨j, hne, hd⟩))
  exact ⟨hleaves, hwritten.inserted, hlive, fun fs t' => later_of_spent hspent hlive⟩

namespace Sample

def newPassword : Text := Text.ofString "another horse"

def resetPassword : Text := Text.ofString "a third horse"

/-- The access token of the sample login. -/
def accessToken : Text :=
  ((issueAccessToken plainJwt context.settings 1 Role.owner.value 20 30 10).map Prod.fst).getD []

/-- A password change up to the lock of the user. -/
def change : List AuthEvent :=
  .start ⟨.changePassword (some accessToken) password newPassword, .start⟩ ::
    List.replicate 2 (.act 1 rotated)

/-- The rest of it, up to its commit. -/
def changed : List AuthEvent := List.replicate 5 (.act 1 rotated)

/-- A reset of the owner, up to its commit. -/
def reset : List AuthEvent :=
  .start ⟨.resetOwnerPassword resetPassword, .start⟩ :: List.replicate 5 (.act 2 answer)

end Sample

/-- After the sample login, a password change leaves only the session it issues. -/
theorem revocation_complete_change : ∃ s t w,
    run (next Sample.context) (State.init Sample.db)
        (Sample.login ++ Sample.change ++ Sample.changed) = some s ∧
      Revokes Sample.context s 1 Sample.rotated t 1
        (.changePassword (some Sample.accessToken) Sample.password Sample.newPassword) w ∧
      Complete Sample.context t 1
        (.changePassword (some Sample.accessToken) Sample.password Sample.newPassword) w.insert := by
  have hrun : ((run (next Sample.context) (State.init Sample.db)
      (Sample.login ++ Sample.change ++ Sample.changed)).bind fun s => (s.clients[1]?).bind fun c =>
        (next Sample.context s (.act 1 Sample.rotated)).map fun _ =>
          match c.pc.stage with
          | .commit w _ => decide (c.pc.call =
              .changePassword (some Sample.accessToken) Sample.password Sample.newPassword ∧
              w.user.map Prod.fst = some 1 ∧ (s.db.write? w).isSome ∧
              ∀ d ∈ s.clients.eraseIdx 1, ¬Overtakes Sample.context 1 d.pc)
          | _ => false) = some true := by
    decide +kernel
  obtain ⟨s, hs, hrun⟩ := Option.bind_eq_some_iff.mp hrun
  obtain ⟨c, hc, hrun⟩ := Option.bind_eq_some_iff.mp hrun
  obtain ⟨t, ht, hstage⟩ := Option.map_eq_some_iff.mp hrun
  split at hstage
  · rename_i w reply hcommit
    obtain ⟨hcall, huser, hwrite, hover⟩ := of_decide_eq_true hstage
    have hrevokes : Revokes Sample.context s 1 Sample.rotated t 1
        (.changePassword (some Sample.accessToken) Sample.password Sample.newPassword) w :=
      ⟨ht, ⟨c, reply, hc, by rw [← hcall, ← hcommit]⟩, trivial, huser, rfl, hwrite⟩
    exact ⟨s, t, w, hs, hrevokes, revocation_complete _ hs hrevokes hover⟩
  · cases hstage

/-- A reset commits while a password change waits for its lock with the old row;
the change then issues a session that stays live. -/
theorem reset_overtaken : ∃ s t w,
    run (next Sample.context) (State.init Sample.db)
        (Sample.login ++ Sample.change ++ Sample.reset) = some s ∧
      Revokes Sample.context s 2 Sample.answer t 1
        (.resetOwnerPassword Sample.resetPassword) w ∧
      (∃ t' y, run (next Sample.context) t Sample.changed = some t' ∧
        t'.db.sessions.get? 21 = some y ∧ y.LiveOf 1) ∧
      ¬Complete Sample.context t 1 (.resetOwnerPassword Sample.resetPassword) w.insert := by
  have hrun : ((run (next Sample.context) (State.init Sample.db)
      (Sample.login ++ Sample.change ++ Sample.reset)).bind fun s => (s.clients[2]?).bind fun c =>
        (next Sample.context s (.act 2 Sample.answer)).bind fun t => (t.clients[1]?).bind fun d =>
          (run (next Sample.context) t Sample.changed).bind fun t' =>
            (t'.db.sessions.get? 21).map fun y =>
              match c.pc.stage with
              | .commit w _ => decide (c.pc.call = .resetOwnerPassword Sample.resetPassword ∧
                  w.user.map Prod.fst = some 1 ∧ w.insert = none ∧ (s.db.write? w).isSome ∧
                  Overtakes Sample.context 1 d.pc ∧ y.LiveOf 1)
              | _ => false) = some true := by
    decide +kernel
  obtain ⟨s, hs, hrun⟩ := Option.bind_eq_some_iff.mp hrun
  obtain ⟨c, hc, hrun⟩ := Option.bind_eq_some_iff.mp hrun
  obtain ⟨t, ht, hrun⟩ := Option.bind_eq_some_iff.mp hrun
  obtain ⟨d, hd, hrun⟩ := Option.bind_eq_some_iff.mp hrun
  obtain ⟨t', ht', hrun⟩ := Option.bind_eq_some_iff.mp hrun
  obtain ⟨y, hy, hstage⟩ := Option.map_eq_some_iff.mp hrun
  split at hstage
  · rename_i w reply hcommit
    obtain ⟨hcall, huser, hinsert, hwrite, hover, hlive⟩ := of_decide_eq_true hstage
    refine ⟨s, t, w, hs, ⟨ht, ⟨c, reply, hc, by rw [← hcall, ← hcommit]⟩, trivial, huser, rfl,
      hwrite⟩, ⟨t', y, ht', hy, hlive⟩, fun hcomplete => ?_⟩
    rcases hcomplete.later _ t' ht' 21 y hy hlive with hissued | hafresh
    · rw [hinsert] at hissued
      cases hissued
    · obtain ⟨fs₁, j, b, fs₂, t₁, d₁, v, heq, -, -, -, -, hfresh⟩ := hafresh
      have hmem : .act j b ∈ Sample.changed := by
        rw [heq]
        exact List.mem_append_right _ List.mem_cons_self
      cases (List.mem_replicate.mp hmem).2
      exact hfresh d hd (used_of_overtakes _ hover)
  · cases hstage

end SuperBoss.Auth
