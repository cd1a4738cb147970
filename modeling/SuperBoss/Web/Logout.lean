import SuperBoss.Web.SingleFlight

/-!
The user of the auth store after a logout, or after the client has lost the session.
`bootstrap` and `refresh` assign what `GET /auth/me` answered whenever it arrives.
-/

namespace SuperBoss.Web

open SuperBoss.Core
open SuperBoss.Library
open SuperBoss.Library.Promises
open SuperBoss.Library.Transition

namespace State

/-! ### What a step does to the user -/

/-- A step that assigns no user but none, and none where the session gets lost. -/
structure Keeps (s t : State) : Prop where
  user : t.user = s.user ∨ t.user = none
  lost : t.lostNotified = true → s.lostNotified = true ∨ t.user = none

namespace Keeps

variable {s t u : State}

theorem of_eq (hu : t.user = s.user) (hl : t.lostNotified = s.lostNotified) : Keeps s t :=
  ⟨.inl hu, fun h => .inl (hl ▸ h)⟩

theorem refl (s : State) : Keeps s s := of_eq rfl rfl

theorem trans (h : Keeps s t) (h' : Keeps t u) : Keeps s u where
  user := by
    rcases h'.user with hu | hu
    · rw [hu]
      exact h.user
    · exact .inr hu
  lost hl := by
    rcases h'.lost hl with ht | hu
    · rcases h.lost ht with hs | hnone
      · exact .inl hs
      · rcases h'.user with hu | hu
        · exact .inr (hu.trans hnone)
        · exact .inr hu
    · exact .inr hu

theorem settle (h : Keeps s t) (i : Nat) (r : Settlement) : Keeps s (t.settle i r) :=
  h.trans (of_eq rfl rfl)

theorem advance (h : Keeps s t) (i : Nat) (task : Task) : Keeps s (t.advance i task) :=
  h.trans (of_eq rfl rfl)

theorem bootstrap (s : State) : Keeps s s.bootstrap.2 := by
  unfold State.bootstrap
  split
  · exact refl s
  · split
    · exact refl s
    · exact of_eq rfl rfl

theorem storeRefresh (s : State) : Keeps s s.storeRefresh.2 := by
  unfold State.storeRefresh
  split
  · exact refl s
  · exact of_eq rfl rfl

theorem refresh (s : State) : Keeps s s.refresh.2 := by
  unfold State.refresh
  split
  · exact refl s
  · exact of_eq rfl rfl

theorem refreshedHandler (s : State) : Keeps s s.refreshedHandler.2 :=
  (storeRefresh s).trans (of_eq rfl rfl)

theorem notifyLost (s : State) : Keeps s s.notifyLost.2 := by
  unfold State.notifyLost
  split
  · exact refl s
  · unfold lostHandler
    dsimp only
    split
    · exact ⟨.inr rfl, fun _ => .inr rfl⟩
    · exact ⟨.inr rfl, fun _ => .inr rfl⟩

theorem lose (s : State) (i : Nat) (config : Config) : Keeps s (s.lose i config) :=
  (notifyLost s).advance i _

theorem respond (s : State) (i : Nat) (config : Config) (answer : Option Response) :
    Keeps s (s.respond i config answer) := by
  unfold State.respond
  split
  · exact (refl s).settle i _
  · split
    · exact (refl s).settle i _
    · split
      · exact (refl s).settle i _
      · split
        · exact lose s i config
        · exact (refresh s).advance i _

theorem resumeRequest (s : State) (i : Nat) (config : Config) (r : Settlement)
    (point : RequestPoint) : Keeps s (s.resumeRequest i config r point) := by
  cases point with
  | sent => exact refl s
  | refreshing p =>
      cases r with
      | resolved response => exact of_eq rfl rfl
      | rejected => exact lose s i config
  | retrying p =>
      cases r with
      | resolved response => exact (refl s).settle i _
      | rejected => exact lose s i config
  | losing p => exact (refl s).settle i _

theorem resumeRefresh (s : State) (i : Nat) (r : Settlement) (point : RefreshPoint) :
    Keeps s (s.resumeRefresh i r point) := by
  cases point with
  | posting post =>
      dsimp only [State.resumeRefresh]
      split
      · split
        · exact (refreshedHandler s).advance i _
        · exact (refl s).settle i _
      · exact (refl s).settle i _
      · exact (refl s).settle i _
  | handling handler =>
      cases r with
      | resolved response => exact ⟨.inl rfl, nofun⟩
      | rejected => exact (refl s).settle i _

theorem resumeHandler (s : State) (i : Nat) (r : Settlement) (point : HandlerPoint) :
    Keeps s (s.resumeHandler i r point) := by
  cases point with
  | restoring restored =>
      dsimp only [State.resumeHandler]
      split
      · split
        · exact of_eq rfl rfl
        · exact (refl s).settle i _
      · split
        · exact of_eq rfl rfl
        · exact (refl s).settle i _
  | failing navigation => exact (refl s).settle i _
  | navigating navigation => exact (refl s).settle i _

theorem resumeNavigation (s : State) (i : Nat) (current : Bool) (target : Route)
    (point : NavigationPoint) : Keeps s (s.resumeNavigation i current target point) := by
  cases point with
  | starting =>
      dsimp only [State.resumeNavigation]
      split
      · exact (refl s).advance i _
      · exact (bootstrap s).advance i _
  | guarding bootstrapped =>
      dsimp only [State.resumeNavigation]
      split
      · exact (refl s).advance i _
      · exact (refl s).advance i _
  | finishing => exact of_eq rfl rfl

theorem resumeLogin (s : State) (i : Nat) (r : Settlement) (point : LoginPoint) :
    Keeps s (s.resumeLogin i r point) := by
  cases point with
  | preparing csrf =>
      dsimp only [State.resumeLogin]
      split
      · exact of_eq rfl rfl
      · exact (refl s).settle i _
  | posting post =>
      dsimp only [State.resumeLogin]
      split
      · exact (storeRefresh s).advance i _
      · exact (refl s).settle i _
  | restoring restored => exact (refl s).settle i _

theorem resumeChange (s : State) (i : Nat) (r : Settlement) (point : ChangePoint) :
    Keeps s (s.resumeChange i r point) := by
  cases point with
  | posting post =>
      dsimp only [State.resumeChange]
      split
      · exact (storeRefresh s).advance i _
      · exact (refl s).settle i _
  | restoring restored => exact (refl s).settle i _

theorem call {c : Call} (h : s.call c = some t) : Keeps s t := by
  cases c with
  | request url =>
      dsimp only [State.call] at h
      split at h
      · cases h
      · cases h
        exact of_eq rfl rfl
  | login | changePassword | logout | navigate =>
      cases h
      exact of_eq rfl rfl

end Keeps

/-- The calls that assign the answer of `GET /auth/me` to the user. -/
def Reads : Task → Bool
  | .storeRefresh _ | .bootstrap _ => true
  | _ => false

theorem resume_keeps (s : State) (i : Nat) (current : Bool) (r : Settlement) {task : Task}
    (h : Reads task = false) : Keeps s (s.resume i current r task) := by
  cases task with
  | storeRefresh m | bootstrap m => cases h
  | request config point => exact Keeps.resumeRequest s i config r point
  | refresh point => exact Keeps.resumeRefresh s i r point
  | sessionRefreshed point => exact Keeps.resumeHandler s i r point
  | navigate target point => exact Keeps.resumeNavigation s i current target point
  | login point => exact Keeps.resumeLogin s i r point
  | changePassword point => exact Keeps.resumeChange s i r point
  | refreshFinally | storeFinally | bootstrapFinally | authenticationLost => exact .of_eq rfl rfl
  | logout post => exact ⟨.inr rfl, fun hl => .inl hl⟩

theorem user_of_reads (s : State) (i : Nat) (current : Bool) (r : Settlement) {task : Task}
    (h : Reads task = true) : (s.resume i current r task).user = me r ∧
      (s.resume i current r task).lostNotified = s.lostNotified := by
  cases task with
  | storeRefresh m | bootstrap m => exact ⟨rfl, rfl⟩
  | request | refresh | refreshFinally | sessionRefreshed | authenticationLost | storeFinally
  | bootstrapFinally | navigate | login | changePassword | logout => cases h

/-! ### Losing and renewing the session -/

/-- The event ends a logout. -/
def logsOut (s : State) : Event → Bool
  | .resume i _ =>
      match s.promises[i]? with
      | some ⟨.logout _, none⟩ => true
      | _ => false
  | .call _ | .respond _ _ => false

/-- The step calls `markAuthenticationLost`: it ends a logout, or it is the one
that has the client set `lostNotified` and call its handler. -/
def loses (s : State) (e : Event) (t : State) : Bool :=
  s.logsOut e || (!s.lostNotified && t.lostNotified)

/-- The login or password change that goes on with the event after the server has
accepted it. -/
def accepts (s : State) : Event → Option Nat
  | .resume i _ =>
      match s.promises[i]? with
      | some ⟨.login (.posting p), none⟩ =>
          if (s.ready (.login (.posting p))).any noContent then some i else none
      | some ⟨.changePassword (.posting p), none⟩ =>
          if (s.ready (.changePassword (.posting p))).any noContent then some i else none
      | _ => none
  | .call _ | .respond _ _ => none

/-- The user that the event assigns from an answer of `GET /auth/me`. -/
def reads (s : State) : Event → Option AuthUser
  | .resume i _ =>
      match s.promises[i]? with
      | some ⟨task, none⟩ => if Reads task then (s.ready task).bind me else none
      | _ => none
  | .call _ | .respond _ _ => none

/-- Every step assigns what it reads, or keeps the user, or sets it to null. -/
theorem user_of_next {s t : State} {e : Event} (h : next s e = some t) :
    (s.reads e = none ∧ Keeps s t) ∨ ∃ i current task r, e = .resume i current ∧ s.At i task ∧
      Reads task = true ∧ s.reads e = me r ∧ t.user = me r ∧ t.lostNotified = s.lostNotified := by
  rcases step_cases h with ⟨c, rfl, hcall⟩ | ⟨i, config, answer, rfl, hat, rfl⟩ |
    ⟨i, current, task, r, rfl, hat, hready, rfl⟩
  · exact .inl ⟨rfl, .call hcall⟩
  · exact .inl ⟨rfl, .respond s i config answer⟩
  · have hget : s.promises[i]? = some ⟨task, none⟩ := hat
    cases hreads : Reads task with
    | false =>
        refine .inl ⟨?_, resume_keeps s i current r hreads⟩
        simp [reads, hget, hreads]
    | true =>
        obtain ⟨huser, hlost⟩ := user_of_reads s i current r hreads
        refine .inr ⟨i, current, task, r, rfl, hat, hreads, ?_, huser, hlost⟩
        simp [reads, hget, hreads, hready]

/-- A logout ends with no user. -/
theorem user_of_logsOut {s t : State} {e : Event} (h : next s e = some t)
    (hlogout : s.logsOut e = true) : t.user = none := by
  unfold logsOut at hlogout
  split at hlogout
  · split at hlogout
    · rename_i i current _ post hget
      simp only [next, hget] at h
      obtain ⟨r, -, rfl⟩ := Option.map_eq_some_iff.mp h
      rfl
    · cases hlogout
  · cases hlogout
  · cases hlogout

theorem user_of_loses {s t : State} {e : Event} (h : next s e = some t)
    (hloses : s.loses e t = true) : t.user = none := by
  rcases (Bool.or_eq_true _ _).mp hloses with hlogout | hnotified
  · exact user_of_logsOut h hlogout
  · obtain ⟨hs, ht⟩ := Bool.and_eq_true_iff.mp hnotified
    rw [Bool.not_eq_true'] at hs
    rcases user_of_next h with ⟨-, hkeeps⟩ | ⟨-, -, -, -, -, -, -, -, -, hlost⟩
    · rcases hkeeps.lost ht with hlost | hnone
      · rw [hs] at hlost
        cases hlost
      · exact hnone
    · rw [hlost, hs] at ht
      cases ht

/-- An event that assigns a user neither loses nor renews the session. -/
theorem quiet_of_reads {s t : State} {e : Event} {u : AuthUser} (h : next s e = some t)
    (hreads : s.reads e = some u) :
    t.user = some u ∧ s.loses e t = false ∧ s.accepts e = none := by
  rcases user_of_next h with ⟨hnone, -⟩ | ⟨i, current, task, r, rfl, hat, htask, hme, huser, hlost⟩
  · rw [hnone] at hreads
    cases hreads
  · have hget : s.promises[i]? = some ⟨task, none⟩ := hat
    refine ⟨huser.trans (hme.symm.trans hreads), ?_, ?_⟩
    · cases task with
      | storeRefresh m | bootstrap m => simp [loses, logsOut, hget, hlost]
      | request | refresh | refreshFinally | sessionRefreshed | authenticationLost | storeFinally
      | bootstrapFinally | navigate | login | changePassword | logout => cases htask
    · cases task with
      | storeRefresh m | bootstrap m => simp [accepts, hget]
      | request | refresh | refreshFinally | sessionRefreshed | authenticationLost | storeFinally
      | bootstrapFinally | navigate | login | changePassword | logout => cases htask

end State

/-- A state with the number of calls there had been when the session was lost, until
a login or password change that was started later has been accepted. -/
structure Session where
  state : State
  lost : Option Nat

namespace Session

def init : Session := ⟨.init, none⟩

/-- A login or password change that was started after the loss is accepted. -/
def renews (s : Session) (e : Event) : Bool :=
  (s.state.accepts e).any fun i => s.lost.any fun n => n ≤ i

def next (s : Session) (e : Event) : Option Session :=
  (Web.next s.state e).map fun t =>
    ⟨t, if s.state.loses e t then some t.promises.length else if s.renews e then none else s.lost⟩

/-- While the session is lost, there is no user. -/
def LoggedOut (s : Session) : Prop := s.lost ≠ none → s.state.user = none

/-- A user read by an older `bootstrap` or `refresh` comes back to a lost session. -/
def Revives (s : Session) (e : Event) : Prop := s.lost ≠ none ∧ s.state.reads e ≠ none

theorem loggedOut_iff {s t : Session} {e : Event} (hs : s.LoggedOut) (h : s.next e = some t) :
    t.LoggedOut ↔ ¬s.Revives e := by
  obtain ⟨t, hnext, rfl⟩ := Option.map_eq_some_iff.mp h
  constructor
  · rintro ht ⟨hlost, hreads⟩
    obtain ⟨u, hu⟩ := Option.ne_none_iff_exists'.mp hreads
    obtain ⟨huser, hloses, haccepts⟩ := State.quiet_of_reads hnext hu
    have hnone : t.user = none := by
      refine ht ?_
      simpa [hloses, renews, haccepts] using hlost
    rw [huser] at hnone
    cases hnone
  · intro hrevives hlost
    cases hloses : s.state.loses e t with
    | true => exact State.user_of_loses hnext hloses
    | false =>
        have hbefore : s.lost ≠ none := by
          dsimp only at hlost
          rw [hloses, if_neg Bool.false_ne_true] at hlost
          split at hlost
          · exact absurd rfl hlost
          · exact hlost
        have hreads : s.state.reads e = none :=
          not_not.mp fun hreads => hrevives ⟨hbefore, hreads⟩
        rcases State.user_of_next hnext with ⟨-, hkeeps⟩ | ⟨-, -, -, r, -, -, -, hme, huser, -⟩
        · rcases hkeeps.user with hsame | hnone
          · exact hsame.trans (hs hbefore)
          · exact hnone
        · exact huser.trans (hme.symm.trans hreads)

end Session

namespace Sample

/-- A login. -/
def loggingIn : List Event :=
  [.call .login, .respond 0 refreshed, .resume 1 true, .respond 2 refreshed, .resume 1 true,
    .respond 3 known, .resume 4 true, .resume 5 true, .resume 1 true]

/-- A logout while the session is being refreshed: `GET /auth/me` is under way. -/
def loggingOut : List Event := loggingIn ++
  [.call (.request page), .respond 6 expired, .respond 7 refreshed, .resume 8 true,
    .call .logout, .respond 14 refreshed, .resume 15 true]

end Sample

end SuperBoss.Web
