import SuperBoss.Web.Waiting

/-!
What a step does to the calls of a state, seen from both sides: where a call of the
next state comes from, and which calls stay as they are. What the wait cycles need
is established by few kinds of steps.
-/

namespace SuperBoss.Web

open SuperBoss.Core
open SuperBoss.Library
open SuperBoss.Library.Promises
open SuperBoss.Library.Transition

/-- The call that goes on. -/
def Event.actor : Event → Option Nat
  | .call _ => none
  | .respond i _ | .resume i _ => some i

namespace State

/-- Where calls start, those of the bootstrap and of the handlers apart. -/
def Young : Task → Prop
  | .request _ .sent | .refresh (.posting _) | .refreshFinally _ | .storeRefresh _ | .storeFinally _
  | .bootstrap _ | .navigate _ .starting | .login (.preparing _) | .changePassword (.posting _)
  | .logout _ => True
  | _ => False

/-- A request that is no `POST /auth/refresh`, or is in the interceptor already. -/
def Intercepted (s : State) (i : Nat) (config : Config) : Prop :=
  config.url ≠ .refresh ∨ ∃ point, s.At i (.request config point) ∧ point ≠ .sent

/-- The session was refreshed, so the refresh calls the handler. -/
def Restores (s : State) (e : Event) : Prop :=
  ∃ i current post r, e = .resume i current ∧ s.At i (.refresh (.posting post)) ∧
    s.ready (.refresh (.posting post)) = some (.resolved (some r)) ∧ r.status = 204

/-- Where a step may take a call, or start one; `boot` is `bootstrapPromise` after it. -/
inductive Goes (s : State) (e : Event) (boot : Option Nat) : Nat → Task → Prop
  | waiting {i p : Nat} {config : Config} (h : FirstTry s e i) :
      Goes s e boot i (.request config (.refreshing p))
  | retrying {i p q : Nat} {config : Config} (h : s.At i (.request config (.refreshing q))) :
      Goes s e boot i (.request config (.retrying p))
  | losing {i : Nat} {config : Config} {p : Option Nat} (h : s.Intercepted i config) :
      Goes s e boot i (.request config (.losing p))
  | handling {i p : Nat} : Goes s e boot i (.refresh (.handling p))
  | restoring {j : Nat} (h : s.Restores e) :
      Goes s e boot j (.sessionRefreshed (.restoring s.storeRefresh.1))
  | failing {i n : Nat} (h : s.onProtectedRoute = true) : Goes s e boot i (.sessionRefreshed (.failing n))
  | navigating {i n : Nat} (h : s.promises.length ≤ n) :
      Goes s e boot i (.sessionRefreshed (.navigating n))
  | lost {i n : Nat} (h : s.onProtectedRoute = true) : Goes s e boot i (.authenticationLost n)
  | redirecting {i : Nat} {target : Route} : Goes s e boot i (.navigate target .starting)
  | guarding {i : Nat} {target : Route} (hactor : e.actor = some i)
      (hat : s.At i (.navigate target .starting)) (hboot : boot = s.bootstrap.2.bootstrapPromise) :
      Goes s e boot i (.navigate target (.guarding s.bootstrap.1))
  | healthy {i : Nat} : Goes s e boot i (.navigate .health .finishing)
  | finishing {i : Nat} {target : Route} {p : Option Nat}
      (hat : s.At i (.navigate target (.guarding p)))
      (hdone : ∀ b, p = some b → ¬Heap.Pending s.promises b) :
      Goes s e boot i (.navigate target .finishing)
  | bootstrapping (hboot : boot = some (s.promises.length + 2)) :
      Goes s e boot (s.promises.length + 2) (.bootstrapFinally (s.promises.length + 1))
  | login {i : Nat} {point : LoginPoint} : Goes s e boot i (.login point)
  | changing {i : Nat} {point : ChangePoint} : Goes s e boot i (.changePassword point)

/-- A first `bootstrap`. -/
structure Boots (s t : State) : Prop where
  unset : s.bootstrapPromise = none
  fresh : s.isBootstrapped = false
  set : t.bootstrapPromise = some (s.promises.length + 2)
  derived : t.At (s.promises.length + 2) (.bootstrapFinally (s.promises.length + 1))
  pending : t.At (s.promises.length + 1) (.bootstrap s.promises.length)

structure Follows (s : State) (e : Event) (t : State) : Prop where
  grows : Heap.Grows code s.promises t.promises
  origin : ∀ {j task}, t.At j task →
    s.At j task ∨ (s.promises.length ≤ j ∧ Young task) ∨ Goes s e t.bootstrapPromise j task
  kept : ∀ {j task}, s.At j task → t.At j task ∨ e.actor = some j
  booted : s.isBootstrapped = true → t.isBootstrapped = true
  boot : t.bootstrapPromise = s.bootstrapPromise ∨ Boots s t ∨
    (t.bootstrapPromise = none ∧ ∃ b k, e.actor = some b ∧ s.At b (.bootstrapFinally k) ∧
      ¬Heap.Pending s.promises k)
  route : t.currentRoute = s.currentRoute ∨
    ∃ i, s.At i (.navigate t.currentRoute .finishing)

/-- A step that starts young calls only, and keeps the others. -/
structure Adds (s t : State) : Prop where
  grows : Heap.Grows code s.promises t.promises
  longer : s.promises.length ≤ t.promises.length
  born : ∀ {j task}, t.At j task → s.At j task ∨ (s.promises.length ≤ j ∧ Young task)
  kept : ∀ {j task}, s.At j task → t.At j task
  booted : s.isBootstrapped = true → t.isBootstrapped = true
  boot : t.bootstrapPromise = s.bootstrapPromise
  route : t.currentRoute = s.currentRoute

namespace Adds

variable {s t u : State}

theorem refl (s : State) : Adds s s :=
  ⟨.refl _, le_rfl, fun h => .inl h, fun h => h, fun h => h, rfl, rfl⟩

theorem trans (h : Adds s t) (h' : Adds t u) : Adds s u where
  grows := h.grows.trans h'.grows
  longer := h.longer.trans h'.longer
  born hat := by
    rcases h'.born hat with hat | ⟨hj, hyoung⟩
    · exact h.born hat
    · exact .inr ⟨h.longer.trans hj, hyoung⟩
  kept hat := h'.kept (h.kept hat)
  booted hb := h'.booted (h.booted hb)
  boot := h'.boot.trans h.boot
  route := h'.route.trans h.route

theorem at_spawn {i : Nat} {task task' : Task} (hat : s.At i task) : (s.spawn task').2.At i task :=
  Heap.at_spawn_iff.mpr (.inl hat)

theorem length_spawn (s : State) (task : Task) :
    (s.spawn task).2.promises.length = s.promises.length + 1 := by
  simp [State.spawn, Heap.spawn]

theorem spawn (s : State) {task : Task} (h : Young task) : Adds s (s.spawn task).2 where
  grows := Heap.grows_spawn _ _
  longer := by
    rw [length_spawn]
    exact Nat.le_succ _
  born hat := by
    rcases Heap.at_spawn_iff.mp hat with hat | ⟨rfl, rfl⟩
    · exact .inl hat
    · exact .inr ⟨le_rfl, h⟩
  kept := at_spawn
  booted h := h
  boot := rfl
  route := rfl

theorem send (s : State) (url : Url) : Adds s (s.send url).2 := spawn s trivial

theorem replace (s : State) (target : Route) : Adds s (s.replace target).2 := spawn s trivial

/-- Variables that the promises do not depend on. -/
theorem of_promises (h : Adds s t) (hp : u.promises = t.promises)
    (hbooted : t.isBootstrapped = true → u.isBootstrapped = true)
    (hboot : u.bootstrapPromise = t.bootstrapPromise) (hroute : u.currentRoute = t.currentRoute) :
    Adds s u where
  grows := by
    rw [hp]
    exact h.grows
  longer := by
    rw [hp]
    exact h.longer
  born hat := by
    unfold State.At at hat
    rw [hp] at hat
    exact h.born hat
  kept hat := by
    unfold State.At
    rw [hp]
    exact h.kept hat
  booted hb := hbooted (h.booted hb)
  boot := hboot.trans h.boot
  route := hroute.trans h.route

theorem storeRefresh (s : State) : Adds s s.storeRefresh.2 := by
  unfold State.storeRefresh
  split
  · exact .refl s
  · refine of_promises (((spawn s ?_).trans (spawn _ ?_)).trans (spawn _ ?_)) rfl (fun h => h) rfl rfl
    all_goals trivial

theorem refresh (s : State) : Adds s s.refresh.2 := by
  unfold State.refresh
  split
  · exact .refl s
  · refine of_promises (((spawn s ?_).trans (spawn _ ?_)).trans (spawn _ ?_)) rfl (fun h => h) rfl rfl
    all_goals trivial

theorem lost (s : State) : Adds s { s with lostNotified := true }.markAuthenticationLost :=
  (refl s).of_promises rfl (fun _ => rfl) rfl rfl

theorem follows (h : Adds s t) (e : Event) : Follows s e t where
  grows := h.grows
  origin hat := by
    rcases h.born hat with hat | hyoung
    · exact .inl hat
    · exact .inr (.inl hyoung)
  kept hat := .inl (h.kept hat)
  booted := h.booted
  boot := .inl h.boot
  route := .inl h.route

/-- A call that is not young starts after those that are. -/
theorem spawn_goes (h : Adds s t) {e : Event} {task : Task}
    (hgoes : Goes s e t.bootstrapPromise t.promises.length task) : Follows s e (t.spawn task).2 where
  grows := h.grows.trans (Heap.grows_spawn _ _)
  origin hat := by
    rcases Heap.at_spawn_iff.mp hat with hat | ⟨rfl, rfl⟩
    · exact (h.born hat).imp_right .inl
    · exact .inr (.inr hgoes)
  kept hat := .inl (at_spawn (h.kept hat))
  booted := h.booted
  boot := .inl h.boot
  route := .inl h.route

end Adds

namespace Follows

variable {s t : State} {e : Event}

theorem refl (s : State) (e : Event) : Follows s e s := (Adds.refl s).follows e

/-- A promise that was not pending is settled, or the one of the event is. -/
theorem settle (h : Follows s e t) {i : Nat} (hactor : e.actor = some i)
    (hi : i < s.promises.length) (r : Settlement) : Follows s e (t.settle i r) where
  grows := h.grows.trans (Heap.grows_settle _ _ _)
  origin hat := h.origin (Heap.at_settle_iff.mp hat).2
  kept {j task} hat := by
    by_cases hj : j = i
    · exact .inr (hj ▸ hactor)
    · refine (h.kept hat).imp_left fun hat => ?_
      exact Heap.at_settle_iff.mpr ⟨hj, hat⟩
  booted := h.booted
  boot := by
    rcases h.boot with hboot | hboots | hboot
    · exact .inl hboot
    · exact .inr (.inl ⟨hboots.unset, hboots.fresh, hboots.set,
        Heap.at_settle_iff.mpr ⟨by omega, hboots.derived⟩,
        Heap.at_settle_iff.mpr ⟨by omega, hboots.pending⟩⟩)
    · exact .inr (.inr hboot)
  route := h.route

theorem advance (h : Follows s e t) {i : Nat} {task : Task} (hactor : e.actor = some i)
    (hk : s.Is i task.kind) (hgoes : Goes s e t.bootstrapPromise i task) :
    Follows s e (t.advance i task) where
  grows := h.grows.trans (Heap.grows_advance (h.grows _ _ hk))
  origin hat := by
    rcases Heap.at_advance hat with ⟨rfl, rfl, -⟩ | ⟨-, hat⟩
    · exact .inr (.inr hgoes)
    · exact h.origin hat
  kept {j task'} hat := by
    by_cases hj : j = i
    · exact .inr (hj ▸ hactor)
    · refine (h.kept hat).imp_left fun hat => ?_
      exact Heap.At.advance_of_ne hat hj
  booted := h.booted
  boot := by
    rcases h.boot with hboot | hboots | hboot
    · exact .inl hboot
    · have hi := hk.lt_length
      exact .inr (.inl ⟨hboots.unset, hboots.fresh, hboots.set,
        hboots.derived.advance_of_ne (by omega), hboots.pending.advance_of_ne (by omega)⟩)
    · exact .inr (.inr hboot)
  route := h.route

theorem lt_length {i : Nat} {task : Task} (hat : s.At i task) : i < s.promises.length :=
  Heap.Is.lt_length hat.is

theorem notifyLost (s : State) (e : Event) : Follows s e s.notifyLost.2 := by
  unfold State.notifyLost
  split
  · exact refl s e
  · unfold State.lostHandler
    simp only
    split
    · rename_i hroute
      exact ((Adds.lost s).trans (Adds.replace _ .login)).spawn_goes (.lost hroute)
    · exact (Adds.lost s).follows e

theorem lose {i : Nat} {config : Config} {point : RequestPoint}
    (hat : s.At i (.request config point)) (hactor : e.actor = some i)
    (h : s.Intercepted i config) : Follows s e (s.lose i config) :=
  (notifyLost s e).advance hactor hat.is (.losing h)

theorem respond {i : Nat} {config : Config} (hat : s.At i (.request config .sent))
    (answer : Option Response) : Follows s (.respond i answer) (s.respond i config answer) := by
  have hi := lt_length hat
  unfold State.respond
  split
  · exact (refl s _).settle rfl hi _
  · split
    · exact (refl s _).settle rfl hi _
    · split
      · exact (refl s _).settle rfl hi _
      · rename_i hstatus
        obtain ⟨hstatus, hurl⟩ := not_or.mp hstatus
        split
        · exact lose hat rfl (.inl hurl)
        · rename_i r _ _ hfirst
          simp only [Bool.or_eq_true, Bool.not_eq_true', not_or, Bool.not_eq_true,
            Bool.not_eq_false] at hfirst
          exact ((Adds.refresh s).follows _).advance rfl hat.is (.waiting
            ⟨config, r, rfl, hat, not_not.mp hstatus, hfirst.1, hurl, hfirst.2⟩)

theorem resumeRequest {i : Nat} {config : Config} {point : RequestPoint}
    (hat : s.At i (.request config point)) (current : Bool) (r : Settlement) :
    Follows s (.resume i current) (s.resumeRequest i config r point) := by
  have hi := lt_length hat
  cases point with
  | sent => exact refl s _
  | refreshing p =>
      have hin : s.Intercepted i config := .inr ⟨_, hat, nofun⟩
      cases r with
      | resolved response =>
          have hretry : Adds s (s.spawn (.request { config with retryOf := some i } .sent)).2 :=
            .spawn s trivial
          exact (hretry.follows _).advance rfl hat.is (.retrying hat)
      | rejected => exact lose hat rfl hin
  | retrying p =>
      cases r with
      | resolved response => exact (refl s _).settle rfl hi _
      | rejected => exact lose hat rfl (.inr ⟨_, hat, nofun⟩)
  | losing notified => exact (refl s _).settle rfl hi _

theorem resumeRefresh {i : Nat} {point : RefreshPoint} (hat : s.At i (.refresh point))
    (current : Bool) {r : Settlement} (hready : s.ready (.refresh point) = some r) :
    Follows s (.resume i current) (s.resumeRefresh i r point) := by
  have hi := lt_length hat
  cases point with
  | posting post =>
      unfold State.resumeRefresh
      simp only
      split
      · split
        · rename_i response hstatus
          have hrestores : s.Restores (.resume i current) :=
            ⟨i, current, post, response, rfl, hat, hready, hstatus⟩
          have hhandler : Follows s (.resume i current) s.refreshedHandler.2 :=
            (Adds.storeRefresh s).spawn_goes (.restoring hrestores)
          exact hhandler.advance rfl hat.is .handling
        · exact (refl s _).settle rfl hi _
      · exact (refl s _).settle rfl hi _
      · exact (refl s _).settle rfl hi _
  | handling handler =>
      unfold State.resumeRefresh
      simp only
      split
      · have hcleared : Adds s { s with lostNotified := false } :=
          (Adds.refl s).of_promises rfl (fun h => h) rfl rfl
        exact (hcleared.follows _).settle rfl hi _
      · exact (refl s _).settle rfl hi _

theorem resumeHandler {i : Nat} {point : HandlerPoint} (hat : s.At i (.sessionRefreshed point))
    (current : Bool) (r : Settlement) :
    Follows s (.resume i current) (s.resumeHandler i r point) := by
  have hi := lt_length hat
  cases point with
  | restoring restored =>
      unfold State.resumeHandler
      simp only
      split
      · split
        · exact ((Adds.replace s _).follows _).advance rfl hat.is (.failing ‹_›)
        · exact (refl s _).settle rfl hi _
      · split
        · rename_i target _
          exact ((Adds.replace s target).follows _).advance rfl hat.is (.navigating le_rfl)
        · exact (refl s _).settle rfl hi _
  | failing | navigating => exact (refl s _).settle rfl hi _

/-- The calls that `bootstrap` starts. -/
theorem bootstrap (s : State) (e : Event) : Follows s e s.bootstrap.2 := by
  unfold State.bootstrap
  split
  · exact refl s e
  · rename_i hnone
    split
    · exact refl s e
    · rename_i hboot
      have hadds : Adds s ((s.send .me).2.spawn (.bootstrap (s.send .me).1)).2 :=
        (Adds.send s .me).trans (.spawn _ trivial)
      have hlen : ((s.send .me).2.spawn (.bootstrap (s.send .me).1)).2.promises.length =
          s.promises.length + 2 := by
        simp [State.send, State.spawn, Heap.spawn]
      have hpending : ((s.send .me).2.spawn (.bootstrap (s.send .me).1)).1 =
          s.promises.length + 1 := Adds.length_spawn s _
      refine ⟨?_, fun {j task} hat => ?_, fun {j task} hat => ?_, fun h => h, ?_, .inl rfl⟩
      · exact hadds.grows.trans (Heap.grows_spawn _ _)
      · rcases Heap.at_spawn_iff.mp hat with hat | ⟨hj, rfl⟩
        · exact (hadds.born hat).imp_right .inl
        · rw [hj, hlen, hpending]
          exact .inr (.inr (.bootstrapping (congrArg some hlen)))
      · exact .inl (Adds.at_spawn (hadds.kept hat))
      · refine .inr (.inl ⟨hnone, Bool.eq_false_iff.mpr hboot, congrArg some hlen, ?_, ?_⟩)
        · have hat := Heap.at_spawn ((s.send .me).2.spawn (.bootstrap (s.send .me).1)).2.promises
            (.bootstrapFinally (s.promises.length + 1))
          rw [hlen] at hat
          show Heap.At (Heap.spawn ((s.send .me).2.spawn (.bootstrap (s.send .me).1)).2.promises
            (.bootstrapFinally ((s.send .me).2.spawn (.bootstrap (s.send .me).1)).1)) _ _
          rw [hpending]
          exact hat
        · have hat := Heap.at_spawn (s.send .me).2.promises (.bootstrap s.promises.length)
          have hsent : (s.send .me).2.promises.length = s.promises.length + 1 :=
            Adds.length_spawn s _
          rw [hsent] at hat
          exact Adds.at_spawn hat

theorem resumeNavigation {i : Nat} {target : Route} {point : NavigationPoint}
    (hat : s.At i (.navigate target point)) (current : Bool)
    (hready : ∀ p, point = .guarding (some p) → ¬Heap.Pending s.promises p) :
    Follows s (.resume i current) (s.resumeNavigation i current target point) := by
  have hi := lt_length hat
  cases point with
  | starting =>
      unfold State.resumeNavigation
      simp only
      split
      · rename_i heq
        subst heq
        exact (refl s _).advance rfl hat.is .healthy
      · exact (bootstrap s _).advance rfl hat.is (.guarding rfl hat rfl)
  | guarding bootstrapped =>
      unfold State.resumeNavigation
      simp only
      split
      · exact (refl s _).advance rfl hat.is .redirecting
      · exact (refl s _).advance rfl hat.is (.finishing hat fun b hb => hready b (hb ▸ rfl))
  | finishing =>
      have hrouted : Follows s (.resume i current)
          { s with currentRoute := if current then target else s.currentRoute } := by
        refine ⟨.refl _, fun hat => .inl hat, fun hat => .inl hat, fun h => h, .inl rfl, ?_⟩
        cases current with
        | false => exact .inl rfl
        | true => exact .inr ⟨i, hat⟩
      exact hrouted.settle rfl hi _

theorem resumeLogin {i : Nat} {point : LoginPoint} (hat : s.At i (.login point)) (current : Bool)
    (r : Settlement) : Follows s (.resume i current) (s.resumeLogin i r point) := by
  have hi := lt_length hat
  cases point with
  | preparing csrf =>
      unfold State.resumeLogin
      simp only
      split
      · exact ((Adds.send s _).follows _).advance rfl hat.is .login
      · exact (refl s _).settle rfl hi _
  | posting post =>
      unfold State.resumeLogin
      simp only
      split
      · exact ((Adds.storeRefresh s).follows _).advance rfl hat.is .login
      · exact (refl s _).settle rfl hi _
  | restoring restored => exact (refl s _).settle rfl hi _

theorem resumeChange {i : Nat} {point : ChangePoint} (hat : s.At i (.changePassword point))
    (current : Bool) (r : Settlement) :
    Follows s (.resume i current) (s.resumeChange i r point) := by
  have hi := lt_length hat
  cases point with
  | posting post =>
      unfold State.resumeChange
      simp only
      split
      · exact ((Adds.storeRefresh s).follows _).advance rfl hat.is .changing
      · exact (refl s _).settle rfl hi _
  | restoring restored => exact (refl s _).settle rfl hi _

/-- A promise that is settled is not pending. -/
theorem not_pending_of_ready {p : Nat} {task : Task} {r : Settlement}
    (hready : s.ready task = some r) (hp : task.awaits = some p) : ¬Heap.Pending s.promises p := by
  rintro ⟨task', hat⟩
  have hget : s.promises[p]? = some ⟨task', none⟩ := hat
  unfold State.ready at hready
  split at hready
  · cases hready
  · rw [hp] at hready
    simp only [hget] at hready
    cases hready

theorem resume {i : Nat} {task : Task} (hat : s.At i task) (current : Bool) {r : Settlement}
    (hready : s.ready task = some r) : Follows s (.resume i current) (s.resume i current r task) := by
  have hi := lt_length hat
  have hvars : ∀ u : State, u.promises = s.promises →
      (s.isBootstrapped = true → u.isBootstrapped = true) →
      u.bootstrapPromise = s.bootstrapPromise → u.currentRoute = s.currentRoute →
      ∀ r', Follows s (.resume i current) (u.settle i r') := by
    intro u hp hbooted hboot hroute r'
    exact (((Adds.refl s).of_promises hp hbooted hboot hroute).follows _).settle rfl hi r'
  cases task with
  | request config point => exact resumeRequest hat current r
  | refresh point => exact resumeRefresh hat current hready
  | refreshFinally pending =>
      unfold State.resume
      simp only
      split
      · exact hvars { s with refreshPromise := none } rfl (fun h => h) rfl rfl r
      · exact (refl s _).settle rfl hi r
  | sessionRefreshed point => exact resumeHandler hat current r
  | authenticationLost navigation => exact (refl s _).settle rfl hi r
  | storeRefresh me => exact hvars (s.setUser _) rfl (fun _ => rfl) rfl rfl _
  | storeFinally pending => exact hvars { s with storePromise := none } rfl (fun h => h) rfl rfl r
  | bootstrap me => exact hvars (s.setUser _) rfl (fun _ => rfl) rfl rfl _
  | bootstrapFinally pending =>
      have hcleared : Follows s (.resume i current) { s with bootstrapPromise := none } :=
        ⟨.refl _, fun hat => .inl hat, fun hat => .inl hat, fun h => h,
          .inr (.inr ⟨rfl, i, pending, rfl, hat, not_pending_of_ready hready rfl⟩), .inl rfl⟩
      exact hcleared.settle rfl hi r
  | navigate target point =>
      refine resumeNavigation hat current fun p hp => ?_
      subst hp
      exact not_pending_of_ready hready rfl
  | login point => exact resumeLogin hat current r
  | changePassword point => exact resumeChange hat current r
  | logout post => exact hvars s.markAuthenticationLost rfl (fun _ => rfl) rfl rfl _

theorem call {c : Call} (h : s.call c = some t) : Follows s e t := by
  cases c with
  | request url =>
      simp only [State.call] at h
      split at h
      · cases h
      · cases h
        exact (Adds.send s url).follows e
  | login | changePassword | logout =>
      cases h
      refine ((Adds.send s _).trans (Adds.spawn _ ?_)).follows e
      trivial
  | navigate target =>
      cases h
      exact (Adds.replace s target).follows e

theorem next (h : Web.next s e = some t) : Follows s e t := by
  obtain ⟨c, -, hcall⟩ | ⟨i, config, answer, rfl, hat, rfl⟩ |
    ⟨i, current, task, r, rfl, hat, hready, rfl⟩ := step_cases h
  · exact call hcall
  · exact respond hat answer
  · exact resume hat current hready

end Follows

end State

end SuperBoss.Web
