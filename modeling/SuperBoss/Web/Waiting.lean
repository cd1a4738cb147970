import SuperBoss.Web.SingleFlight

/-!
Who waits for whom. A call waits for calls of fixed kinds, so the only ways round
are that the `GET /auth/me` of a restored session waits for the refresh that waits
for it, and that the one of the bootstrap waits for the refresh whose handler
navigates.
-/

namespace SuperBoss.Web

open SuperBoss.Core
open SuperBoss.Library
open SuperBoss.Library.Promises
open SuperBoss.Library.Transition

namespace State

/-! ### Calls wait for calls of the expected kind -/

structure Typed (s : State) : Prop where
  heap : Heap.Typed code s.promises
  refreshPromise : ∀ p, s.refreshPromise = some p → ∃ k, s.Is p (.refreshFinally k)
  storePromise : ∀ p, s.storePromise = some p → ∃ k, s.Is p (.storeFinally k)
  bootstrapPromise : ∀ p, s.bootstrapPromise = some p → ∃ k, s.Is p (.bootstrapFinally k)

/-- The awaited promise is there, and of the expected kind. -/
def Suits (s : State) (task : Task) : Prop := Heap.Suits code s.promises task

namespace Typed

variable {s t : State}

theorem suits {p : Nat} {task : Task} {k : Kind} (hp : task.awaits = some p) (hk : s.Is p k)
    (hexpects : task.expects k) : s.Suits task := by
  intro q hq
  obtain rfl : p = q := Option.some.inj (hp.symm.trans hq)
  exact ⟨k, hk, hexpects⟩

theorem vars (hs : Typed s) (hg : Heap.Grows code s.promises t.promises)
    (hheap : Heap.Typed code t.promises)
    (hr : ∀ p, t.refreshPromise = some p → s.refreshPromise = some p)
    (hst : ∀ p, t.storePromise = some p → s.storePromise = some p)
    (hb : ∀ p, t.bootstrapPromise = some p → s.bootstrapPromise = some p) : Typed t where
  heap := hheap
  refreshPromise p hp := by
    obtain ⟨k, hk⟩ := hs.refreshPromise p (hr p hp)
    exact ⟨k, hg _ _ hk⟩
  storePromise p hp := by
    obtain ⟨k, hk⟩ := hs.storePromise p (hst p hp)
    exact ⟨k, hg _ _ hk⟩
  bootstrapPromise p hp := by
    obtain ⟨k, hk⟩ := hs.bootstrapPromise p (hb p hp)
    exact ⟨k, hg _ _ hk⟩

theorem spawn (hs : Typed s) {task : Task} (h : s.Suits task) : Typed (s.spawn task).2 :=
  hs.vars (Heap.grows_spawn _ _) (hs.heap.spawn h) (fun _ h => h) (fun _ h => h) fun _ h => h

theorem send (hs : Typed s) (url : Url) : Typed (s.send url).2 :=
  hs.spawn (Heap.suits_of_none rfl)

theorem settle (hs : Typed s) (i : Nat) (r : Settlement) : Typed (s.settle i r) :=
  hs.vars (Heap.grows_settle _ _ _) (hs.heap.settle i r) (fun _ h => h) (fun _ h => h) fun _ h => h

theorem advance (hs : Typed s) {i : Nat} {task : Task} (hk : s.Is i task.kind)
    (h : s.Suits task) : Typed (s.advance i task) :=
  hs.vars (Heap.grows_advance hk) (hs.heap.advance hk h) (fun _ h => h) (fun _ h => h)
    fun _ h => h

end Typed

theorem is_spawn (s : State) (task : Task) : (s.spawn task).2.Is (s.spawn task).1 task.kind :=
  (Heap.at_spawn s.promises task).is

theorem grows_spawn (s : State) (task : Task) :
    Heap.Grows code s.promises (s.spawn task).2.promises := Heap.grows_spawn _ _

/-- A request, the function that awaits it, and the promise derived from that. -/
theorem launch_typed {s : State} (hs : s.Typed) (url : Url) (body derived : Nat → Task)
    (hbody : ∀ p, (body p).awaits = some p ∧ (body p).expects (.request url none))
    (hderived : ∀ p q, (derived q).awaits = some q ∧ (derived q).expects (body p).kind) :
    (((s.send url).2.spawn (body (s.send url).1)).2.spawn
        (derived ((s.send url).2.spawn (body (s.send url).1)).1)).2.Typed ∧
      (((s.send url).2.spawn (body (s.send url).1)).2.spawn
        (derived ((s.send url).2.spawn (body (s.send url).1)).1)).2.Is
          (((s.send url).2.spawn (body (s.send url).1)).2.spawn
            (derived ((s.send url).2.spawn (body (s.send url).1)).1)).1
          (derived ((s.send url).2.spawn (body (s.send url).1)).1).kind := by
  have hpending := (hs.send url).spawn
    (Typed.suits (hbody (s.send url).1).1 (is_spawn s _) (hbody _).2)
  refine ⟨hpending.spawn (Typed.suits (hderived (s.send url).1 _).1 (is_spawn _ _)
    (hderived _ _).2), ?_⟩
  exact is_spawn _ _

/-- What `bootstrap` returns and does. -/
theorem bootstrap_typed {s : State} (hs : s.Typed) : s.bootstrap.2.Typed ∧
    ∀ p, s.bootstrap.1 = some p → ∃ k, s.bootstrap.2.Is p (.bootstrapFinally k) := by
  unfold bootstrap
  split
  · rename_i p hp
    refine ⟨hs, fun q hq => ?_⟩
    cases hq
    exact hs.bootstrapPromise p hp
  · split
    · exact ⟨hs, fun q hq => (by cases hq)⟩
    · obtain ⟨ht, hk⟩ := launch_typed hs .me .bootstrap .bootstrapFinally
        (fun _ => ⟨rfl, rfl⟩) fun p _ => ⟨rfl, p, rfl⟩
      refine ⟨⟨ht.heap, ht.refreshPromise, ht.storePromise, fun p hp => ?_⟩, fun p hp => ?_⟩
      · cases hp
        exact ⟨_, hk⟩
      · cases hp
        exact ⟨_, hk⟩

theorem storeRefresh_typed {s : State} (hs : s.Typed) : s.storeRefresh.2.Typed ∧
    ∃ k, s.storeRefresh.2.Is s.storeRefresh.1 (.storeFinally k) := by
  unfold storeRefresh
  split
  · rename_i p hp
    exact ⟨hs, hs.storePromise p hp⟩
  · obtain ⟨ht, hk⟩ := launch_typed hs .me .storeRefresh .storeFinally
      (fun _ => ⟨rfl, rfl⟩) fun p _ => ⟨rfl, p, rfl⟩
    refine ⟨⟨ht.heap, ht.refreshPromise, fun p hp => ?_, ht.bootstrapPromise⟩, _, hk⟩
    cases hp
    exact ⟨_, hk⟩

theorem refresh_typed {s : State} (hs : s.Typed) : s.refresh.2.Typed ∧
    ∃ k, s.refresh.2.Is s.refresh.1 (.refreshFinally k) := by
  unfold refresh
  split
  · rename_i p hp
    exact ⟨hs, hs.refreshPromise p hp⟩
  · obtain ⟨ht, hk⟩ := launch_typed hs .refresh (fun p => .refresh (.posting p))
      .refreshFinally (fun _ => ⟨rfl, rfl⟩) fun p _ => ⟨rfl, rfl⟩
    refine ⟨⟨ht.heap, fun p hp => ?_, ht.storePromise, ht.bootstrapPromise⟩, _, hk⟩
    cases hp
    exact ⟨_, hk⟩

theorem replace_typed {s : State} (hs : s.Typed) (target : Route) :
    (s.replace target).2.Typed ∧ (s.replace target).2.Is (s.replace target).1 .navigate :=
  ⟨hs.spawn (Heap.suits_of_none rfl), is_spawn s _⟩

theorem notifyLost_typed {s : State} (hs : s.Typed) : s.notifyLost.2.Typed ∧
    ∀ p, s.notifyLost.1 = some p → s.notifyLost.2.Is p .authenticationLost := by
  unfold notifyLost
  split
  · exact ⟨hs, fun p hp => (by cases hp)⟩
  · have hlost : { s with lostNotified := true }.markAuthenticationLost.Typed :=
      ⟨hs.heap, hs.refreshPromise, hs.storePromise, hs.bootstrapPromise⟩
    unfold lostHandler
    simp only
    split
    · obtain ⟨hnav, hk⟩ := replace_typed hlost .login
      refine ⟨hnav.spawn (Typed.suits rfl hk rfl), fun p hp => ?_⟩
      cases hp
      exact is_spawn _ _
    · exact ⟨hlost, fun p hp => (by cases hp)⟩

theorem refreshedHandler_typed {s : State} (hs : s.Typed) : s.refreshedHandler.2.Typed ∧
    s.refreshedHandler.2.Is s.refreshedHandler.1 .sessionRefreshed := by
  obtain ⟨ht, k, hk⟩ := storeRefresh_typed hs
  exact ⟨ht.spawn (Typed.suits rfl hk ⟨k, rfl⟩), is_spawn _ _⟩

theorem suits_losing {s : State} {config : Config} {notified : Option Nat}
    (h : ∀ p, notified = some p → s.Is p .authenticationLost) :
    s.Suits (.request config (.losing notified)) := by
  cases notified with
  | none => exact Heap.suits_of_none rfl
  | some p => exact Typed.suits rfl (h p rfl) rfl

theorem suits_guarding {s : State} {target : Route} {bootstrapped : Option Nat}
    (h : ∀ p, bootstrapped = some p → ∃ k, s.Is p (.bootstrapFinally k)) :
    s.Suits (.navigate target (.guarding bootstrapped)) := by
  cases bootstrapped with
  | none => exact Heap.suits_of_none rfl
  | some p =>
      obtain ⟨k, hk⟩ := h p rfl
      exact Typed.suits rfl hk ⟨k, rfl⟩

theorem Typed.lose {s : State} (hs : s.Typed) {i : Nat} {config : Config} {point : RequestPoint}
    (hat : s.At i (.request config point)) : (s.lose i config).Typed := by
  obtain ⟨ht, hk⟩ := notifyLost_typed hs
  have hgrows := (Calm.notifyLost s).grows
  exact ht.advance (hgrows _ _ hat.is) (suits_losing hk)

theorem typed_init : init.Typed :=
  ⟨fun i x hx => (by cases hx), fun p hp => (by cases hp), fun p hp => (by cases hp),
    fun p hp => (by cases hp)⟩

namespace Typed

variable {s t : State}

/-- A call goes on, and awaits a promise that suits it. -/
theorem then_advance (ht : Typed t) (hg : Heap.Grows code s.promises t.promises) {i : Nat}
    {task task' : Task} (hat : s.At i task) (hkind : task'.kind = task.kind)
    (hsuits : t.Suits task') : Typed (t.advance i task') := by
  refine ht.advance ?_ hsuits
  rw [hkind]
  exact hg i _ hat.is

theorem respond (hs : Typed s) {i : Nat} {config : Config}
    (hat : s.At i (.request config .sent)) (answer : Option Response) :
    Typed (s.respond i config answer) := by
  unfold State.respond
  split
  · exact hs.settle i _
  · split
    · exact hs.settle i _
    · split
      · exact hs.settle i _
      · split
        · exact hs.lose hat
        · obtain ⟨ht, k, hk⟩ := refresh_typed hs
          exact ht.then_advance (grows_refresh s) hat rfl (suits rfl hk ⟨k, rfl⟩)

theorem resumeRequest (hs : Typed s) {i : Nat} {config : Config} {point : RequestPoint}
    (hat : s.At i (.request config point)) (r : Settlement) :
    Typed (s.resumeRequest i config r point) := by
  cases point with
  | sent => exact hs
  | refreshing p =>
      cases r with
      | resolved response =>
          have hretry : s.Suits (.request { config with retryOf := some i } .sent) :=
            Heap.suits_of_none rfl
          have ht := hs.spawn hretry
          exact ht.then_advance (grows_spawn s _) hat rfl (suits rfl (is_spawn s _) ⟨i, rfl⟩)
      | rejected => exact hs.lose hat
  | retrying p =>
      cases r with
      | resolved response => exact hs.settle i _
      | rejected => exact hs.lose hat
  | losing notified => exact hs.settle i _

theorem resumeRefresh (hs : Typed s) {i : Nat} {point : RefreshPoint}
    (hat : s.At i (.refresh point)) (r : Settlement) : Typed (s.resumeRefresh i r point) := by
  cases point with
  | posting post =>
      unfold State.resumeRefresh
      simp only
      split
      · split
        · obtain ⟨ht, hk⟩ := refreshedHandler_typed hs
          exact ht.then_advance (Calm.refreshedHandler s).grows hat rfl (suits rfl hk rfl)
        · exact hs.settle i _
      · exact hs.settle i _
      · exact hs.settle i _
  | handling handler =>
      unfold State.resumeRefresh
      simp only
      split
      · exact (⟨hs.heap, hs.refreshPromise, hs.storePromise, hs.bootstrapPromise⟩ :
          Typed { s with lostNotified := false }).settle i _
      · exact hs.settle i _

theorem resumeHandler (hs : Typed s) {i : Nat} {point : HandlerPoint}
    (hat : s.At i (.sessionRefreshed point)) (r : Settlement) :
    Typed (s.resumeHandler i r point) := by
  cases point with
  | restoring restored =>
      unfold State.resumeHandler
      simp only
      split
      · split
        · obtain ⟨ht, hk⟩ := replace_typed hs .login
          exact ht.then_advance (grows_spawn s _) hat rfl (suits rfl hk rfl)
        · exact hs.settle i _
      · split
        · rename_i target htarget
          obtain ⟨ht, hk⟩ := replace_typed hs target
          exact ht.then_advance (grows_spawn s _) hat rfl (suits rfl hk rfl)
        · exact hs.settle i _
  | failing | navigating => exact hs.settle i _

theorem resumeNavigation (hs : Typed s) {i : Nat} {target : Route} {point : NavigationPoint}
    (hat : s.At i (.navigate target point)) (current : Bool) :
    Typed (s.resumeNavigation i current target point) := by
  cases point with
  | starting =>
      unfold State.resumeNavigation
      simp only
      split
      · exact hs.then_advance (.refl _) hat rfl (Heap.suits_of_none rfl)
      · obtain ⟨ht, hk⟩ := bootstrap_typed hs
        exact ht.then_advance (Calm.bootstrap s).grows hat rfl (suits_guarding hk)
  | guarding bootstrapped =>
      unfold State.resumeNavigation
      simp only
      split
      · exact hs.then_advance (.refl _) hat rfl (Heap.suits_of_none rfl)
      · exact hs.then_advance (.refl _) hat rfl (Heap.suits_of_none rfl)
  | finishing =>
      exact (⟨hs.heap, hs.refreshPromise, hs.storePromise, hs.bootstrapPromise⟩ :
        Typed { s with currentRoute := if current then target else s.currentRoute }).settle i _

theorem resumeLogin (hs : Typed s) {i : Nat} {point : LoginPoint} (hat : s.At i (.login point))
    (r : Settlement) : Typed (s.resumeLogin i r point) := by
  cases point with
  | preparing csrf =>
      unfold State.resumeLogin
      simp only
      split
      · exact (hs.send .login).then_advance (grows_spawn s _) hat rfl
          (suits rfl (is_spawn s _) rfl)
      · exact hs.settle i _
  | posting post =>
      unfold State.resumeLogin
      simp only
      split
      · obtain ⟨ht, k, hk⟩ := storeRefresh_typed hs
        exact ht.then_advance (Calm.storeRefresh s).grows hat rfl (suits rfl hk ⟨k, rfl⟩)
      · exact hs.settle i _
  | restoring restored => exact hs.settle i _

theorem resumeChange (hs : Typed s) {i : Nat} {point : ChangePoint}
    (hat : s.At i (.changePassword point)) (r : Settlement) : Typed (s.resumeChange i r point) := by
  cases point with
  | posting post =>
      unfold State.resumeChange
      simp only
      split
      · obtain ⟨ht, k, hk⟩ := storeRefresh_typed hs
        exact ht.then_advance (Calm.storeRefresh s).grows hat rfl (suits rfl hk ⟨k, rfl⟩)
      · exact hs.settle i _
  | restoring restored => exact hs.settle i _

theorem settle_vars (hs : Typed s) (t : State) (hp : t.promises = s.promises)
    (hr : ∀ p, t.refreshPromise = some p → s.refreshPromise = some p)
    (hst : ∀ p, t.storePromise = some p → s.storePromise = some p)
    (hb : ∀ p, t.bootstrapPromise = some p → s.bootstrapPromise = some p) (i : Nat)
    (r : Settlement) : Typed (t.settle i r) :=
  (hs.vars (hp ▸ .refl _) (hp ▸ hs.heap) hr hst hb).settle i r

theorem resume (hs : Typed s) {i : Nat} {task : Task} (hat : s.At i task) (current : Bool)
    (r : Settlement) : Typed (s.resume i current r task) := by
  cases task with
  | request config point => exact hs.resumeRequest hat r
  | refresh point => exact hs.resumeRefresh hat r
  | refreshFinally pending =>
      unfold State.resume
      simp only
      split
      · exact hs.settle_vars { s with refreshPromise := none } rfl nofun (fun _ h => h)
          (fun _ h => h) i r
      · exact hs.settle i r
  | sessionRefreshed point => exact hs.resumeHandler hat r
  | authenticationLost navigation => exact hs.settle i r
  | storeRefresh me =>
      exact hs.settle_vars (s.setUser _) rfl (fun _ h => h) (fun _ h => h) (fun _ h => h) i _
  | storeFinally pending =>
      exact hs.settle_vars { s with storePromise := none } rfl (fun _ h => h) nofun (fun _ h => h) i r
  | bootstrap me =>
      exact hs.settle_vars (s.setUser _) rfl (fun _ h => h) (fun _ h => h) (fun _ h => h) i _
  | bootstrapFinally pending =>
      exact hs.settle_vars { s with bootstrapPromise := none } rfl (fun _ h => h) (fun _ h => h)
        nofun i r
  | navigate target point => exact hs.resumeNavigation hat current
  | login point => exact hs.resumeLogin hat r
  | changePassword point => exact hs.resumeChange hat r
  | logout post =>
      exact hs.settle_vars s.markAuthenticationLost rfl (fun _ h => h) (fun _ h => h)
        (fun _ h => h) i _

theorem call (hs : Typed s) {c : Call} (h : s.call c = some t) : Typed t := by
  cases c with
  | request url =>
      simp only [State.call] at h
      split at h
      · cases h
      · cases h
        exact hs.send url
  | login =>
      cases h
      exact (hs.send .csrf).spawn (suits rfl (is_spawn s _) rfl)
  | changePassword =>
      cases h
      exact (hs.send .passwordChange).spawn (suits rfl (is_spawn s _) rfl)
  | logout =>
      cases h
      exact (hs.send .logout).spawn (suits rfl (is_spawn s _) rfl)
  | navigate target =>
      cases h
      exact (replace_typed hs target).1

theorem next (hs : Typed s) {e : Event} (h : Web.next s e = some t) : Typed t := by
  obtain ⟨c, -, hcall⟩ | ⟨i, config, answer, -, hat, rfl⟩ | ⟨i, current, task, r, -, hat, -, rfl⟩ :=
    step_cases h
  · exact hs.call hcall
  · exact hs.respond hat answer
  · exact hs.resume hat current r

end Typed

end State

end SuperBoss.Web
