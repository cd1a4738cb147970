import SuperBoss.Web.Progress

/-!
When every request has its answer and nothing can go on, nobody waits, unless the
`GET /auth/me` that a session-refreshed handler waits for waits for the refresh
itself.
-/

namespace SuperBoss.Web

open SuperBoss.Core
open SuperBoss.Library
open SuperBoss.Library.Promises
open SuperBoss.Library.Transition

/-! ### The request that the handler waits for -/

/-- Request `m` is at the refresh, for the first time. -/
def Refreshing (s : State) (m : Nat) : Prop :=
  ∃ config p, s.At m (.request config (.refreshing p))

/-- `f` is the promise of a refresh of the store, with request `m`. -/
def StoreMe (s : State) (f m : Nat) : Prop :=
  ∃ k, s.Is f (.storeFinally k) ∧ s.Is k (.storeRefresh m)

/-- `b` is the promise of a bootstrap, with request `m`. -/
def BootstrapMe (s : State) (b m : Nat) : Prop :=
  ∃ k, s.Is b (.bootstrapFinally k) ∧ s.Is k (.bootstrap m)

/-- The handler awaits navigation `n`, and has nothing to undo. -/
def Navigates (s : State) (n : Nat) : Prop := ∃ h, s.At h (.sessionRefreshed (.navigating n))

/-- A handler waits for request `m`, that of the store or that of the bootstrap. -/
def HandlerAwaits (s : State) (m : Nat) : Prop :=
  (∃ h f, s.At h (.sessionRefreshed (.restoring f)) ∧ StoreMe s f m) ∨
    ∃ n target b, Navigates s n ∧ s.At n (.navigate target (.guarding (some b))) ∧
      BootstrapMe s b m

/-- The step does not make the refresh wait for itself: the answer of the request
that a handler waits for is not refreshable, no handler joins a store that waits for
the refresh, and the navigation of a handler no such bootstrap. -/
structure Clear (s : State) (e : Event) : Prop where
  answer : ∀ m, FirstTry s e m → ¬HandlerAwaits s m
  store : s.Restores e → ∀ f m, s.storePromise = some f → StoreMe s f m → ¬Refreshing s m
  bootstrap : ∀ n target b m, e.actor = some n → s.At n (.navigate target .starting) →
    Navigates s n → s.bootstrapPromise = some b → BootstrapMe s b m → ¬Refreshing s m

/-- No handler waits for a request that waits for the refresh. -/
def Untangled (s : State) : Prop := ∀ m, HandlerAwaits s m → ¬Refreshing s m

/-- The page has been bootstrapped; it stays so. -/
def Ready (s : State) : Prop := s.isBootstrapped = true ∧ s.bootstrapPromise = none

theorem Task.eq_storeFinally {task : Task} {k : Nat} (h : task.kind = .storeFinally k) :
    task = .storeFinally k := by
  cases task <;> cases h
  rfl

theorem Task.eq_bootstrapFinally {task : Task} {k : Nat} (h : task.kind = .bootstrapFinally k) :
    task = .bootstrapFinally k := by
  cases task <;> cases h
  rfl

section waiting

variable {s t : State} {e : Event}

/-- Who a call waits for is fixed when it is made. -/
theorem StoreMe.of_grows (hs : s.Typed) (hg : Heap.Grows code s.promises t.promises) {f k m : Nat}
    (hf : s.Is f (.storeFinally k)) (hme : StoreMe t f m) : StoreMe s f m := by
  obtain ⟨k', hf', hk'⟩ := hme
  obtain rfl : k' = k := Kind.storeFinally.inj (hf'.unique (hg _ _ hf))
  obtain ⟨⟨task, result⟩, hx, hkind⟩ := hf
  obtain rfl := Task.eq_storeFinally hkind
  obtain ⟨_, hk, m', rfl⟩ := hs.heap f _ hx k' rfl
  obtain rfl : m = m' := Kind.storeRefresh.inj (hk'.unique (hg _ _ hk))
  exact ⟨k', ⟨_, hx, rfl⟩, hk⟩

theorem BootstrapMe.of_grows (hs : s.Typed) (hg : Heap.Grows code s.promises t.promises)
    {b k m : Nat} (hb : s.Is b (.bootstrapFinally k)) (hme : BootstrapMe t b m) :
    BootstrapMe s b m := by
  obtain ⟨k', hb', hk'⟩ := hme
  obtain rfl : k' = k := Kind.bootstrapFinally.inj (hb'.unique (hg _ _ hb))
  obtain ⟨⟨task, result⟩, hx, hkind⟩ := hb
  obtain rfl := Task.eq_bootstrapFinally hkind
  obtain ⟨_, hk, m', rfl⟩ := hs.heap b _ hx k' rfl
  obtain rfl : m = m' := Kind.bootstrap.inj (hk'.unique (hg _ _ hk))
  exact ⟨k', ⟨_, hx, rfl⟩, hk⟩

/-- A promise of the store that is new comes with a new request. -/
theorem StoreMe.of_storeRefresh (hs : s.Typed) {m : Nat} (hme : StoreMe t s.storeRefresh.1 m)
    (hg : Heap.Grows code s.storeRefresh.2.promises t.promises) :
    s.promises.length ≤ m ∨ ∃ k, s.storePromise = some s.storeRefresh.1 ∧
      s.Is s.storeRefresh.1 (.storeFinally k) := by
  by_cases hnone : s.storePromise = none
  · left
    have hstart : s.storeRefresh = (s.promises.length + 2,
        { s with
          promises := ((s.promises.spawn (.request ⟨.me, false, none⟩ .sent)).spawn
            (.storeRefresh s.promises.length)).spawn (.storeFinally (s.promises.length + 1))
          storePromise := some (s.promises.length + 2) }) := by
      unfold State.storeRefresh
      rw [hnone]
      simp [State.send, State.spawn, Heap.spawn]
    obtain ⟨k, hf, hk⟩ := hme
    rw [hstart] at hf hg
    have hfinally : Heap.Is code (((s.promises.spawn (.request ⟨.me, false, none⟩ .sent)).spawn
        (.storeRefresh s.promises.length)).spawn (.storeFinally (s.promises.length + 1)))
        (s.promises.length + 2) (.storeFinally (s.promises.length + 1)) := by
      refine Heap.is_spawn_iff.mpr (.inr ⟨?_, rfl⟩)
      simp [Heap.spawn]
    obtain rfl := Kind.storeFinally.inj (hf.unique (hg _ _ hfinally))
    have hrefresh : Heap.Is code (((s.promises.spawn (.request ⟨.me, false, none⟩ .sent)).spawn
        (.storeRefresh s.promises.length)).spawn (.storeFinally (s.promises.length + 1)))
        (s.promises.length + 1) (.storeRefresh s.promises.length) := by
      refine Heap.is_spawn_iff.mpr (.inl (Heap.is_spawn_iff.mpr (.inr ⟨?_, rfl⟩)))
      simp [Heap.spawn]
    obtain rfl := Kind.storeRefresh.inj (hk.unique (hg _ _ hrefresh))
    exact le_rfl
  · obtain ⟨f, hf⟩ := Option.ne_none_iff_exists'.mp hnone
    have heq : s.storeRefresh.1 = f := by
      unfold State.storeRefresh
      rw [hf]
    obtain ⟨k, hk⟩ := hs.storePromise f hf
    rw [heq]
    exact .inr ⟨k, hf, hk⟩

/-- What `bootstrap` returns. -/
theorem bootstrap_cases (s : State) :
    (s.bootstrap.1 = none ∧ Ready s) ∨
      (∃ b, s.bootstrap.1 = some b ∧ s.bootstrap.2.bootstrapPromise = some b ∧
        (s.bootstrapPromise = some b ∨ (s.bootstrapPromise = none ∧ b = s.promises.length + 2))) := by
  unfold State.bootstrap
  split
  · rename_i b hset
    exact .inr ⟨b, rfl, hset, .inl hset⟩
  · rename_i hnone
    split
    · exact .inl ⟨rfl, ‹_›, hnone⟩
    · refine .inr ⟨s.promises.length + 2, ?_, ?_, .inr ⟨hnone, rfl⟩⟩
      · simp [State.send, State.spawn, Heap.spawn]
      · simp [State.send, State.spawn, Heap.spawn]

end waiting

/-! ### Once bootstrapped, navigations go on -/

/-- Until then nobody has lost a session, and there is no route to protect. -/
structure Booted (s : State) : Prop where
  pending : ∀ {b}, s.bootstrapPromise = some b → ∃ k, s.At b (.bootstrapFinally k)
  only : ∀ {b k}, s.At b (.bootstrapFinally k) → s.bootstrapPromise = some b
  ended : ∀ {b k}, s.At b (.bootstrapFinally k) →
    (∃ m, s.At k (.bootstrap m)) ∨ s.isBootstrapped = true
  guarding : ∀ {n target b}, s.At n (.navigate target (.guarding (some b))) →
    s.bootstrapPromise = some b ∨ Ready s
  unguarded : ∀ {n target}, s.At n (.navigate target (.guarding none)) → Ready s
  finishing : ∀ {n target}, s.At n (.navigate target .finishing) → target = .health ∨ Ready s
  lost : ∀ {i n}, s.At i (.authenticationLost n) → Ready s
  failing : ∀ {i n}, s.At i (.sessionRefreshed (.failing n)) → Ready s
  route : s.currentRoute = .start ∨ s.currentRoute = .health ∨ Ready s

namespace Booted

variable {s t : State} {e : Event}

theorem init : Booted .init :=
  ⟨nofun, nofun, nofun, nofun, nofun, nofun, nofun, nofun, .inl rfl⟩

theorem ready_of_protected (hs : Booted s) (h : s.onProtectedRoute = true) : Ready s := by
  rcases hs.route with hroute | hroute | hready
  · simp [State.onProtectedRoute, hroute, Route.requiresAuth] at h
  · simp [State.onProtectedRoute, hroute, Route.requiresAuth] at h
  · exact hready

theorem ready_next (h : State.Follows s e t) (hready : Ready s) : Ready t := by
  refine ⟨h.booted hready.1, ?_⟩
  rcases h.boot with hboot | hboots | ⟨hnone, -⟩
  · exact hboot.trans hready.2
  · cases hboots.fresh.symm.trans hready.1
  · exact hnone

/-- The turn of the promise that is derived from the bootstrap. -/
theorem cleared (h : Web.next s e = some t) {b k : Nat} (hactor : e.actor = some b)
    (hat : s.At b (.bootstrapFinally k)) : t.bootstrapPromise = none ∧ ¬Heap.Pending t.promises b := by
  obtain ⟨c, rfl, -⟩ | ⟨i, config, answer, rfl, hat', -⟩ | ⟨i, current, task, r, rfl, hat', -, rfl⟩ :=
    step_cases h
  · cases hactor
  · cases hactor
    cases Heap.At.unique hat hat'
  · cases hactor
    obtain rfl := Heap.At.unique hat hat'
    refine ⟨rfl, ?_⟩
    rintro ⟨task', hat'⟩
    exact (Heap.at_settle_iff.mp hat').1 rfl

/-- The turn of the bootstrap. -/
theorem bootstrapped (h : Web.next s e = some t) {k m : Nat} (hactor : e.actor = some k)
    (hat : s.At k (.bootstrap m)) : t.isBootstrapped = true := by
  obtain ⟨c, rfl, -⟩ | ⟨i, config, answer, rfl, hat', -⟩ | ⟨i, current, task, r, rfl, hat', -, rfl⟩ :=
    step_cases h
  · cases hactor
  · cases hactor
    cases Heap.At.unique hat hat'
  · cases hactor
    obtain rfl := Heap.At.unique hat hat'
    rfl

/-- A bootstrap that is over leaves the page ready. -/
theorem ready_of_cleared (hs : Booted s) (hf : State.Follows s e t)
    (hnone : t.bootstrapPromise = none) {b k : Nat} (hat : s.At b (.bootstrapFinally k))
    (hk : ¬Heap.Pending s.promises k) : Ready t := by
  refine ⟨hf.booted ?_, hnone⟩
  rcases hs.ended hat with ⟨m, hm⟩ | hbooted
  · exact absurd ⟨_, hm⟩ hk
  · exact hbooted

/-- A bootstrap that was pending still is, or has left the page ready. -/
theorem pending_or_ready (hs : Booted s) (hf : State.Follows s e t) {b : Nat}
    (hboot : s.bootstrapPromise = some b) : t.bootstrapPromise = some b ∨ Ready t := by
  rcases hf.boot with heq | hboots | ⟨hnone, b', k, -, hat, hk⟩
  · exact .inl (heq.trans hboot)
  · rw [hboots.unset] at hboot
    cases hboot
  · exact .inr (hs.ready_of_cleared hf hnone hat hk)

theorem next (hs : Booted s) (h : Web.next s e = some t) : Booted t := by
  have hf := State.Follows.next h
  refine ⟨fun {b} hb => ?_, fun {b k} hat => ?_, fun {b k} hat => ?_, fun {n target b} hat => ?_,
    fun {n target} hat => ?_, fun {n target} hat => ?_, fun {i n} hat => ?_, fun {i n} hat => ?_, ?_⟩
  · rcases hf.boot with heq | hboots | ⟨hnone, -⟩
    · obtain ⟨k, hat⟩ := hs.pending (heq.symm.trans hb)
      rcases hf.kept hat with hat' | hactor
      · exact ⟨k, hat'⟩
      · rw [(cleared h hactor hat).1] at hb
        cases hb
    · obtain rfl := Option.some.inj (hboots.set.symm.trans hb)
      exact ⟨_, hboots.derived⟩
    · rw [hnone] at hb
      cases hb
  · rcases hf.origin hat with hold | ⟨-, hyoung⟩ | hgoes
    · rcases hf.boot with heq | hboots | ⟨-, b', k', hactor, hat', -⟩
      · exact heq.trans (hs.only hold)
      · cases hboots.unset.symm.trans (hs.only hold)
      · obtain rfl := Option.some.inj ((hs.only hat').symm.trans (hs.only hold))
        exact absurd ⟨_, hat⟩ (cleared h hactor hold).2
    · cases hyoung
    · cases hgoes with
      | bootstrapping hboot => exact hboot
  · rcases hf.origin hat with hold | ⟨-, hyoung⟩ | hgoes
    · rcases hs.ended hold with ⟨m, hm⟩ | hbooted
      · rcases hf.kept hm with hm' | hactor
        · exact .inl ⟨m, hm'⟩
        · exact .inr (bootstrapped h hactor hm)
      · exact .inr (hf.booted hbooted)
    · cases hyoung
    · cases hgoes with
      | bootstrapping hboot =>
          rcases hf.boot with heq | hboots | ⟨hnone, -⟩
          · obtain ⟨k', hold⟩ := hs.pending (heq.symm.trans hboot)
            exact absurd (State.Follows.lt_length hold) (by omega)
          · exact .inl ⟨_, hboots.pending⟩
          · rw [hnone] at hboot
            cases hboot
  · rcases hf.origin hat with hold | ⟨-, hyoung⟩ | hgoes
    · rcases hs.guarding hold with hboot | hready
      · exact hs.pending_or_ready hf hboot
      · exact .inr (ready_next hf hready)
    · cases hyoung
    · generalize hp : some b = p at hgoes
      cases hgoes with
      | guarding hactor hstart hboot =>
          rcases bootstrap_cases s with ⟨-, hready⟩ | ⟨b', heq, hset, -⟩
          · exact .inr (ready_next hf hready)
          · left
            rw [hboot, hset, ← heq, ← hp]
  · rcases hf.origin hat with hold | ⟨-, hyoung⟩ | hgoes
    · exact ready_next hf (hs.unguarded hold)
    · cases hyoung
    · generalize hp : (none : Option Nat) = p at hgoes
      cases hgoes with
      | guarding hactor hstart hboot =>
          rcases bootstrap_cases s with ⟨-, hready⟩ | ⟨b', heq, -⟩
          · exact ready_next hf hready
          · cases hp.trans heq
  · rcases hf.origin hat with hold | ⟨-, hyoung⟩ | hgoes
    · exact (hs.finishing hold).imp_right (ready_next hf)
    · cases hyoung
    · cases hgoes with
      | healthy => exact .inl rfl
      | @finishing _ _ p hold hdone =>
          right
          cases p with
          | none => exact ready_next hf (hs.unguarded hold)
          | some b =>
              rcases hs.guarding hold with hset | hready
              · obtain ⟨k, hat'⟩ := hs.pending hset
                exact absurd ⟨_, hat'⟩ (hdone b rfl)
              · exact ready_next hf hready
  · rcases hf.origin hat with hold | ⟨-, hyoung⟩ | hgoes
    · exact ready_next hf (hs.lost hold)
    · cases hyoung
    · cases hgoes with
      | lost hroute => exact ready_next hf (hs.ready_of_protected hroute)
  · rcases hf.origin hat with hold | ⟨-, hyoung⟩ | hgoes
    · exact ready_next hf (hs.failing hold)
    · cases hyoung
    · cases hgoes with
      | failing hroute => exact ready_next hf (hs.ready_of_protected hroute)
  · rcases hf.route with heq | ⟨i, hat⟩
    · rw [heq]
      exact hs.route.imp_right (Or.imp_right (ready_next hf))
    · rcases hs.finishing hat with hhealth | hready
      · exact .inr (.inl hhealth)
      · exact .inr (.inr (ready_next hf hready))

end Booted

/-! ### A clear step does not tangle -/

namespace Untangled

variable {s t : State} {e : Event}

theorem init : Untangled .init := by
  rintro m - ⟨config, p, hat⟩
  cases hat

/-- A request starts to wait for the refresh with its first refreshable 401. -/
theorem refreshing_of_next (hf : State.Follows s e t) {m : Nat} (h : Refreshing t m) :
    Refreshing s m ∨ FirstTry s e m := by
  obtain ⟨config, p, hat⟩ := h
  rcases hf.origin hat with hold | ⟨-, hyoung⟩ | hgoes
  · exact .inl ⟨config, p, hold⟩
  · cases hyoung
  · cases hgoes with
    | waiting hfirst => exact .inr hfirst

theorem refreshing_lt {m : Nat} (h : Refreshing s m) : m < s.promises.length := by
  obtain ⟨config, p, hat⟩ := h
  exact State.Follows.lt_length hat

theorem lt_of_firstTry {m : Nat} (h : FirstTry s e m) : m < s.promises.length := by
  obtain ⟨config, r, -, hat, -⟩ := h
  exact State.Follows.lt_length hat

/-- The refresh of the store is started, or joined, before the handler is. -/
theorem grows_of_restores (h : Web.next s e = some t) (hrestores : s.Restores e) :
    Heap.Grows code s.storeRefresh.2.promises t.promises := by
  obtain ⟨i, current, post, r, rfl, hat, hready, hstatus⟩ := hrestores
  obtain ⟨c, hc, -⟩ | ⟨j, config, answer, hc, -⟩ | ⟨j, current', task, r', hc, hat', hready', rfl⟩ :=
    step_cases h
  · cases hc
  · cases hc
  · cases hc
    obtain rfl := Heap.At.unique hat hat'
    obtain rfl := Option.some.inj (hready.symm.trans hready')
    have hresume : s.resume i current (.resolved (some r)) (.refresh (.posting post)) =
        s.refreshedHandler.2.advance i (.refresh (.handling s.refreshedHandler.1)) := by
      simp [State.resume, State.resumeRefresh, hstatus]
    rw [hresume]
    exact (Heap.grows_spawn _ _).trans
      (Heap.grows_advance ((State.Calm.refreshedHandler s).grows _ _ hat.is))

/-- A request that a handler comes to wait for is old only if the handler joins a
store that is being refreshed, or its navigation a bootstrap. -/
theorem awaits_of_next (hty : s.Typed) (h : Web.next s e = some t) {m : Nat}
    (hm : m < s.promises.length) (hawaits : HandlerAwaits t m) :
    HandlerAwaits s m ∨
      (s.Restores e ∧ ∃ f, s.storePromise = some f ∧ StoreMe s f m) ∨
      ∃ n target b, e.actor = some n ∧ s.At n (.navigate target .starting) ∧ Navigates s n ∧
        s.bootstrapPromise = some b ∧ BootstrapMe s b m := by
  have hf := State.Follows.next h
  rcases hawaits with ⟨i, f, hat, hme⟩ | ⟨n, target, b, ⟨i, hnav⟩, hat, hme⟩
  · rcases hf.origin hat with hold | ⟨-, hyoung⟩ | hgoes
    · obtain ⟨_, hf', k, rfl⟩ := hty.heap i _ hold f rfl
      exact .inl (.inl ⟨i, f, hold, hme.of_grows hty hf.grows hf'⟩)
    · cases hyoung
    · generalize hp : f = p at hgoes
      cases hgoes with
      | restoring hrestores =>
          subst hp
          rcases hme.of_storeRefresh hty (grows_of_restores h hrestores) with hlen | ⟨k, hset, hk⟩
          · exact absurd hm (not_lt.mpr hlen)
          · exact .inr (.inl ⟨hrestores, _, hset, hme.of_grows hty hf.grows hk⟩)
  · have hn : n < s.promises.length := by
      rcases hf.origin hat with hold | ⟨-, hyoung⟩ | hgoes
      · exact State.Follows.lt_length hold
      · cases hyoung
      · generalize some b = p at hgoes
        cases hgoes with
        | guarding hactor hstart hboot => exact State.Follows.lt_length hstart
    have hnavigates : Navigates s n := by
      rcases hf.origin hnav with hold | ⟨-, hyoung⟩ | hgoes
      · exact ⟨i, hold⟩
      · cases hyoung
      · cases hgoes with
        | navigating hlen => exact absurd hn (not_lt.mpr hlen)
    rcases hf.origin hat with hold | ⟨-, hyoung⟩ | hgoes
    · obtain ⟨_, hb, k, rfl⟩ := hty.heap n _ hold b rfl
      exact .inl (.inr ⟨n, target, b, hnavigates, hold, hme.of_grows hty hf.grows hb⟩)
    · cases hyoung
    · generalize hp : some b = p at hgoes
      cases hgoes with
      | guarding hactor hstart hboot =>
          rcases bootstrap_cases s with ⟨hnone, -⟩ | ⟨b', heq, hset, hcases⟩
          · cases hp.trans hnone
          · obtain rfl := Option.some.inj (hp.trans heq)
            rcases hcases with hold | ⟨hnone, rfl⟩
            · obtain ⟨k, hk⟩ := hty.bootstrapPromise b hold
              exact .inr (.inr ⟨n, target, b, hactor, hstart, hnavigates, hold,
                hme.of_grows hty hf.grows hk⟩)
            · have hboots : s.Boots t := by
                rcases hf.boot with hsame | hboots | ⟨hcleared, -⟩
                · cases (hnone.symm.trans hsame.symm).trans (hboot.trans hset)
                · exact hboots
                · cases hcleared.symm.trans (hboot.trans hset)
              obtain ⟨k, hb, hk⟩ := hme
              obtain rfl := Kind.bootstrapFinally.inj (hb.unique hboots.derived.is)
              obtain rfl := Kind.bootstrap.inj (hk.unique hboots.pending.is)
              exact absurd hm (lt_irrefl _)

theorem next (hs : Untangled s) (hty : s.Typed) (hclear : Clear s e) (h : Web.next s e = some t) :
    Untangled t := by
  intro m hawaits hrefreshing
  have hf := State.Follows.next h
  rcases refreshing_of_next hf hrefreshing with hold | hfirst
  · rcases awaits_of_next hty h (refreshing_lt hold) hawaits with hawaits | ⟨hrestores, f, hset, hme⟩ |
      ⟨n, target, b, hactor, hstart, hnav, hset, hme⟩
    · exact hs m hawaits hold
    · exact hclear.store hrestores f m hset hme hold
    · exact hclear.bootstrap n target b m hactor hstart hnav hset hme hold
  · obtain ⟨config, r, hevent, hat, -⟩ := id hfirst
    rcases awaits_of_next hty h (lt_of_firstTry hfirst) hawaits with hawaits |
      ⟨⟨i, current, post, r', hrestores, -⟩, -⟩ | ⟨n, target, b, hactor, hstart, -⟩
    · exact hclear.answer m hfirst hawaits
    · cases hevent.symm.trans hrestores
    · subst hevent
      cases hactor
      cases Heap.At.unique hat hstart

end Untangled

/-! ### When nothing can go on -/

theorem Task.eq_request {task : Task} {url : Url} {retryOf : Option Nat}
    (h : task.kind = .request url retryOf) :
    ∃ config point, task = .request config point ∧ config.url = url ∧ config.retryOf = retryOf := by
  cases task <;> cases h
  exact ⟨_, _, rfl, rfl, rfl⟩

theorem Task.eq_refresh {task : Task} (h : task.kind = .refresh) : ∃ point, task = .refresh point := by
  cases task <;> cases h
  exact ⟨_, rfl⟩

theorem Task.eq_refreshFinally {task : Task} {k : Nat} (h : task.kind = .refreshFinally k) :
    task = .refreshFinally k := by
  cases task <;> cases h
  rfl

theorem Task.eq_sessionRefreshed {task : Task} (h : task.kind = .sessionRefreshed) :
    ∃ point, task = .sessionRefreshed point := by
  cases task <;> cases h
  exact ⟨_, rfl⟩

theorem Task.eq_authenticationLost {task : Task} (h : task.kind = .authenticationLost) :
    ∃ n, task = .authenticationLost n := by
  cases task <;> cases h
  exact ⟨_, rfl⟩

theorem Task.eq_storeRefresh {task : Task} {m : Nat} (h : task.kind = .storeRefresh m) :
    task = .storeRefresh m := by
  cases task <;> cases h
  rfl

theorem Task.eq_bootstrap {task : Task} {m : Nat} (h : task.kind = .bootstrap m) :
    task = .bootstrap m := by
  cases task <;> cases h
  rfl

theorem Task.eq_navigate {task : Task} (h : task.kind = .navigate) :
    ∃ target point, task = .navigate target point := by
  cases task <;> cases h
  exact ⟨_, _, rfl⟩

/-- What every reachable state satisfies. -/
structure Sound (s : State) : Prop where
  typed : s.Typed
  flight : s.Flight
  booted : Booted s
  posts : ∀ {i config point}, s.At i (.request config point) → point ≠ .sent → config.url ≠ .refresh
  retries : ∀ {i config n}, s.At i (.request config (.retrying n)) → config.retryOf = none

namespace Sound

variable {s t : State} {e : Event}

theorem init : Sound .init :=
  ⟨State.typed_init, State.flight_init, .init, fun hat => (by cases hat), fun hat => (by cases hat)⟩

theorem next (hs : Sound s) (h : Web.next s e = some t) : Sound t := by
  have hf := State.Follows.next h
  refine ⟨hs.typed.next h, hs.flight.next h, hs.booted.next h, fun {i config point} hat hne => ?_,
    fun {i config n} hat => ?_⟩
  · rcases hf.origin hat with hold | ⟨-, hyoung⟩ | hgoes
    · exact hs.posts hold hne
    · cases point with
      | sent => exact absurd rfl hne
      | refreshing | retrying | losing => cases hyoung
    · cases hgoes with
      | waiting hfirst => exact ((hs.flight.next h).waiting hat).1
      | retrying hold => exact (hs.flight.waiting hold).1
      | losing hin =>
          rcases hin with hurl | ⟨point', hold, hne'⟩
          · exact hurl
          · exact hs.posts hold hne'
  · rcases hf.origin hat with hold | ⟨-, hyoung⟩ | hgoes
    · exact hs.retries hold
    · cases hyoung
    · cases hgoes with
      | retrying hold => exact (hs.flight.waiting hold).2.1

end Sound

/-- Every request has its answer. -/
def Answered (s : State) : Prop := ∀ i config, ¬s.At i (.request config .sent)

/-- No call can go on. -/
def Idle (s : State) : Prop := ∀ i current, next s (.resume i current) = none

namespace Sound

variable {s : State} (hs : Sound s) (hanswered : Answered s)

include hs hanswered

/-- Whoever is suspended awaits a suspended call of the expected kind. -/
theorem blocked (hidle : Idle s) : Heap.Blocked code s.promises := by
  intro i task hat
  have hget : s.promises[i]? = some ⟨task, none⟩ := hat
  have hready : s.ready task = none := by
    have hnext := hidle i true
    simp only [Web.next, hget, Option.map_eq_none_iff] at hnext
    exact hnext
  unfold State.ready at hready
  split at hready
  · exact absurd hat (hanswered i _)
  · split at hready
    · cases hready
    · rename_i p hp
      obtain ⟨k, ⟨⟨task', result⟩, hx, -⟩, -⟩ := hs.typed.heap i _ hat p hp
      rw [hx] at hready
      cases hready
      exact ⟨p, hp, task', hx⟩

variable (hblocked : Heap.Blocked code s.promises)

include hblocked

/-- No `POST /auth/refresh` is under way, so the refresh waits for the handler. -/
theorem handler_of_refreshing {m : Nat} (h : Refreshing s m) :
    ∃ i point, s.At i (.sessionRefreshed point) := by
  obtain ⟨config, p, hat⟩ := h
  obtain ⟨_, task, hp, hfinally, k, hkind⟩ := hblocked.next hs.typed.heap hat
  obtain rfl := Task.eq_refreshFinally hkind
  obtain ⟨_, task, -, hrefresh, hkind⟩ := hblocked.next hs.typed.heap hfinally
  obtain ⟨point, rfl⟩ := Task.eq_refresh hkind
  obtain ⟨_, task, -, hnext, hkind⟩ := hblocked.next hs.typed.heap hrefresh
  cases point with
  | posting post =>
      obtain ⟨config', point, rfl, hurl, -⟩ := Task.eq_request hkind
      cases point with
      | sent => exact absurd hnext (hanswered _ _)
      | refreshing | retrying | losing => exact absurd hurl (hs.posts hnext nofun)
  | handling handler =>
      obtain ⟨point, rfl⟩ := Task.eq_sessionRefreshed hkind
      exact ⟨_, point, hnext⟩

omit hanswered in
/-- A navigation waits for the bootstrap. -/
theorem guarding_of_navigate {n : Nat} {target : Route} {point : NavigationPoint}
    (hat : s.At n (.navigate target point)) :
    ∃ b, point = .guarding (some b) ∧ s.bootstrapPromise = some b := by
  obtain ⟨p, task, hp, hnext, hexpects⟩ := hblocked.next hs.typed.heap hat
  cases point with
  | starting | finishing => cases hp
  | guarding bootstrapped =>
      cases bootstrapped with
      | none => cases hp
      | some b =>
          cases hp
          obtain ⟨k, hkind⟩ := hexpects
          obtain rfl := Task.eq_bootstrapFinally hkind
          exact ⟨_, rfl, hs.booted.only hnext⟩

omit hanswered in
/-- Who has lost the session is ready, so the navigation to the login goes on. -/
theorem not_awaits_navigate_of_ready (hready : Ready s) {i : Nat} {task : Task}
    (hat : s.At i task) (hexpects : ∀ k, task.expects k → k = .navigate) : False := by
  obtain ⟨_, task', -, hnext, hkind⟩ := hblocked.next hs.typed.heap hat
  obtain ⟨target, point, rfl⟩ := Task.eq_navigate (hexpects _ hkind)
  obtain ⟨_, -, hset⟩ := hs.guarding_of_navigate hblocked hnext
  cases hset.symm.trans hready.2

omit hanswered in
theorem not_lost {i n : Nat} (hat : s.At i (.authenticationLost n)) : False :=
  hs.not_awaits_navigate_of_ready hblocked (hs.booted.lost hat) hat fun _ h => h

omit hanswered in
theorem not_failing {i n : Nat} (hat : s.At i (.sessionRefreshed (.failing n))) : False :=
  hs.not_awaits_navigate_of_ready hblocked (hs.booted.failing hat) hat fun _ h => h

omit hanswered in
theorem not_losing {i : Nat} {config : Config} {notified : Option Nat}
    (hat : s.At i (.request config (.losing notified))) : False := by
  obtain ⟨_, task, -, hnext, hkind⟩ := hblocked.next hs.typed.heap hat
  obtain ⟨n, rfl⟩ := Task.eq_authenticationLost hkind
  exact hs.not_lost hblocked hnext

/-- Every request that is left waits for the refresh. -/
theorem refreshing_of_request {i : Nat} {config : Config} {point : RequestPoint}
    (hat : s.At i (.request config point)) : Refreshing s i := by
  cases point with
  | sent => exact absurd hat (hanswered i config)
  | refreshing p => exact ⟨config, p, hat⟩
  | losing notified => exact (hs.not_losing hblocked hat).elim
  | retrying n =>
      obtain ⟨_, task, -, hnext, j, hkind⟩ := hblocked.next hs.typed.heap hat
      obtain ⟨config', point, rfl, -, hretry⟩ := Task.eq_request hkind
      cases point with
      | sent => exact absurd hnext (hanswered _ _)
      | losing notified => exact (hs.not_losing hblocked hnext).elim
      | refreshing p => cases hretry.symm.trans (hs.flight.waiting hnext).2.1
      | retrying n' => cases hretry.symm.trans (hs.retries hnext)

variable (huntangled : Untangled s)

include huntangled

/-- The handler would have to wait for a request that waits for the refresh. -/
theorem not_handler {i : Nat} {point : HandlerPoint} (hat : s.At i (.sessionRefreshed point)) :
    False := by
  cases point with
  | failing n => exact hs.not_failing hblocked hat
  | restoring f =>
      obtain ⟨_, task, hp, hstore, k, hkind⟩ := hblocked.next hs.typed.heap hat
      cases hp
      obtain rfl := Task.eq_storeFinally hkind
      obtain ⟨_, task, hp, hrefresh, m, hkind⟩ := hblocked.next hs.typed.heap hstore
      cases hp
      obtain rfl := Task.eq_storeRefresh hkind
      obtain ⟨_, task, hp, hme, hkind⟩ := hblocked.next hs.typed.heap hrefresh
      cases hp
      obtain ⟨config, point, rfl, -⟩ := Task.eq_request hkind
      exact huntangled m (.inl ⟨i, f, hat, k, State.At.is hstore, State.At.is hrefresh⟩)
        (hs.refreshing_of_request hanswered hblocked hme)
  | navigating n =>
      obtain ⟨_, task, hp, hnav, hkind⟩ := hblocked.next hs.typed.heap hat
      cases hp
      obtain ⟨target, point, rfl⟩ := Task.eq_navigate hkind
      obtain ⟨b, rfl, -⟩ := hs.guarding_of_navigate hblocked hnav
      obtain ⟨_, task, hp, hboot, k, hkind⟩ := hblocked.next hs.typed.heap hnav
      cases hp
      obtain rfl := Task.eq_bootstrapFinally hkind
      obtain ⟨_, task, hp, hpending, m, hkind⟩ := hblocked.next hs.typed.heap hboot
      cases hp
      obtain rfl := Task.eq_bootstrap hkind
      obtain ⟨_, task, hp, hme, hkind⟩ := hblocked.next hs.typed.heap hpending
      cases hp
      obtain ⟨config, point, rfl, -⟩ := Task.eq_request hkind
      exact huntangled m (.inr ⟨n, target, b, ⟨i, hat⟩, hnav, k, State.At.is hboot,
        State.At.is hpending⟩) (hs.refreshing_of_request hanswered hblocked hme)

theorem not_request {i : Nat} {config : Config} {point : RequestPoint}
    (hat : s.At i (.request config point)) : False := by
  obtain ⟨j, handler, hhandler⟩ := hs.handler_of_refreshing hanswered hblocked
    (hs.refreshing_of_request hanswered hblocked hat)
  exact hs.not_handler hanswered hblocked huntangled hhandler

theorem not_awaits_request {i : Nat} {task : Task} (hat : s.At i task)
    (h : ∀ k, task.expects k → ∃ url retryOf, k = .request url retryOf) : False := by
  obtain ⟨_, task', -, hnext, hkind⟩ := hblocked.next hs.typed.heap hat
  obtain ⟨url, retryOf, hrequest⟩ := h _ hkind
  obtain ⟨config, point, rfl, -⟩ := Task.eq_request hrequest
  exact hs.not_request hanswered hblocked huntangled hnext

theorem not_storeFinally {i k : Nat} (hat : s.At i (.storeFinally k)) : False := by
  obtain ⟨_, task, -, hnext, m, hkind⟩ := hblocked.next hs.typed.heap hat
  obtain rfl := Task.eq_storeRefresh hkind
  exact hs.not_awaits_request hanswered hblocked huntangled hnext fun _ h => ⟨_, _, h⟩

theorem not_awaits_store {i : Nat} {task : Task} (hat : s.At i task)
    (h : ∀ k, task.expects k → ∃ pending, k = .storeFinally pending) : False := by
  obtain ⟨_, task', -, hnext, hkind⟩ := hblocked.next hs.typed.heap hat
  obtain ⟨pending, hstore⟩ := h _ hkind
  obtain rfl := Task.eq_storeFinally hstore
  exact hs.not_storeFinally hanswered hblocked huntangled hnext

theorem not_bootstrapFinally {i k : Nat} (hat : s.At i (.bootstrapFinally k)) : False := by
  obtain ⟨_, task, -, hnext, m, hkind⟩ := hblocked.next hs.typed.heap hat
  obtain rfl := Task.eq_bootstrap hkind
  exact hs.not_awaits_request hanswered hblocked huntangled hnext fun _ h => ⟨_, _, h⟩

theorem not_refresh {i : Nat} {point : RefreshPoint} (hat : s.At i (.refresh point)) : False := by
  cases point with
  | posting post =>
      exact hs.not_awaits_request hanswered hblocked huntangled hat fun _ h => ⟨_, _, h⟩
  | handling handler =>
      obtain ⟨_, task, -, hnext, hkind⟩ := hblocked.next hs.typed.heap hat
      obtain ⟨point, rfl⟩ := Task.eq_sessionRefreshed hkind
      exact hs.not_handler hanswered hblocked huntangled hnext

/-- So nobody is suspended. -/
theorem not_pending (i : Nat) : ¬Heap.Pending s.promises i := by
  rintro ⟨task, hat⟩
  cases task with
  | request config point => exact hs.not_request hanswered hblocked huntangled hat
  | refresh point => exact hs.not_refresh hanswered hblocked huntangled hat
  | refreshFinally k =>
      obtain ⟨_, task, -, hnext, hkind⟩ := hblocked.next hs.typed.heap hat
      obtain ⟨point, rfl⟩ := Task.eq_refresh hkind
      exact hs.not_refresh hanswered hblocked huntangled hnext
  | sessionRefreshed point => exact hs.not_handler hanswered hblocked huntangled hat
  | authenticationLost n => exact hs.not_lost hblocked hat
  | storeRefresh m | bootstrap m | logout m =>
      exact hs.not_awaits_request hanswered hblocked huntangled hat fun _ h => ⟨_, _, h⟩
  | storeFinally k => exact hs.not_storeFinally hanswered hblocked huntangled hat
  | bootstrapFinally k => exact hs.not_bootstrapFinally hanswered hblocked huntangled hat
  | navigate target point =>
      obtain ⟨b, rfl, hset⟩ := hs.guarding_of_navigate hblocked hat
      obtain ⟨k, hboot⟩ := hs.booted.pending hset
      exact hs.not_bootstrapFinally hanswered hblocked huntangled hboot
  | login point =>
      cases point with
      | preparing csrf | posting post =>
          exact hs.not_awaits_request hanswered hblocked huntangled hat fun _ h => ⟨_, _, h⟩
      | restoring f =>
          exact hs.not_awaits_store hanswered hblocked huntangled hat fun _ h => h
  | changePassword point =>
      cases point with
      | posting post =>
          exact hs.not_awaits_request hanswered hblocked huntangled hat fun _ h => ⟨_, _, h⟩
      | restoring f =>
          exact hs.not_awaits_store hanswered hblocked huntangled hat fun _ h => h

end Sound

/-! ### Runs -/

/-- Once every request has its answer and no call can go on, nobody waits; and no
handler waits for a request that waits for the refresh. -/
structure DeadlockFree (s : State) : Prop where
  settled : Answered s → Idle s → ∀ i, ¬Heap.Pending s.promises i
  untangled : Untangled s

/-- Every step of the run is clear. -/
def ClearRun (es : List Event) : Prop :=
  ∀ es₁ e es₂ s, es = es₁ ++ e :: es₂ → run next .init es₁ = some s → Clear s e

/-- Where the refresh is not made to wait for itself, nobody waits for ever. -/
theorem deadlockFree_of_clear (es : List Event) (hclear : ClearRun es) :
    ∀ es₁ es₂ s, es = es₁ ++ es₂ → run next .init es₁ = some s → DeadlockFree s := by
  intro es₁ es₂ s hes hrun
  have hinv : Sound s ∧ ∀ es₂, es = es₁ ++ es₂ → Untangled s := by
    refine run_induction (I := fun es₁ s => Sound s ∧ ∀ es₂, es = es₁ ++ es₂ → Untangled s)
      ⟨.init, fun _ _ => .init⟩ ?_ hrun
    rintro es₁ s e t hrun ⟨hsound, huntangled⟩ hstep
    refine ⟨hsound.next hstep, fun es₂ hes => ?_⟩
    rw [List.append_assoc] at hes
    exact (huntangled _ hes).next hsound.typed (hclear es₁ e es₂ s hes hrun) hstep
  have huntangled := hinv.2 es₂ hes
  exact ⟨fun hanswered hidle => hinv.1.not_pending hanswered (hinv.1.blocked hanswered hidle)
    huntangled, huntangled⟩

namespace Sample

/-- There is no handler yet. -/
def handlerless (s : State) : Bool := s.promises.all fun x => x.task.kind != .sessionRefreshed

/-- Without a bootstrap, a 401 comes before the first handler, and the first handler
before any refresh of the store. -/
def plain (s : State) (e : Event) : Bool :=
  s.bootstrapPromise.isNone &&
    match e with
    | .call _ | .respond _ none => true
    | .respond _ (some r) => r.status != 401 || handlerless s
    | .resume i _ => s.storePromise.isNone || s.promises[i]?.all fun x => x.task.kind != .refresh

def plainRun : State → List Event → Bool
  | _, [] => true
  | s, e :: es => plain s e && (next s e).all fun t => plainRun t es

theorem not_awaits_of_handlerless {s : State} (h : handlerless s = true) (m : Nat) :
    ¬HandlerAwaits s m := by
  have hnone : ∀ {i point}, ¬s.At i (.sessionRefreshed point) := by
    intro i point hat
    have hkind := List.all_eq_true.mp h _ (List.mem_of_getElem? hat)
    cases hkind
  rintro (⟨i, f, hat, -⟩ | ⟨n, target, b, ⟨i, hat⟩, -⟩)
  · exact hnone hat
  · exact hnone hat

theorem clear_of_plain {s : State} {e : Event} (h : plain s e = true) : Clear s e := by
  obtain ⟨hboot, hevent⟩ := Bool.and_eq_true_iff.mp h
  refine ⟨fun m hfirst => ?_, fun hrestores f m hset => ?_, fun n target b m _ _ _ hset => ?_⟩
  · obtain ⟨config, r, rfl, -, hstatus, -⟩ := hfirst
    refine not_awaits_of_handlerless ?_ m
    simpa [hstatus] using hevent
  · obtain ⟨i, current, post, r, rfl, hat, -⟩ := hrestores
    have hget : s.promises[i]? = some ⟨.refresh (.posting post), none⟩ := hat
    simp [hset, hget, Task.kind] at hevent
  · rw [hset] at hboot
    cases hboot

theorem clear_of_plainRun {s : State} {es : List Event} (h : plainRun s es = true) :
    ∀ es₁ e es₂ t, es = es₁ ++ e :: es₂ → run next s es₁ = some t → Clear t e := by
  intro es₁
  induction es₁ generalizing s es with
  | nil =>
      rintro e es₂ t rfl hrun
      cases hrun
      exact clear_of_plain (Bool.and_eq_true_iff.mp h).1
  | cons e' es₁ ih =>
      rintro e es₂ t rfl hrun
      obtain ⟨u, hu, hrest⟩ := Option.bind_eq_some_iff.mp hrun
      have hplain := (Bool.and_eq_true_iff.mp h).2
      rw [hu] at hplain
      exact ih hplain e es₂ t rfl hrest

end Sample

/-- The session expires, is refreshed and restored, and the request is retried. -/
theorem deadlockFree_of_clear_expiry :
    ClearRun Sample.firstExpiry ∧ ∀ s, run next .init Sample.firstExpiry = some s → DeadlockFree s := by
  have hclear : ClearRun Sample.firstExpiry := Sample.clear_of_plainRun (by decide +kernel)
  refine ⟨hclear, fun s hrun => ?_⟩
  exact deadlockFree_of_clear Sample.firstExpiry hclear Sample.firstExpiry [] s
    (List.append_nil _).symm hrun

namespace Sample

/-- The `GET /auth/me` of the handler finds the session expired. -/
def nestedExpiry : List Event :=
  [.call (.request page), .respond 0 expired, .respond 1 refreshed, .resume 2 true, .respond 4 expired]

end Sample

/-- The handler waits for its request, the request for the refresh, and the refresh
for the handler. -/
theorem nested_expiry_deadlocks : ¬∀ es s, run next .init es = some s → DeadlockFree s := by
  have hrun : (run next .init Sample.nestedExpiry).map (fun s => decide
      ((∀ x ∈ s.promises, x.result = none → x.task.awaits ≠ none ∧ s.ready x.task = none) ∧
        s.promises[0]?.map Activation.result = some none)) = some true := by
    decide +kernel
  obtain ⟨s, hs, hchecks⟩ := Option.map_eq_some_iff.mp hrun
  obtain ⟨hstuck, hfirst⟩ := of_decide_eq_true hchecks
  obtain ⟨⟨task, result⟩, hget, rfl⟩ := Option.map_eq_some_iff.mp hfirst
  intro hclaim
  have hanswered : Answered s := fun i config hat =>
    (hstuck _ (List.mem_of_getElem? hat) rfl).1 rfl
  have hidle : Idle s := by
    intro i current
    simp only [next]
    split
    · rename_i task' hat
      rw [(hstuck _ (List.mem_of_getElem? hat) rfl).2]
      rfl
    · rfl
  exact (hclaim _ s hs).settled hanswered hidle 0 ⟨task, hget⟩

end SuperBoss.Web
