import SuperBoss.Web.Client

/-!
At most one `POST /auth/refresh` of the page's life, and at most one retry for
each request. `finally` gives a new promise, so the variable that was set to it
is never equal to the pending one, and never cleared.
-/

namespace SuperBoss.Web

open SuperBoss.Core
open SuperBoss.Library
open SuperBoss.Library.Promises
open SuperBoss.Library.Transition

namespace State

def Is (s : State) (i : Nat) (k : Kind) : Prop := Heap.Is code s.promises i k

def At (s : State) (i : Nat) (task : Task) : Prop := Heap.At s.promises i task

theorem At.is {s : State} {i : Nat} {task : Task} (h : s.At i task) : s.Is i task.kind :=
  Heap.At.is h

/-- A call that belongs to the refresh of the client. -/
def OfRefresh : Kind → Prop
  | .request url _ => url = .refresh
  | .refresh | .refreshFinally _ => True
  | _ => False

/-- A call that is neither, and no retry either. -/
def Ordinary : Kind → Prop
  | .request url retryOf => url ≠ .refresh ∧ retryOf = none
  | .refresh | .refreshFinally _ => False
  | _ => True

/-- A step that starts ordinary calls only, and leaves the refresh alone. -/
structure Calm (s t : State) : Prop where
  refreshPromise : t.refreshPromise = s.refreshPromise
  grows : Heap.Grows code s.promises t.promises
  longer : s.promises.length ≤ t.promises.length
  fresh : ∀ {i k}, t.Is i k → s.Is i k ∨ (Ordinary k ∧ s.promises.length ≤ i)
  points : ∀ {i config point}, t.At i (.request config point) →
    s.At i (.request config point) ∨ (s.promises.length ≤ i ∧ config.retryOf = none ∧ point = .sent)

namespace Calm

variable {s t u : State}

theorem refl (s : State) : Calm s s :=
  ⟨rfl, .refl _, le_rfl, fun h => .inl h, fun h => .inl h⟩

theorem trans (h : Calm s t) (h' : Calm t u) : Calm s u where
  refreshPromise := h'.refreshPromise.trans h.refreshPromise
  grows := h.grows.trans h'.grows
  longer := h.longer.trans h'.longer
  fresh hk := by
    rcases h'.fresh hk with hk | ⟨hk, hi⟩
    · exact h.fresh hk
    · exact .inr ⟨hk, h.longer.trans hi⟩
  points hat := by
    rcases h'.points hat with hat | ⟨hi, hrest⟩
    · exact h.points hat
    · exact .inr ⟨h.longer.trans hi, hrest⟩

/-- Variables that the promises do not depend on. -/
theorem of_eq (hp : t.promises = s.promises) (hr : t.refreshPromise = s.refreshPromise) :
    Calm s t := by
  obtain ⟨promises, refreshPromise, lost, store, boot, booted, user, route⟩ := t
  cases hp
  cases hr
  exact ⟨rfl, .refl _, le_rfl, fun h => .inl h, fun h => .inl h⟩

/-- A task that an ordinary call starts with. -/
def Starts (task : Task) : Prop :=
  Ordinary task.kind ∧ ∀ config point, task = .request config point →
    config.retryOf = none ∧ point = .sent

theorem spawn (s : State) {task : Task} (h : Starts task) : Calm s (s.spawn task).2 where
  refreshPromise := rfl
  grows := Heap.grows_spawn _ _
  longer := by
    show s.promises.length ≤ (s.promises ++ [_]).length
    rw [List.length_append]
    exact Nat.le_add_right _ _
  fresh hk := by
    rcases Heap.is_spawn_iff.mp hk with hk | ⟨rfl, rfl⟩
    · exact .inl hk
    · exact .inr ⟨h.1, le_rfl⟩
  points hat := by
    rcases Heap.at_spawn_iff.mp hat with hat | ⟨rfl, htask⟩
    · exact .inl hat
    · exact .inr ⟨le_rfl, h.2 _ _ htask.symm⟩

theorem settle (s : State) (i : Nat) (r : Settlement) : Calm s (s.settle i r) where
  refreshPromise := rfl
  grows := Heap.grows_settle _ _ _
  longer := (List.length_modify ..).ge
  fresh hk := .inl (Heap.is_settle_iff.mp hk)
  points hat := .inl (Heap.at_settle_iff.mp hat).2

theorem settle_of_eq (s t : State) (hp : t.promises = s.promises) (hr : t.refreshPromise = s.refreshPromise)
    (i : Nat) (r : Settlement) : Calm s (t.settle i r) := (of_eq hp hr).trans (settle t i r)

theorem advance {i : Nat} {task : Task} (hk : s.Is i task.kind)
    (htask : ∀ config point, task ≠ .request config point) : Calm s (s.advance i task) where
  refreshPromise := rfl
  grows := Heap.grows_advance hk
  longer := (List.length_modify ..).ge
  fresh hk' := .inl ((Heap.is_advance_iff hk).mp hk')
  points hat := by
    rcases Heap.at_advance hat with ⟨-, heq, -⟩ | ⟨-, hat⟩
    · exact absurd heq.symm (htask _ _)
    · exact .inl hat

theorem send (s : State) {url : Url} (h : url ≠ .refresh) : Calm s (s.send url).2 :=
  spawn s ⟨⟨h, rfl⟩, fun _ _ heq => by
    cases heq
    exact ⟨rfl, rfl⟩⟩

/-- A call that is no request. -/
theorem starts_of_kind {task : Task} (h : Ordinary task.kind)
    (hne : ∀ config point, task ≠ .request config point) : Starts task :=
  ⟨h, fun config point heq => absurd heq (hne config point)⟩

theorem replace (s : State) (target : Route) : Calm s (s.replace target).2 :=
  spawn s (starts_of_kind trivial fun _ _ => nofun)

theorem bootstrap (s : State) : Calm s s.bootstrap.2 := by
  unfold State.bootstrap
  split
  · exact .refl s
  · split
    · exact .refl s
    · refine (((send s (by decide)).trans (spawn _ ?_)).trans (spawn _ ?_)).trans (of_eq rfl rfl)
      · exact starts_of_kind trivial fun _ _ => nofun
      · exact starts_of_kind trivial fun _ _ => nofun

theorem storeRefresh (s : State) : Calm s s.storeRefresh.2 := by
  unfold State.storeRefresh
  split
  · exact .refl s
  · refine (((send s (by decide)).trans (spawn _ ?_)).trans (spawn _ ?_)).trans (of_eq rfl rfl)
    · exact starts_of_kind trivial fun _ _ => nofun
    · exact starts_of_kind trivial fun _ _ => nofun

theorem notifyLost (s : State) : Calm s s.notifyLost.2 := by
  unfold State.notifyLost
  split
  · exact .refl s
  · unfold State.lostHandler
    simp only
    split
    · have hlost : Calm s { s with lostNotified := true }.markAuthenticationLost := of_eq rfl rfl
      exact (hlost.trans (replace _ .login)).trans
        (spawn _ (starts_of_kind trivial fun _ _ => nofun))
    · exact of_eq rfl rfl

theorem refreshedHandler (s : State) : Calm s s.refreshedHandler.2 :=
  (storeRefresh s).trans (spawn _ (starts_of_kind trivial fun _ _ => nofun))

/-- A call that is no request goes on after a calm step. -/
theorem then_advance (h : Calm s t) {i : Nat} {task task' : Task} (hat : s.At i task)
    (hkind : task'.kind = task.kind) (htask : ∀ config point, task' ≠ .request config point) :
    Calm s (t.advance i task') := by
  refine h.trans (advance ?_ htask)
  rw [hkind]
  exact h.grows i _ hat.is

theorem resumeRefresh {i : Nat} {point : RefreshPoint} (hat : s.At i (.refresh point))
    (r : Settlement) : Calm s (s.resumeRefresh i r point) := by
  cases point with
  | posting post =>
      unfold State.resumeRefresh
      simp only
      split
      · split
        · exact (refreshedHandler s).then_advance hat rfl fun _ _ => nofun
        · exact settle s i _
      · exact settle s i _
      · exact settle s i _
  | handling handler =>
      unfold State.resumeRefresh
      simp only
      split
      · exact settle_of_eq s { s with lostNotified := false } rfl rfl i _
      · exact settle s i _

theorem resumeHandler {i : Nat} {point : HandlerPoint} (hat : s.At i (.sessionRefreshed point))
    (r : Settlement) : Calm s (s.resumeHandler i r point) := by
  cases point with
  | restoring restored =>
      unfold State.resumeHandler
      simp only
      split
      · split
        · exact (replace s _).then_advance hat rfl fun _ _ => nofun
        · exact settle s i _
      · split
        · exact (replace s _).then_advance hat rfl fun _ _ => nofun
        · exact settle s i _
  | failing | navigating => exact settle s i _

theorem resumeNavigation {i : Nat} {target : Route} {point : NavigationPoint}
    (hat : s.At i (.navigate target point)) (current : Bool) :
    Calm s (s.resumeNavigation i current target point) := by
  cases point with
  | starting =>
      unfold State.resumeNavigation
      simp only
      split
      · exact (refl s).then_advance hat rfl fun _ _ => nofun
      · exact (bootstrap s).then_advance hat rfl fun _ _ => nofun
  | guarding bootstrapped =>
      unfold State.resumeNavigation
      simp only
      split
      · exact (refl s).then_advance hat rfl fun _ _ => nofun
      · exact (refl s).then_advance hat rfl fun _ _ => nofun
  | finishing =>
      exact settle_of_eq s
        { s with currentRoute := if current then target else s.currentRoute } rfl rfl i _

theorem resumeLogin {i : Nat} {point : LoginPoint} (hat : s.At i (.login point)) (r : Settlement) :
    Calm s (s.resumeLogin i r point) := by
  cases point with
  | preparing csrf =>
      unfold State.resumeLogin
      simp only
      split
      · exact (send s (by decide)).then_advance hat rfl fun _ _ => nofun
      · exact settle s i _
  | posting post =>
      unfold State.resumeLogin
      simp only
      split
      · exact (storeRefresh s).then_advance hat rfl fun _ _ => nofun
      · exact settle s i _
  | restoring restored => exact settle s i _

theorem resumeChange {i : Nat} {point : ChangePoint} (hat : s.At i (.changePassword point))
    (r : Settlement) : Calm s (s.resumeChange i r point) := by
  cases point with
  | posting post =>
      unfold State.resumeChange
      simp only
      split
      · exact (storeRefresh s).then_advance hat rfl fun _ _ => nofun
      · exact settle s i _
  | restoring restored => exact settle s i _

theorem call {c : Call} (h : s.call c = some t) : Calm s t := by
  cases c with
  | request url =>
      simp only [State.call] at h
      split at h
      · cases h
      · cases h
        exact send s ‹_›
  | login =>
      cases h
      exact (send s (by decide)).trans (spawn _ (starts_of_kind trivial fun _ _ => nofun))
  | changePassword =>
      cases h
      exact (send s (by decide)).trans (spawn _ (starts_of_kind trivial fun _ _ => nofun))
  | logout =>
      cases h
      exact (send s (by decide)).trans (spawn _ (starts_of_kind trivial fun _ _ => nofun))
  | navigate target =>
      cases h
      exact replace s target

end Calm

/-- The refresh is unique, and so is the retry of a request. -/
structure Flight (s : State) : Prop where
  unset : s.refreshPromise = none → ∀ {i k}, s.Is i k → ¬OfRefresh k
  posts : ∀ {i j r r'}, s.Is i (.request .refresh r) → s.Is j (.request .refresh r') → i = j
  finals : ∀ {i p}, s.Is i (.refreshFinally p) → s.refreshPromise = some i ∧ p ≠ i
  waiting : ∀ {i config p}, s.At i (.request config (.refreshing p)) →
    config.url ≠ .refresh ∧ config.retryOf = none ∧ config.retried = true
  reissued : ∀ {i config}, s.At i (.request config .sent) → config.retryOf ≠ none →
    config.retried = true
  retries : ∀ {i j j' url url'}, s.Is j (.request url (some i)) → s.Is j' (.request url' (some i)) →
    j = j'
  original : ∀ {i j url}, s.Is j (.request url (some i)) → ∃ url', s.Is i (.request url' none)
  passed : ∀ {i j url config point}, s.Is j (.request url (some i)) →
    s.At i (.request config point) → point ≠ .sent ∧ ∀ p, point ≠ .refreshing p

theorem flight_init : Flight init := by
  refine ⟨fun _ _ _ hk => ?_, fun hk => ?_, fun hk => ?_, fun hat => ?_, fun hat => ?_, fun hk => ?_,
    fun hk => ?_, fun hk => ?_⟩
  all_goals first | obtain ⟨x, hx, -⟩ := hk; cases hx | cases hat

theorem ofRefresh_or {k : Kind} (h : Ordinary k) : ¬OfRefresh k := by
  cases k with
  | request url retryOf => exact h.1
  | refresh | refreshFinally => exact absurd h id
  | sessionRefreshed | authenticationLost | storeRefresh | storeFinally | bootstrap
  | bootstrapFinally | navigate | login | changePassword | logout => exact id

namespace Flight

variable {s t : State}

/-- An old call of the refresh, or an old retry. -/
theorem old_refresh (h : Calm s t) {i : Nat} {k : Kind} (hk : t.Is i k) (href : OfRefresh k) :
    s.Is i k := by
  rcases h.fresh hk with hk | ⟨hord, -⟩
  · exact hk
  · exact absurd href (ofRefresh_or hord)

theorem old_retry (h : Calm s t) {i j : Nat} {url : Url} (hk : t.Is j (.request url (some i))) :
    s.Is j (.request url (some i)) := by
  rcases h.fresh hk with hk | ⟨hord, -⟩
  · exact hk
  · cases hord.2

theorem calm (hs : Flight s) (h : Calm s t) : Flight t where
  unset hnone i k hk href :=
    hs.unset (h.refreshPromise ▸ hnone) (old_refresh h hk href) href
  posts hi hj := hs.posts (old_refresh h hi rfl) (old_refresh h hj rfl)
  finals hi := by
    rw [h.refreshPromise]
    exact hs.finals (old_refresh h hi trivial)
  waiting hat := by
    rcases h.points hat with hat | ⟨-, -, hpoint⟩
    · exact hs.waiting hat
    · cases hpoint
  reissued hat hretry := by
    rcases h.points hat with hat | ⟨-, hnone, -⟩
    · exact hs.reissued hat hretry
    · exact absurd hnone hretry
  retries hj hj' := hs.retries (old_retry h hj) (old_retry h hj')
  original hj := by
    obtain ⟨url', hi⟩ := hs.original (old_retry h hj)
    exact ⟨url', h.grows _ _ hi⟩
  passed hj hat := by
    have hj := old_retry h hj
    rcases h.points hat with hat | ⟨hi, -⟩
    · exact hs.passed hj hat
    · obtain ⟨url', hold⟩ := hs.original hj
      exact absurd (Heap.Is.lt_length hold) (not_lt.mpr hi)

/-- A request that is not retried any more. -/
theorem advance_past (hs : Flight s) {i : Nat} {config : Config} {point : RequestPoint}
    (hk : s.Is i (.request config.url config.retryOf)) (hsent : point ≠ .sent)
    (hpoint : ∀ p, point ≠ .refreshing p) : Flight (s.advance i (.request config point)) := by
  have his : ∀ {j k}, (s.advance i (.request config point)).Is j k ↔ s.Is j k :=
    Heap.is_advance_iff hk
  refine ⟨fun hnone j k hj => hs.unset hnone (his.mp hj),
    fun hj hj' => hs.posts (his.mp hj) (his.mp hj'), fun hj => hs.finals (his.mp hj),
    fun hat => ?_, fun hat => ?_, fun hj hj' => hs.retries (his.mp hj) (his.mp hj'),
    fun hj => ?_, fun hj hat => ?_⟩
  · rcases Heap.at_advance hat with ⟨-, heq, -⟩ | ⟨-, hat⟩
    · cases heq
      exact absurd rfl (hpoint _)
    · exact hs.waiting hat
  · rcases Heap.at_advance hat with ⟨-, heq, -⟩ | ⟨-, hat⟩
    · cases heq
      exact absurd rfl hsent
    · exact hs.reissued hat
  · obtain ⟨url', hi⟩ := hs.original (his.mp hj)
    exact ⟨url', his.mpr hi⟩
  · rcases Heap.at_advance hat with ⟨-, heq, -⟩ | ⟨-, hat⟩
    · cases heq
      exact ⟨hsent, hpoint⟩
    · exact hs.passed (his.mp hj) hat

theorem lose (hs : Flight s) {i : Nat} {config : Config} {point : RequestPoint}
    (hat : s.At i (.request config point)) : Flight (s.lose i config) := by
  have hcalm := Calm.notifyLost s
  exact (hs.calm hcalm).advance_past (hcalm.grows _ _ hat.is) nofun fun _ => nofun

/-- The first refreshable 401 of a request. -/
theorem advance_waiting (hs : Flight s) {i p : Nat} {config : Config}
    (hat : s.At i (.request config .sent)) (hurl : config.url ≠ .refresh)
    (hfirst : config.retryOf = none) :
    Flight (s.advance i (.request { config with retried := true } (.refreshing p))) := by
  have his : ∀ {j k}, (s.advance i
      (.request { config with retried := true } (.refreshing p))).Is j k ↔ s.Is j k :=
    Heap.is_advance_iff hat.is
  refine ⟨fun hnone j k hj => hs.unset hnone (his.mp hj),
    fun hj hj' => hs.posts (his.mp hj) (his.mp hj'), fun hj => hs.finals (his.mp hj),
    fun hat' => ?_, fun hat' => ?_, fun hj hj' => hs.retries (his.mp hj) (his.mp hj'),
    fun hj => ?_, fun hj hat' => ?_⟩
  · rcases Heap.at_advance hat' with ⟨-, heq, -⟩ | ⟨-, hat'⟩
    · cases heq
      exact ⟨hurl, hfirst, rfl⟩
    · exact hs.waiting hat'
  · rcases Heap.at_advance hat' with ⟨-, heq, -⟩ | ⟨-, hat'⟩
    · cases heq
    · exact hs.reissued hat'
  · obtain ⟨url', hi⟩ := hs.original (his.mp hj)
    exact ⟨url', his.mpr hi⟩
  · rcases Heap.at_advance hat' with ⟨rfl, -, -⟩ | ⟨-, hat'⟩
    · exact absurd rfl (hs.passed (his.mp hj) hat).1
    · exact hs.passed (his.mp hj) hat'

end Flight

/-- The calls that a first refresh starts. -/
theorem refresh_promises {s : State} (hnone : s.refreshPromise = none) :
    s.refresh.2.promises = ((s.promises.spawn (.request ⟨.refresh, false, none⟩ .sent)).spawn
        (.refresh (.posting s.promises.length))).spawn
          (.refreshFinally (s.promises.length + 1)) ∧
      s.refresh.2.refreshPromise = some (s.promises.length + 2) := by
  unfold State.refresh
  rw [hnone]
  simp [State.send, State.spawn, Heap.spawn]

theorem refresh_is {s : State} (hnone : s.refreshPromise = none) {j : Nat} {k : Kind}
    (hk : s.refresh.2.Is j k) : s.Is j k ∨
      (j = s.promises.length ∧ k = .request .refresh none) ∨
      (j = s.promises.length + 1 ∧ k = .refresh) ∨
      (j = s.promises.length + 2 ∧ k = .refreshFinally (s.promises.length + 1)) := by
  unfold State.Is at hk
  rw [(refresh_promises hnone).1] at hk
  rcases Heap.is_spawn_iff.mp hk with hk | ⟨hj, rfl⟩
  · rcases Heap.is_spawn_iff.mp hk with hk | ⟨hj, rfl⟩
    · rcases Heap.is_spawn_iff.mp hk with hk | ⟨hj, rfl⟩
      · exact .inl hk
      · exact .inr (.inl ⟨hj, rfl⟩)
    · exact .inr (.inr (.inl ⟨hj.trans (by simp [Heap.spawn]), rfl⟩))
  · exact .inr (.inr (.inr ⟨hj.trans (by simp [Heap.spawn]), rfl⟩))

theorem refresh_at {s : State} (hnone : s.refreshPromise = none) {j : Nat} {task : Task}
    (hat : s.refresh.2.At j task) : s.At j task ∨
      (j = s.promises.length ∧ task = .request ⟨.refresh, false, none⟩ .sent) ∨
      task = .refresh (.posting s.promises.length) ∨
      task = .refreshFinally (s.promises.length + 1) := by
  unfold State.At at hat
  rw [(refresh_promises hnone).1] at hat
  rcases Heap.at_spawn_iff.mp hat with hat | ⟨-, rfl⟩
  · rcases Heap.at_spawn_iff.mp hat with hat | ⟨-, rfl⟩
    · rcases Heap.at_spawn_iff.mp hat with hat | ⟨hj, rfl⟩
      · exact .inl hat
      · exact .inr (.inl ⟨hj, rfl⟩)
    · exact .inr (.inr (.inl rfl))
  · exact .inr (.inr (.inr rfl))

theorem grows_refresh (s : State) : Heap.Grows code s.promises s.refresh.2.promises := by
  cases hnone : s.refreshPromise with
  | some p =>
      unfold State.refresh
      rw [hnone]
      exact .refl _
  | none =>
      rw [(refresh_promises hnone).1]
      exact ((Heap.grows_spawn _ _).trans (Heap.grows_spawn _ _)).trans (Heap.grows_spawn _ _)

theorem refresh_old {s : State} (hsome : s.refreshPromise ≠ none) : s.refresh.2 = s := by
  unfold State.refresh
  cases hp : s.refreshPromise with
  | none => exact absurd hp hsome
  | some p => rfl

namespace Flight

variable {s t : State}

theorem refresh (hs : Flight s) : Flight s.refresh.2 := by
  by_cases hnone : s.refreshPromise = none
  · have hset := (refresh_promises hnone).2
    refine ⟨fun hunset => ?_, fun hi hj => ?_, fun hi => ?_, fun hat => ?_, fun hat hretry => ?_,
      fun hj hj' => ?_, fun hj => ?_, fun hj hat => ?_⟩
    · rw [hset] at hunset
      cases hunset
    · rcases refresh_is hnone hi with hi | ⟨rfl, -⟩ | ⟨-, hi⟩ | ⟨-, hi⟩
      · exact absurd rfl (hs.unset hnone hi)
      · rcases refresh_is hnone hj with hj | ⟨rfl, -⟩ | ⟨-, hj⟩ | ⟨-, hj⟩
        · exact absurd rfl (hs.unset hnone hj)
        · rfl
        · cases hj
        · cases hj
      · cases hi
      · cases hi
    · rcases refresh_is hnone hi with hi | ⟨-, hi⟩ | ⟨-, hi⟩ | ⟨rfl, hfinal⟩
      · exact absurd trivial (hs.unset hnone hi)
      · cases hi
      · cases hi
      · refine ⟨hset, fun heq => ?_⟩
        rw [Kind.refreshFinally.inj hfinal] at heq
        omega
    · rcases refresh_at hnone hat with hat | ⟨-, hat⟩ | hat | hat
      · exact hs.waiting hat
      · cases hat
      · cases hat
      · cases hat
    · rcases refresh_at hnone hat with hat | ⟨-, hat⟩ | hat | hat
      · exact hs.reissued hat hretry
      · cases hat
        exact absurd rfl hretry
      · cases hat
      · cases hat
    · rcases refresh_is hnone hj with hj | ⟨-, hj⟩ | ⟨-, hj⟩ | ⟨-, hj⟩
      · rcases refresh_is hnone hj' with hj' | ⟨-, hj'⟩ | ⟨-, hj'⟩ | ⟨-, hj'⟩
        · exact hs.retries hj hj'
        · cases hj'
        · cases hj'
        · cases hj'
      · cases hj
      · cases hj
      · cases hj
    · rcases refresh_is hnone hj with hj | ⟨-, hj⟩ | ⟨-, hj⟩ | ⟨-, hj⟩
      · obtain ⟨url', hi⟩ := hs.original hj
        exact ⟨url', grows_refresh s _ _ hi⟩
      · cases hj
      · cases hj
      · cases hj
    · rcases refresh_is hnone hj with hj | ⟨-, hj⟩ | ⟨-, hj⟩ | ⟨-, hj⟩
      · rcases refresh_at hnone hat with hat | ⟨rfl, -⟩ | hat | hat
        · exact hs.passed hj hat
        · obtain ⟨url', hi⟩ := hs.original hj
          exact absurd (Heap.Is.lt_length hi) (lt_irrefl _)
        · cases hat
        · cases hat
      · cases hj
      · cases hj
      · cases hj
  · rw [refresh_old hnone]
    exact hs

/-- A retry, after the refresh. -/
theorem retry (hs : Flight s) {i p n : Nat} {config : Config}
    (hat : s.At i (.request config (.refreshing p))) :
    Flight ((s.spawn (.request { config with retryOf := some i } .sent)).2.advance i
      (.request config (.retrying n))) := by
  obtain ⟨hurl, hfirst, hretried⟩ := hs.waiting hat
  have hi : s.Is i (.request config.url none) := by
    rw [← hfirst]
    exact hat.is
  have hspawned : Heap.Is code (s.promises.spawn (.request { config with retryOf := some i } .sent))
      i (code.kind (.request config (.retrying n))) := Heap.grows_spawn _ _ _ _ hat.is
  generalize ht : (s.spawn (.request { config with retryOf := some i } .sent)).2.advance i
    (.request config (.retrying n)) = t
  have hold : ∀ {j k}, s.Is j k → t.Is j k := by
    intro j k hk
    subst ht
    exact (Heap.is_advance_iff hspawned).mpr (Heap.grows_spawn _ _ _ _ hk)
  have his : ∀ {j k}, t.Is j k →
      s.Is j k ∨ (j = s.promises.length ∧ k = .request config.url (some i)) := by
    intro j k hk
    subst ht
    exact Heap.is_spawn_iff.mp ((Heap.is_advance_iff hspawned).mp hk)
  have hats : ∀ {j task}, t.At j task → (j = i ∧ task = .request config (.retrying n)) ∨
      (j ≠ i ∧ (s.At j task ∨ (j = s.promises.length ∧
        task = .request { config with retryOf := some i } .sent))) := by
    intro j task hat'
    subst ht
    rcases Heap.at_advance hat' with ⟨hj, htask, -⟩ | ⟨hj, hat'⟩
    · exact .inl ⟨hj, htask⟩
    · exact .inr ⟨hj, Heap.at_spawn_iff.mp hat'⟩
  have hset : t.refreshPromise = s.refreshPromise := by
    subst ht
    rfl
  have hnone : ∀ {j url}, ¬s.Is j (.request url (some i)) := fun hj =>
    (hs.passed hj hat).2 p rfl
  refine ⟨fun hunset j k hk href => ?_, fun hj hj' => ?_, fun hj => ?_, fun hat' => ?_,
    fun hat' hretry => ?_, fun hj hj' => ?_, fun hj => ?_, fun hj hat' => ?_⟩
  · rcases his hk with hk | ⟨-, rfl⟩
    · exact hs.unset (hset ▸ hunset) hk href
    · exact hurl href
  · rcases his hj with hj | ⟨-, heq⟩
    · rcases his hj' with hj' | ⟨-, heq⟩
      · exact hs.posts hj hj'
      · exact absurd (Kind.request.inj heq).1.symm hurl
    · exact absurd (Kind.request.inj heq).1.symm hurl
  · rcases his hj with hj | ⟨-, heq⟩
    · rw [hset]
      exact hs.finals hj
    · cases heq
  · rcases hats hat' with ⟨-, heq⟩ | ⟨-, hat' | ⟨-, heq⟩⟩
    · cases heq
    · exact hs.waiting hat'
    · cases heq
  · rcases hats hat' with ⟨-, heq⟩ | ⟨-, hat' | ⟨-, heq⟩⟩
    · cases heq
    · exact hs.reissued hat' hretry
    · cases heq
      exact hretried
  · rcases his hj with hj | ⟨rfl, heq⟩
    · rcases his hj' with hj' | ⟨-, heq⟩
      · exact hs.retries hj hj'
      · cases heq
        exact absurd hj hnone
    · cases heq
      rcases his hj' with hj' | ⟨rfl, -⟩
      · exact absurd hj' hnone
      · rfl
  · rcases his hj with hj | ⟨-, heq⟩
    · obtain ⟨url', hi'⟩ := hs.original hj
      exact ⟨url', hold hi'⟩
    · cases heq
      exact ⟨_, hold hi⟩
  · rcases hats hat' with ⟨-, heq⟩ | ⟨hne, hat' | ⟨rfl, heq⟩⟩
    · cases heq
      exact ⟨nofun, fun _ => nofun⟩
    · rcases his hj with hj | ⟨-, heq⟩
      · exact hs.passed hj hat'
      · cases heq
        exact absurd rfl hne
    · rcases his hj with hj | ⟨-, heq'⟩
      · obtain ⟨url', hi'⟩ := hs.original hj
        exact absurd (Heap.Is.lt_length hi') (lt_irrefl _)
      · cases heq'
        exact absurd rfl hne

/-- The answer to a request. -/
theorem respond (hs : Flight s) {i : Nat} {config : Config}
    (hat : s.At i (.request config .sent)) (answer : Option Response) :
    Flight (s.respond i config answer) := by
  unfold State.respond
  split
  · exact hs.calm (.settle s i _)
  · split
    · exact hs.calm (.settle s i _)
    · split
      · exact hs.calm (.settle s i _)
      · rename_i hurl
        split
        · exact hs.lose hat
        · rename_i hfirst
          have hretried : config.retried = false := by
            simp only [Bool.or_eq_true, not_or] at hfirst
            exact Bool.eq_false_iff.mpr hfirst.2
          have hretryOf : config.retryOf = none := by
            by_contra hretry
            rw [hs.reissued hat hretry] at hretried
            cases hretried
          have hat' : s.refresh.2.At i (.request config .sent) := by
            by_cases hnone : s.refreshPromise = none
            · unfold State.At
              rw [(refresh_promises hnone).1]
              exact Heap.at_spawn_iff.mpr (.inl (Heap.at_spawn_iff.mpr (.inl
                (Heap.at_spawn_iff.mpr (.inl hat)))))
            · rw [refresh_old hnone]
              exact hat
          exact hs.refresh.advance_waiting hat' (not_or.mp hurl).2 hretryOf

theorem resumeRequest (hs : Flight s) {i : Nat} {config : Config} {point : RequestPoint}
    (hat : s.At i (.request config point)) (r : Settlement) :
    Flight (s.resumeRequest i config r point) := by
  cases point with
  | sent => exact hs
  | refreshing p =>
      cases r with
      | resolved response => exact hs.retry hat
      | rejected => exact hs.lose hat
  | retrying p =>
      cases r with
      | resolved response => exact hs.calm (.settle s i _)
      | rejected => exact hs.lose hat
  | losing notified => exact hs.calm (.settle s i _)

/-- The variable is the derived promise, so comparing it with the pending one clears nothing. -/
theorem resumeFinally (hs : Flight s) {i pending : Nat} (hat : s.At i (.refreshFinally pending)) :
    (if s.refreshPromise = some pending then none else s.refreshPromise) = s.refreshPromise := by
  obtain ⟨hset, hne⟩ := hs.finals hat.is
  refine if_neg fun heq => hne ?_
  exact Option.some.inj (heq.symm.trans hset)

theorem resume (hs : Flight s) {i : Nat} {task : Task} (hat : s.At i task) (current : Bool)
    (r : Settlement) : Flight (s.resume i current r task) := by
  cases task with
  | request config point => exact hs.resumeRequest hat r
  | refresh point => exact hs.calm (.resumeRefresh hat r)
  | refreshFinally pending =>
      simp only [State.resume, hs.resumeFinally hat]
      exact hs.calm (.settle s i r)
  | sessionRefreshed point => exact hs.calm (.resumeHandler hat r)
  | authenticationLost navigation => exact hs.calm (.settle s i r)
  | storeRefresh me => exact hs.calm (.settle_of_eq s (s.setUser _) rfl rfl i _)
  | storeFinally pending => exact hs.calm (.settle_of_eq s { s with storePromise := none } rfl rfl i r)
  | bootstrap me => exact hs.calm (.settle_of_eq s (s.setUser _) rfl rfl i _)
  | bootstrapFinally pending =>
      exact hs.calm (.settle_of_eq s { s with bootstrapPromise := none } rfl rfl i r)
  | navigate target point => exact hs.calm (.resumeNavigation hat current)
  | login point => exact hs.calm (.resumeLogin hat r)
  | changePassword point => exact hs.calm (.resumeChange hat r)
  | logout post => exact hs.calm (.settle_of_eq s s.markAuthenticationLost rfl rfl i _)

end Flight

end State

/-- The steps of the application. -/
theorem step_cases {s t : State} {e : Event} (h : next s e = some t) :
    (∃ c, e = .call c ∧ s.call c = some t) ∨
      (∃ i config answer, e = .respond i answer ∧ s.At i (.request config .sent) ∧
        t = s.respond i config answer) ∨
      ∃ i current task r, e = .resume i current ∧ s.At i task ∧ s.ready task = some r ∧
        t = s.resume i current r task := by
  cases e with
  | call c => exact .inl ⟨c, rfl, h⟩
  | respond i answer =>
      simp only [next] at h
      split at h
      · cases h
        exact .inr (.inl ⟨i, _, answer, rfl, ‹_›, rfl⟩)
      · cases h
  | resume i current =>
      simp only [next] at h
      split at h
      · obtain ⟨r, hr, rfl⟩ := Option.map_eq_some_iff.mp h
        exact .inr (.inr ⟨i, current, _, r, rfl, ‹_›, hr, rfl⟩)
      · cases h

theorem State.Flight.next {s t : State} {e : Event} (hs : s.Flight)
    (h : Web.next s e = some t) : t.Flight := by
  obtain ⟨c, -, hcall⟩ | ⟨i, config, answer, -, hat, rfl⟩ | ⟨i, current, task, r, -, hat, -, rfl⟩ :=
    step_cases h
  · exact hs.calm (.call hcall)
  · exact hs.respond hat answer
  · exact hs.resume hat current r

theorem flight_of_run {es : List Event} {s : State} (h : run next .init es = some s) : s.Flight :=
  Reachable.preserves ⟨es, h⟩ (fun _ _ _ hs hstep => hs.next hstep) State.flight_init

/-! ### Single flight, and re-armed -/

/-- A `POST /auth/refresh` that has no answer yet. -/
def InFlight (s : State) (i : Nat) : Prop :=
  ∃ config, s.At i (.request config .sent) ∧ config.url = .refresh

/-- Request `j` retries request `i`. -/
def Retries (s : State) (i j : Nat) : Prop := ∃ url, s.Is j (.request url (some i))

/-- A 401 that may be refreshed reaches a request on its first try. -/
def FirstTry (s : State) (e : Event) (i : Nat) : Prop :=
  ∃ config r, e = .respond i (some r) ∧ s.At i (.request config .sent) ∧ r.status = 401 ∧
    r.refreshable = true ∧ config.url ≠ .refresh ∧ config.retried = false

/-- There was a refresh, and every one has settled. -/
def Over (s : State) : Prop :=
  (∃ x ∈ s.promises, x.task.kind = .refresh) ∧
    ∀ x ∈ s.promises, x.task.kind = .refresh → x.result ≠ none

/-- A step that sends a `POST /auth/refresh`. -/
def Posts (s t : State) : Prop :=
  ∃ j, s.promises.length ≤ j ∧ t.Is j (.request .refresh none)

/-- What is wanted of the refreshes and retries in a run. -/
structure SingleFlight (es : List Event) : Prop where
  flight : ∀ es₁ es₂ s, es = es₁ ++ es₂ → run next .init es₁ = some s →
    ∀ i j, InFlight s i → InFlight s j → i = j
  retried : ∀ es₁ es₂ s, es = es₁ ++ es₂ → run next .init es₁ = some s →
    ∀ i j j', Retries s i j → Retries s i j' → j = j' ∧ ∀ k, ¬Retries s j k
  rearmed : ∀ es₁ e es₂ s t i, es = es₁ ++ e :: es₂ → run next .init es₁ = some s →
    next s e = some t → FirstTry s e i → Over s → Posts s t

theorem next_of_firstTry {s : State} {e : Event} {i : Nat} (h : FirstTry s e i) :
    ∃ config, s.At i (.request config .sent) ∧ next s e = some (s.refresh.2.advance i
      (.request { config with retried := true } (.refreshing s.refresh.1))) := by
  obtain ⟨config, r, rfl, hat, hstatus, hrefreshable, hurl, hretried⟩ := h
  refine ⟨config, hat, ?_⟩
  have hget : s.promises[i]? = some ⟨.request config .sent, none⟩ := hat
  simp only [next, hget, State.respond, hstatus, hrefreshable, hretried]
  simp [hurl]

/-- Once a refresh has been started, no other one is. -/
theorem not_posts_of_over {s t : State} {e : Event} {i : Nat} (hs : s.Flight)
    (hfirst : FirstTry s e i) (hover : Over s) (hstep : next s e = some t) : ¬Posts s t := by
  obtain ⟨config, hat, hnext⟩ := next_of_firstTry hfirst
  obtain rfl := Option.some.inj (hnext.symm.trans hstep)
  obtain ⟨x, hx, hkind⟩ := hover.1
  obtain ⟨k, hk⟩ := List.mem_iff_getElem?.mp hx
  have hset : s.refreshPromise ≠ none := fun hnone => hs.unset hnone ⟨x, hk, hkind⟩ trivial
  rintro ⟨j, hlen, hj⟩
  have hlt := Heap.Is.lt_length hj
  simp only [State.advance, Heap.advance, List.length_modify, State.refresh_old hset] at hlt
  exact absurd hlt (not_lt.mpr hlen)

/-- At most one refresh is in flight, and a request is retried once at most, but a
refresh is started once only: the run is as wanted if and only if no refreshable
401 reaches a first try when the refresh is over. -/
theorem single_flight_iff (es : List Event) :
    SingleFlight es ↔ ∀ es₁ e es₂ s i, es = es₁ ++ e :: es₂ → run next .init es₁ = some s →
      FirstTry s e i → ¬Over s := by
  constructor
  · intro h es₁ e es₂ s i hes hrun hfirst hover
    obtain ⟨config, -, hnext⟩ := next_of_firstTry hfirst
    exact not_posts_of_over (flight_of_run hrun) hfirst hover hnext
      (h.rearmed es₁ e es₂ s _ i hes hrun hnext hfirst hover)
  · intro h
    refine ⟨fun es₁ es₂ s hes hrun i j hi hj => ?_, fun es₁ es₂ s hes hrun i j j' hj hj' => ?_,
      fun es₁ e es₂ s t i hes hrun hstep hfirst hover => ?_⟩
    · obtain ⟨c, hi, hc⟩ := hi
      obtain ⟨d, hj, hd⟩ := hj
      have hpost : s.Is i (.request .refresh c.retryOf) := hc ▸ hi.is
      have hpost' : s.Is j (.request .refresh d.retryOf) := hd ▸ hj.is
      exact (flight_of_run hrun).posts hpost hpost'
    · obtain ⟨url, hj⟩ := hj
      obtain ⟨url', hj'⟩ := hj'
      have hs := flight_of_run hrun
      refine ⟨hs.retries hj hj', ?_⟩
      rintro k ⟨url'', hk⟩
      obtain ⟨url₀, horiginal⟩ := hs.original hk
      cases Heap.Is.unique horiginal hj
    · exact absurd hover (h es₁ e es₂ s i hes hrun hfirst)

namespace Sample

def owner : AuthUser := ⟨.owner, false⟩

def expired : Option Response := some ⟨401, true, .other⟩

def refreshed : Option Response := some ⟨204, false, .empty⟩

def known : Option Response := some ⟨200, false, .user owner⟩

def page : Url := .other (Text.ofString "/projects")

/-- A request whose session has expired: the refresh, `GET /auth/me`, the retry. -/
def firstExpiry : List Event :=
  [.call (.request page), .respond 0 expired, .respond 1 refreshed, .resume 2 true,
    .respond 4 known, .resume 5 true, .resume 6 true, .resume 7 true, .resume 2 true,
    .resume 3 true, .resume 0 true, .respond 8 known, .resume 0 true]

/-- Later the session expires again. -/
def secondExpiry : List Event := firstExpiry ++ [.call (.request page)]

end Sample

/-- The second 401 reuses the promise of the first refresh. -/
theorem second_expiry_not_refreshed :
    ¬SingleFlight (Sample.secondExpiry ++ [.respond 9 Sample.expired]) := by
  have hrun : (run next .init Sample.secondExpiry).map (fun s => decide
      (s.promises[9]? = some ⟨.request ⟨Sample.page, false, none⟩ .sent, none⟩ ∧
        (∃ x ∈ s.promises, x.task.kind = .refresh) ∧
        (∀ x ∈ s.promises, x.task.kind = .refresh → x.result ≠ none) ∧
        ((next s (.respond 9 Sample.expired)).map fun t => t.promises.length) =
          some s.promises.length)) = some true := by
    decide +kernel
  obtain ⟨s, hs, hchecks⟩ := Option.map_eq_some_iff.mp hrun
  obtain ⟨hat, hsome, hall, hlen⟩ := of_decide_eq_true hchecks
  obtain ⟨t, ht, hlen⟩ := Option.map_eq_some_iff.mp hlen
  intro h
  have hfirst : FirstTry s (.respond 9 Sample.expired) 9 :=
    ⟨_, _, rfl, hat, rfl, rfl, by decide, rfl⟩
  obtain ⟨j, hj, hnew⟩ := h.rearmed Sample.secondExpiry (.respond 9 Sample.expired) [] s t 9 rfl hs
    ht hfirst ⟨hsome, hall⟩
  have hlt := Heap.Is.lt_length hnew
  rw [hlen] at hlt
  exact absurd hlt (not_lt.mpr hj)

end SuperBoss.Web
