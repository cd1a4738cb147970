import SuperBoss.Devices.Credentials

/-!
The time-order constraints of pairing codes and of devices, and the clocks of the
operations that write their times.
-/

namespace SuperBoss.Devices

open SuperBoss.Core
open SuperBoss.Library
open SuperBoss.Library.Interleaving
open SuperBoss.Library.Transactions
open SuperBoss.Library.Transition
open SuperBoss.Auth
open SuperBoss.Files (Fate)

/-! ### The constraints -/

/-- `ck_device_pairing_codes_expiry_order` and `ck_device_pairing_codes_used_order`. -/
def DevicePairingCode.TimeOrder (p : DevicePairingCode) : Prop :=
  p.createdAt < p.expiresAt ∧ ∀ t ∈ p.usedAt, p.createdAt ≤ t ∧ t ≤ p.expiresAt

/-- `ck_device_connections_last_used_order` and `ck_device_connections_revoked_order`. -/
def DeviceConnection.TimeOrder (d : DeviceConnection) : Prop :=
  (∀ t ∈ d.lastUsedAt, d.pairedAt ≤ t) ∧ ∀ t ∈ d.revokedAt, d.pairedAt ≤ t

instance (p : DevicePairingCode) : Decidable p.TimeOrder :=
  inferInstanceAs (Decidable (_ ∧ ∀ t ∈ p.usedAt, _))

instance (d : DeviceConnection) : Decidable d.TimeOrder :=
  inferInstanceAs (Decidable ((∀ t ∈ d.lastUsedAt, _) ∧ ∀ t ∈ d.revokedAt, _))

structure Db.TimeOrder (db : Db) : Prop where
  pairings : ∀ {id p}, db.pairings.get? id = some p → p.TimeOrder
  devices : ∀ {id d}, db.devices.get? id = some d → d.TimeOrder

/-- The rows that a transaction writes meet the constraints. -/
def Work.InOrder (db : Db) : Work → Prop
  | .createPairingCode pairing => pairing.TimeOrder
  | .pair id now device _ => device.TimeOrder ∧ ∀ p, db.pairings.get? id = some p →
      (p.use now).TimeOrder
  | .authenticate id (some now) => ∀ d, db.devices.get? id = some d → (d.touch now).TimeOrder
  | .revoke id now _ => ∀ d, db.devices.get? id = some d → (d.revoke now).TimeOrder
  | .nothing | .refresh _ _ _ | .authenticate _ none => True

/-- The rows that a transaction inserts are new to every index. -/
def Work.Inserts (db : Db) : Work → Prop
  | .createPairingCode pairing => (db.pairings.insert? pairing).isSome
  | .pair _ _ device session =>
      (db.devices.insert? device).isSome ∧ (db.sessions.insert? session).isSome
  | .refresh current now session =>
      ((updateSessions db.sessions [(current, ⟨some now, now⟩)]).insert? session).isSome
  | .nothing | .authenticate _ _ | .revoke _ _ _ => True

theorem forall_mem_none {α : Type} {p : α → Prop} : ∀ a ∈ (none : Option α), p a := by
  intro a h
  cases h

theorem DevicePairingCode.timeOrder_use_iff {p : DevicePairingCode} {now : Instant}
    (h : p.TimeOrder) : (p.use now).TimeOrder ↔ p.usable now = true := by
  have huse : (p.use now).TimeOrder ↔ p.createdAt < p.expiresAt ∧
      p.createdAt ≤ now ∧ now ≤ p.expiresAt := by
    constructor
    · exact fun horder => ⟨horder.1, horder.2 now rfl⟩
    · rintro ⟨hexpiry, hused⟩
      refine ⟨hexpiry, fun t ht => ?_⟩
      cases ht
      exact hused
  rw [huse, and_iff_right h.1, usable, Bool.and_eq_true, decide_eq_true_iff, decide_eq_true_iff]

theorem DeviceConnection.timeOrder_touch_iff {d : DeviceConnection} {now : Instant}
    (h : d.TimeOrder) : (d.touch now).TimeOrder ↔ d.pairedAt ≤ now := by
  constructor
  · exact fun horder => horder.1 now rfl
  · intro hnow
    refine ⟨fun t ht => ?_, h.2⟩
    cases ht
    exact hnow

theorem DeviceConnection.timeOrder_revoke_iff {d : DeviceConnection} {now : Instant}
    (h : d.TimeOrder) : (d.revoke now).TimeOrder ↔ d.pairedAt ≤ now := by
  constructor
  · exact fun horder => horder.2 now rfl
  · intro hnow
    refine ⟨h.1, fun t ht => ?_⟩
    cases ht
    exact hnow

/-- A transaction in order is refused by nothing but the indexes. -/
theorem Work.InOrder.isSome_iff {db : Db} (hdb : db.TimeOrder) {w : Work} (h : w.InOrder db) :
    (db.write? w).isSome ↔ w.Inserts db := by
  cases w with
  | nothing => exact iff_of_true rfl trivial
  | createPairingCode pairing => simp only [Db.write?, Inserts, Option.isSome_map]
  | pair id now device session =>
      have husable : ((db.pairings.get? id).all fun p => p.usable now) = true := by
        cases hp : db.pairings.get? id with
        | none => rfl
        | some p => exact (DevicePairingCode.timeOrder_use_iff (hdb.pairings hp)).mp (h.2 p hp)
      simp only [Db.write?, Inserts, husable, if_true]
      cases db.devices.insert? device with
      | none => simp
      | some devices => cases db.sessions.insert? session <;> simp
  | refresh current now session => simp only [Db.write?, Inserts, Option.isSome_map]
  | authenticate id lastUsedAt =>
      cases lastUsedAt with
      | none => exact iff_of_true rfl trivial
      | some now =>
          have hpaired : ((db.devices.get? id).all fun d => decide (d.pairedAt ≤ now)) = true := by
            cases hd : db.devices.get? id with
            | none => rfl
            | some d =>
                exact decide_eq_true
                  ((DeviceConnection.timeOrder_touch_iff (hdb.devices hd)).mp (h d hd))
          simp only [Db.write?, Inserts, hpaired, if_true, Option.isSome_some]
  | revoke id now ids =>
      have hpaired : ((db.devices.get? id).all fun d => decide (d.pairedAt ≤ now)) = true := by
        cases hd : db.devices.get? id with
        | none => rfl
        | some d =>
            exact decide_eq_true
              ((DeviceConnection.timeOrder_revoke_iff (hdb.devices hd)).mp (h d hd))
      simp only [Db.write?, Inserts, hpaired, if_true, Option.isSome_some]

/-! ### What holds at every stage -/

/-- What a stage knows of the times it carries. -/
def Timely : Stage → Prop
  | .pairingOwner now pairing _ => now < pairing.expiresAt
  | .projects now _ (.device pairing _) | .lockProjects now _ (.device pairing _) _ _ =>
      now < pairing.expiresAt
  | .commit (.createPairingCode pairing) _ => pairing.TimeOrder
  | .commit (.pair _ _ device _) _ => device.TimeOrder
  | _ => True

section stages

variable {C : Context} {a : Answer} {db db' : Db}

theorem Timely.statement {fate : Fate} {n : Next} (h : Timely n.1) :
    Timely (statement fate n).1 := by
  unfold Devices.statement
  split
  · exact h
  · trivial

theorem timely_start {call : Call} : Timely (Request.startStep C a db call).1 := by
  cases call with
  | createPairingCode ownerId projectIds =>
      simp only [Request.startStep]
      split
      · trivial
      · split <;> trivial
  | pair rawCode deviceName =>
      simp only [Request.startStep]
      split
      · trivial
      · split
        · trivial
        · apply Timely.statement
          split <;> trivial
  | refresh rawRefresh =>
      simp only [Request.startStep]
      split
      · trivial
      · apply Timely.statement
        split <;> trivial
  | authenticate rawAccess =>
      simp only [Request.startStep]
      split <;> trivial
  | revoke ownerId deviceId => trivial

theorem timely_owner {now : Instant} {owner : Option User} {call : Call} {n : Next}
    (h : Request.ownerStep now owner call = some n) : Timely n.1 := by
  cases call with
  | createPairingCode | revoke =>
      cases h
      split
      · trivial
      · split <;> trivial
  | pair | refresh | authenticate => cases h

theorem newCode_timeOrder {id owner : UUID} {hash : Text} {now : Instant}
    {projectIds : List UUID} :
    (⟨id, owner, hash, now + Instant.minutes 10, none, now, projectIds⟩ :
      DevicePairingCode).TimeOrder :=
  ⟨Int.lt_add_of_pos_right now (by decide), forall_mem_none⟩

theorem timely_projectsLocked {now : Instant} {owner : User} {purpose : Purpose}
    {found : List Project} {projectIds : List UUID} :
    Timely (Request.projectsLocked C a now owner purpose found projectIds).1 := by
  cases purpose with
  | code =>
      simp only [Request.projectsLocked]
      split
      · trivial
      · split
        · trivial
        · exact newCode_timeOrder
  | device pairing name =>
      simp only [Request.projectsLocked]
      split
      · trivial
      · split
        · trivial
        · exact ⟨forall_mem_none, forall_mem_none⟩

theorem timely_step {r : Request} {n : Next} (hr : Timely r.stage)
    (h : r.step C a db = some n) : Timely n.1 := by
  obtain ⟨call, stage⟩ := r
  cases stage with
  | start =>
      cases h
      exact timely_start
  | owner now =>
      cases call with
      | createPairingCode | revoke =>
          simp only [Request.step] at h
          obtain ⟨m, hm, rfl⟩ := Option.map_eq_some_iff.mp h
          exact (timely_owner hm).statement
      | pair | refresh | authenticate => cases h
  | pairing now id name =>
      cases h
      apply Timely.statement
      split
      · trivial
      · split
        · trivial
        · rename_i hguard
          exact Int.not_le.mp (not_or.mp hguard).2
  | pairingOwner now pairing name =>
      cases h
      apply Timely.statement
      split
      · trivial
      · split
        · exact hr
        · trivial
  | projects now owner purpose =>
      cases h
      apply Timely.statement
      cases purpose with
      | code => trivial
      | device pairing name => exact hr
  | lockProjects now owner purpose ids found =>
      cases h
      apply Timely.statement
      cases ids with
      | nil => exact timely_projectsLocked
      | cons id rest =>
          cases purpose with
          | code => trivial
          | device pairing name => exact hr
  | device now owner =>
      cases call with
      | revoke ownerId deviceId =>
          cases h
          apply Timely.statement
          split
          · trivial
          · split <;> trivial
      | createPairingCode | pair | refresh | authenticate => cases h
  | refreshSession now locator owner device =>
      cases h
      apply Timely.statement
      split
      · trivial
      · dsimp only
        split
        · split <;> trivial
        · trivial
  | locator | bearerSession =>
      cases h
      apply Timely.statement
      split
      · trivial
      · first | trivial | split <;> trivial
  | refreshOwner | refreshDevice | bearerOwner | bearerDevice | bearerProjects | bearerScopes
  | sessions =>
      cases h
      exact Timely.statement trivial
  | lockSessions now device ids unrevoked =>
      cases h
      split
      · trivial
      · apply Timely.statement
        split <;> trivial
  | commit work reply =>
      cases h
      split <;> trivial
  | denied failure =>
      cases h
      split <;> trivial
  | done | failed | aborted => cases h

/-- The rows of a database that a transaction leaves meet the constraints. -/
theorem Db.TimeOrder.written {w : Work} {reply : Reply} (hdb : db.TimeOrder)
    (hw : Timely (.commit w reply)) (h : db.write? w = some db') : db'.TimeOrder := by
  cases w with
  | nothing =>
      cases h
      exact hdb
  | createPairingCode pairing =>
      obtain ⟨pairings, hinsert, rfl⟩ := Option.map_eq_some_iff.mp h
      refine ⟨fun {id p} hp => ?_, hdb.devices⟩
      rw [Table.get?_insert? hinsert] at hp
      split at hp
      · cases hp
        exact hw
      · exact hdb.pairings hp
  | pair id now device session =>
      simp only [Db.write?] at h
      split at h
      · rename_i husable
        obtain ⟨devices, hdevices, h⟩ := Option.bind_eq_some_iff.mp h
        obtain ⟨sessions, hsessions, h⟩ := Option.bind_eq_some_iff.mp h
        cases h
        refine ⟨fun {i q} hq => ?_, fun {i d} hd => ?_⟩
        · rw [Table.get?_modify] at hq
          split at hq
          · rename_i hi
            obtain ⟨p, hp, rfl⟩ := Option.map_eq_some_iff.mp hq
            rw [DevicePairingCode.timeOrder_use_iff (hdb.pairings hp)]
            rw [← hi, hp] at husable
            exact husable
          · exact hdb.pairings hq
        · rw [Table.get?_insert? hdevices] at hd
          split at hd
          · cases hd
            exact hw
          · exact hdb.devices hd
      · cases h
  | refresh current now session =>
      obtain ⟨sessions, -, rfl⟩ := Option.map_eq_some_iff.mp h
      exact ⟨hdb.pairings, hdb.devices⟩
  | authenticate id lastUsedAt =>
      cases lastUsedAt with
      | none =>
          cases h
          exact hdb
      | some now =>
          simp only [Db.write?] at h
          split at h
          · rename_i hpaired
            cases h
            refine ⟨hdb.pairings, fun {i e} he => ?_⟩
            rw [Table.get?_modify] at he
            split at he
            · rename_i hi
              obtain ⟨d, hd, rfl⟩ := Option.map_eq_some_iff.mp he
              rw [DeviceConnection.timeOrder_touch_iff (hdb.devices hd)]
              rw [← hi, hd] at hpaired
              exact of_decide_eq_true hpaired
            · exact hdb.devices he
          · cases h
  | revoke id now ids =>
      simp only [Db.write?] at h
      split at h
      · rename_i hpaired
        cases h
        refine ⟨hdb.pairings, fun {i e} he => ?_⟩
        rw [Table.get?_modify] at he
        split at he
        · rename_i hi
          obtain ⟨d, hd, rfl⟩ := Option.map_eq_some_iff.mp he
          rw [DeviceConnection.timeOrder_revoke_iff (hdb.devices hd)]
          rw [← hi, hd] at hpaired
          exact of_decide_eq_true hpaired
        · exact hdb.devices he
      · cases h

theorem timely_outline :
    Program.Outline (program C) Db.TimeOrder fun c _ => Timely c.pc.stage where
  start hI hinit := by
    rename_i r db
    obtain ⟨call, stage⟩ := r
    obtain rfl : stage = .start := of_decide_eq_true hinit
    trivial
  abort hok := by
    rename_i c db
    obtain ⟨⟨call, stage⟩, locks⟩ := c
    cases stage <;> trivial
  own hI hok hstep := by
    rename_i a c db r e
    obtain ⟨-, hstep⟩ := program_step hstep
    refine ⟨?_, timely_step hok hstep⟩
    cases e with
    | proceed | release => exact hI
    | commit db' =>
        obtain ⟨work, reply, hstage, hwrite, -⟩ := work_of_commit hstep
        exact hI.written (hstage ▸ hok) hwrite
  other _ _ hok _ _ := hok

end stages

/-! ### Runs -/

namespace Request

variable (C : Context)

/-- What the next statement dates: the time that its row has, and the reading of the
clock that is to be written after it. -/
def dates (a : Answer) (r : Request) : Option (Instant × Instant) :=
  match r.stage with
  | .lockProjects now owner (.device pairing _) [] found =>
      if a.fate = .ok ∧ ¬(found = [] ∨ found.any fun p => p.status != .active) ∧
          (newSession C a.id owner.id now a).isSome then
        some (pairing.createdAt, now)
      else none
  | .bearerScopes now device _ =>
      if a.fate = .ok ∧ device.lastUsedAt.all fun t => decide (t < now) then
        some (device.pairedAt, now)
      else none
  | .lockSessions now device [] _ => some (device.pairedAt, now)
  | _ => none

end Request

section runs

variable {C : Context} {s t : DeviceState} {e : DeviceEvent}

/-- What the request is about to commit meets the constraints. -/
def Stage.InOrder (db : Db) : Stage → Prop
  | .commit work _ => work.InOrder db
  | _ => True

def TimesInOrder (s : DeviceState) : Prop :=
  ∀ (i : Nat) (c : Client Request Row), s.clients[i]? = some c → c.pc.stage.InOrder s.db

/-- A statement that dates a row does so with a clock that is not behind it. -/
def ClockAfter (C : Context) (s : DeviceState) : DeviceEvent → Prop
  | .act i a => ∀ c, s.clients[i]? = some c → ∀ p ∈ c.pc.dates C a, p.1 ≤ p.2
  | _ => True

/-- A statement after which nothing is to be committed that has a time. -/
def Idle (n : Next) : Prop := ∀ db, n.1.InOrder db

theorem Idle.statement {fate : Fate} {n : Next} (h : Idle n) : Idle (statement fate n) := by
  unfold Devices.statement
  split
  · exact h
  · exact fun _ => trivial

theorem idle_start {a : Answer} {db : Db} {call : Call} :
    Idle (Request.startStep C a db call) := by
  cases call <;> simp only [Request.startStep] <;>
    repeat' first | exact fun _ => trivial | apply Idle.statement | split

theorem idle_owner {now : Instant} {owner : Option User} {call : Call} {n : Next}
    (h : Request.ownerStep now owner call = some n) : Idle n := by
  cases call <;> cases h
  all_goals repeat' first | exact fun _ => trivial | split

theorem idle_newCode {a : Answer} {now : Instant} {owner : User} {found : List Project}
    {projectIds : List UUID} :
    Idle (Request.projectsLocked C a now owner .code found projectIds) := by
  simp only [Request.projectsLocked]
  split
  · exact fun _ => trivial
  · split
    · exact fun _ => trivial
    · exact fun _ => newCode_timeOrder

theorem Quiet.db {n : Next} (h : Quiet n) (db : Db) : n.2.db db = db := by
  obtain ⟨stage, e⟩ := n
  cases e with
  | proceed | release => rfl
  | commit db' => exact absurd rfl (h db')

theorem inOrder_projectsLocked {a : Answer} {db : Db} {now : Instant} {owner : User}
    {pairing : DevicePairingCode} {name : Text} {found : List Project} {projectIds : List UUID}
    (hdb : db.TimeOrder) (hget : db.pairings.get? pairing.id = some pairing)
    (hnow : now < pairing.expiresAt) (call : Call) :
    (statement a.fate (Request.projectsLocked C a now owner (.device pairing name) found
        projectIds)).1.InOrder db ↔
      ∀ p ∈ Request.dates C a ⟨call, .lockProjects now owner (.device pairing name) [] found⟩,
        p.1 ≤ p.2 := by
  simp only [Request.dates, Devices.statement, Request.projectsLocked]
  by_cases hfate : a.fate = .ok
  · rw [if_pos hfate]
    by_cases hfound : found = [] ∨ found.any fun p => p.status != .active
    · rw [if_pos hfound, if_neg fun h => h.2.1 hfound]
      exact iff_of_true trivial forall_mem_none
    · rw [if_neg hfound]
      cases hnew : newSession C a.id owner.id now a with
      | none =>
          rw [if_neg fun h => Bool.false_ne_true h.2.2]
          exact iff_of_true trivial forall_mem_none
      | some new =>
          rw [if_pos ⟨hfate, hfound, rfl⟩]
          have hrow : (pairing.use now).TimeOrder ↔ pairing.createdAt ≤ now := by
            rw [DevicePairingCode.timeOrder_use_iff (hdb.pairings hget),
              DevicePairingCode.usable, Bool.and_eq_true, decide_eq_true_iff,
              and_iff_left (decide_eq_true hnow.le)]
          constructor
          · rintro h _ ⟨rfl⟩
            exact hrow.mp (h.2 pairing hget)
          · intro h
            refine ⟨⟨forall_mem_none, forall_mem_none⟩, fun p hp => ?_⟩
            rw [hget] at hp
            cases hp
            exact hrow.mpr (h _ rfl)
  · rw [if_neg hfate, if_neg fun h => hfate h.1]
    exact iff_of_true trivial forall_mem_none

theorem inOrder_step {a : Answer} {db : Db} {r : Request} {n : Next}
    {locks : List (Lock Row)} (hdb : db.TimeOrder) (hok : Ok C ⟨r, locks⟩ db)
    (htimely : Timely r.stage) (h : r.step C a db = some n) :
    n.1.InOrder (n.2.db db) ↔ ∀ p ∈ r.dates C a, p.1 ≤ p.2 := by
  have hafter := timely_step htimely h
  obtain ⟨call, stage⟩ := r
  cases stage with
  | start =>
      cases h
      exact iff_of_true (idle_start _) forall_mem_none
  | owner now =>
      cases call with
      | createPairingCode | revoke =>
          simp only [Request.step] at h
          obtain ⟨m, hm, rfl⟩ := Option.map_eq_some_iff.mp h
          exact iff_of_true ((idle_owner hm).statement _) forall_mem_none
      | pair | refresh | authenticate => cases h
  | pairing | pairingOwner | projects | locator | refreshOwner | refreshDevice | refreshSession
  | bearerOwner | bearerDevice | bearerSession | bearerProjects | sessions =>
      cases h
      refine iff_of_true (Idle.statement ?_ _) forall_mem_none
      repeat' first | exact fun _ => trivial | split | dsimp only
  | lockProjects now owner purpose ids found =>
      cases ids with
      | cons id rest =>
          cases h
          refine iff_of_true (Idle.statement ?_ _) ?_
          · exact fun _ => trivial
          · cases purpose <;> exact forall_mem_none
      | nil =>
          cases h
          rw [(@Quiet.statement a.fate _ quiet_projectsLocked).db]
          cases purpose with
          | code => exact iff_of_true (idle_newCode.statement _) forall_mem_none
          | device pairing name =>
              exact inOrder_projectsLocked hdb (CodeOk.row hok) htimely call
  | bearerScopes now device projectIds =>
      cases h
      rw [(@Quiet.statement a.fate _ .goto).db]
      have hrow := hok.1.row
      have htouch : (device.touch now).TimeOrder ↔ device.pairedAt ≤ now :=
        DeviceConnection.timeOrder_touch_iff (hdb.devices hrow)
      simp only [Request.dates, Devices.statement]
      by_cases hfate : a.fate = .ok
      · rw [if_pos hfate]
        by_cases hmoves : device.lastUsedAt.all fun t => decide (t < now)
        · rw [if_pos hmoves, if_pos ⟨hfate, hmoves⟩]
          constructor
          · rintro h _ ⟨rfl⟩
            exact htouch.mp (h device hrow)
          · intro h d hd
            rw [hrow] at hd
            cases hd
            exact htouch.mpr (h _ rfl)
        · rw [if_neg hmoves, if_neg fun h => hmoves h.2]
          exact iff_of_true trivial forall_mem_none
      · rw [if_neg hfate, if_neg fun h => hfate h.1]
        exact iff_of_true trivial forall_mem_none
  | device now owner =>
      cases call with
      | revoke ownerId deviceId =>
          cases h
          refine iff_of_true (Idle.statement ?_ _) forall_mem_none
          repeat' first | exact fun _ => trivial | split
      | createPairingCode | pair | refresh | authenticate => cases h
  | lockSessions now device ids unrevoked =>
      cases ids with
      | cons id rest =>
          cases h
          refine iff_of_true (Idle.statement ?_ _) forall_mem_none
          split <;> exact fun _ => trivial
      | nil =>
          cases h
          have hrow := hok.1.row
          have hrevoke : (device.revoke now).TimeOrder ↔ device.pairedAt ≤ now :=
            DeviceConnection.timeOrder_revoke_iff (hdb.devices hrow)
          constructor
          · rintro h _ ⟨rfl⟩
            exact hrevoke.mp (h device hrow)
          · intro h d (hd : db.devices.get? device.id = some d)
            rw [hrow] at hd
            cases hd
            exact hrevoke.mpr (h _ rfl)
  | commit work reply =>
      cases h
      split <;> exact iff_of_true trivial forall_mem_none
  | denied failure =>
      cases h
      split <;> exact iff_of_true trivial forall_mem_none
  | done | failed | aborted => cases h

/-- What others commit leaves locked rows alone. -/
theorem Work.InOrder.written {call call' : Call} {v w : Work} {db db' : Db}
    {locks taken : List (Lock Row)} (h : v.InOrder db) (hv : CommitOk C call locks db v)
    (hw : Written w db db') (hown : CommitOk C call' taken db w)
    (hfree : ∀ l ∈ taken, ∀ m ∈ locks, ¬l.Conflicts m) : v.InOrder db' := by
  cases v with
  | nothing | refresh => trivial
  | createPairingCode pairing => exact h
  | pair id now device session =>
      obtain ⟨p, hcode, rfl, -⟩ := hv
      refine ⟨h.1, fun q hq => ?_⟩
      rw [(hcode.written hw hown hfree).row] at hq
      cases hq
      exact h.2 p hcode.row
  | authenticate id lastUsedAt =>
      cases lastUsedAt with
      | none => trivial
      | some now =>
          obtain ⟨d, hdevice, rfl, -⟩ := hv
          intro e he
          rw [(hdevice.written hw hown hfree).row] at he
          cases he
          exact h d hdevice.row
  | revoke id now ids =>
      obtain ⟨d, hdevice, rfl, -⟩ := hv
      intro e he
      rw [(hdevice.written hw hown hfree).row] at he
      cases he
      exact h d hdevice.row

theorem timesInOrder_iff {db : Db} (hdb : Sound db) (horder : db.TimeOrder)
    (hreach : Reachable (next C) (State.init db) s) (hs : TimesInOrder s)
    (h : next C s e = some t) : TimesInOrder t ↔ ClockAfter C s e := by
  have hannotated := annotated_of_reachable hreach hdb
  have htimely := timely_outline.reachable hreach horder
  have hcompatible := Program.compatible_of_reachable hreach
  cases Program.step_of_apply h with
  | @start pc hinit =>
      refine iff_of_true (fun i c hc => ?_) trivial
      rcases getElem?_append_cases hc with ⟨-, rfl⟩ | hc
      · obtain ⟨call, stage⟩ := pc
        obtain rfl : stage = .start := of_decide_eq_true hinit
        trivial
      · exact hs i c hc
  | @abort i c₀ hget =>
      refine iff_of_true (fun j c hc => ?_) trivial
      rcases getElem?_set_cases hc with ⟨rfl, rfl⟩ | ⟨-, hc⟩
      · obtain ⟨⟨call, stage⟩, locks⟩ := c₀
        cases stage <;> trivial
      · exact hs j c hc
  | @act i a c pc e hget hfree hstep =>
      obtain ⟨-, hstep⟩ := program_step hstep
      have hown := inOrder_step htimely.1 (hannotated.2 i c hget) (htimely.2 i c hget) hstep
      constructor
      · rintro horder c' hc'
        rw [hget] at hc'
        cases hc'
        have hlt : i < s.clients.length := (List.getElem?_eq_some_iff.mp hget).1
        exact hown.mp (horder i _ (List.getElem?_set_self hlt))
      · intro hclock j d hd
        rcases getElem?_set_cases hd with ⟨rfl, rfl⟩ | ⟨hne, hd'⟩
        · exact hown.mpr (hclock c hget)
        · have hkept := hs j d hd'
          cases e with
          | proceed | release => exact hkept
          | commit db' =>
              obtain ⟨work, reply, hstage, hwrite, -⟩ := work_of_commit hstep
              obtain ⟨⟨call, stage⟩, locks⟩ := c
              obtain ⟨⟨call', stage'⟩, locks'⟩ := d
              cases hstage
              cases stage' with
              | commit v reply' =>
                  exact Work.InOrder.written hkept (hannotated.2 j _ hd') (Db.written hwrite)
                    (hannotated.2 i _ hget) fun l hl m hm =>
                      hcompatible.taken hget hd' hne hfree (List.mem_append_left _ hl) hm
              | start | owner | pairing | pairingOwner | projects | lockProjects | locator
              | refreshOwner | refreshDevice | refreshSession | bearerOwner | bearerDevice
              | bearerSession | bearerProjects | bearerScopes | device | sessions | lockSessions
              | denied | done | failed | aborted => trivial

end runs

namespace Sample

/-- The access token of the sample pairing. -/
def accessToken : Text :=
  plainJwt.encode context.settings.jwtSecret (devicePayload ⟨9, 1, 20, 30, 0, 7200⟩)

/-- A clock five microseconds behind. -/
def behind : Answer :=
  { answer with now := 5, datetime := by decide }

/-- A pairing, and the check of its access token up to the commit. -/
def checking : List DeviceEvent :=
  .start ⟨.createPairingCode 1 [5], .start⟩ :: List.replicate 6 (.act 0 answer) ++
  .start ⟨.pair rawCode (Text.ofString "laptop"), .start⟩ :: List.replicate 7 (.act 1 paired) ++
  .start ⟨.authenticate accessToken, .start⟩ :: List.replicate 6 (.act 2 behind)

theorem sound_empty : Sound ⟨users, projects, ∅, ∅, ∅⟩ :=
  ⟨fun hx => (by cases hx), fun hx => (by cases hx)⟩

theorem timeOrder_empty : Db.TimeOrder ⟨users, projects, ∅, ∅, ∅⟩ :=
  ⟨fun hp => (by cases hp), fun hd => (by cases hd)⟩

end Sample

end SuperBoss.Devices
