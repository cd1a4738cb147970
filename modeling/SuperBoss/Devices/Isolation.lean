import SuperBoss.Devices.Service

/-!
What a committed transaction does to the rows of pairing codes, devices and
sessions, and which of them it has locked.
-/

namespace SuperBoss.Devices

open SuperBoss.Core
open SuperBoss.Library
open SuperBoss.Library.Transactions
open SuperBoss.Auth

namespace Work

/-- The rows that a transaction updates, and the device it issues a session for. -/
def rows : Work → List Row
  | .nothing | .createPairingCode _ => []
  | .pair id _ _ _ => [.pairing id]
  | .refresh current _ session =>
      .session current :: session.deviceId.toList.map fun id => .device id
  | .authenticate id _ => [.device id]
  | .revoke id _ ids => .device id :: ids.map fun i => .session i

def newDevice : Work → Option DeviceConnection
  | .pair _ _ device _ => some device
  | _ => none

def newSession : Work → Option AuthSession
  | .pair _ _ _ session | .refresh _ _ session => some session
  | _ => none

/-- Every row that is updated is locked. -/
def Locked (w : Work) (locks : List (Lock Row)) : Prop := ∀ r ∈ w.rows, .exclusive r ∈ locks

end Work

/-- A pairing code that has become `q`. -/
structure KeepsCode (touched : Prop) (p q : DevicePairingCode) : Prop where
  codeHash : q.codeHash = p.codeHash
  used : p.usedAt ≠ none → q.usedAt ≠ none
  kept : ¬touched → q = p

/-- A device that has become `e`. -/
structure KeepsDevice (touched : Prop) (d e : DeviceConnection) : Prop where
  identity : e = { d with lastUsedAt := e.lastUsedAt, revokedAt := e.revokedAt }
  revoked : d.revokedAt ≠ none → e.revokedAt ≠ none
  kept : ¬touched → e = d

/-- The database after the writes of a transaction. -/
structure Written (w : Work) (db db' : Db) : Prop where
  users : db'.users = db.users
  projects : db'.projects = db.projects
  pairing : ∀ {id p}, db.pairings.get? id = some p →
    ∃ q, db'.pairings.get? id = some q ∧ KeepsCode (.pairing id ∈ w.rows) p q
  device : ∀ {id d}, db.devices.get? id = some d →
    ∃ e, db'.devices.get? id = some e ∧ KeepsDevice (.device id ∈ w.rows) d e
  session : ∀ {id x}, db.sessions.get? id = some x →
    ∃ y, db'.sessions.get? id = some y ∧ Revises (.session id ∈ w.rows) x y
  newDevice : ∀ {id e}, db'.devices.get? id = some e → db.devices.get? id = none →
    w.newDevice = some e
  newSession : ∀ {id y}, db'.sessions.get? id = some y → db.sessions.get? id = none →
    w.newSession = some y
  created : ∀ e ∈ w.newDevice, db.devices.get? e.id = none ∧ db'.devices.get? e.id = some e
  revokedBy : ∀ {id e}, db'.devices.get? id = some e → e.revokedAt ≠ none →
    (∃ d, db.devices.get? id = some d ∧ d.revokedAt ≠ none) ∨
      w.newDevice = some e ∨ ∃ now ids, w = .revoke id now ids

section written

variable {db db' : Db}

theorem keepsCode_refl {touched : Prop} (p : DevicePairingCode) : KeepsCode touched p p :=
  ⟨rfl, id, fun _ => rfl⟩

theorem keepsDevice_refl {touched : Prop} (d : DeviceConnection) : KeepsDevice touched d d :=
  ⟨rfl, id, fun _ => rfl⟩

/-- A device whose row is updated by one of the two ways that there are. -/
theorem keepsDevice_modify {t : DeviceTable} {f : DeviceConnection → DeviceConnection}
    (hf : Table.Keeps DeviceConnection.id (fun _ _ => True) f) {k id : UUID}
    {d : DeviceConnection} (h : t.get? id = some d)
    (hid : f d = { d with lastUsedAt := (f d).lastUsedAt, revokedAt := (f d).revokedAt })
    (hrev : d.revokedAt ≠ none → (f d).revokedAt ≠ none) :
    ∃ e, (t.modify k f hf).get? id = some e ∧ KeepsDevice (id = k) d e := by
  rw [Table.get?_modify]
  by_cases hk : id = k
  · rw [if_pos hk, h]
    exact ⟨f d, rfl, hid, hrev, fun hne => absurd hk hne⟩
  · rw [if_neg hk, h]
    exact ⟨d, rfl, keepsDevice_refl d⟩

theorem KeepsDevice.congr {touched touched' : Prop} {d e : DeviceConnection}
    (h : KeepsDevice touched d e) (hiff : touched → touched') : KeepsDevice touched' d e :=
  ⟨h.identity, h.revoked, fun hnot => h.kept fun ht => hnot (hiff ht)⟩

theorem not_both {α : Type*} {o : Option α} {x : α} {P : Prop} (h : o = some x) (h' : o = none) :
    P := by
  rw [h'] at h
  cases h

/-- A transaction that leaves devices and sessions alone. -/
theorem written_same {w : Work} {pairings : PairingTable}
    (hpairings : ∀ {id p}, db.pairings.get? id = some p → pairings.get? id = some p)
    (hrows : ∀ i, Row.session i ∉ w.rows) (hdevice : w.newDevice = none) :
    Written w db { db with pairings } where
  users := rfl
  projects := rfl
  pairing hp := ⟨_, hpairings hp, keepsCode_refl _⟩
  device hd := ⟨_, hd, keepsDevice_refl _⟩
  session hx := ⟨_, hx, .refl (hrows _)⟩
  newDevice he hnone := not_both he hnone
  newSession hy hnone := not_both hy hnone
  created _ he := not_both he hdevice
  revokedBy he hrev := .inl ⟨_, he, hrev⟩

theorem Db.written {w : Work} (h : db.write? w = some db') : Written w db db' := by
  cases w with
  | nothing =>
      cases h
      exact written_same (fun hp => hp) (by simp [Work.rows]) rfl
  | createPairingCode pairing =>
      obtain ⟨pairings, hinsert, rfl⟩ := Option.map_eq_some_iff.mp h
      exact written_same (Table.get?_insert?_of_some hinsert) (by simp [Work.rows]) rfl
  | pair id now device session =>
      simp only [Db.write?] at h
      split at h
      · obtain ⟨devices, hdevices, h⟩ := Option.bind_eq_some_iff.mp h
        obtain ⟨sessions, hsessions, h⟩ := Option.bind_eq_some_iff.mp h
        cases h
        refine ⟨rfl, rfl, fun {i p} hp => ?_,
          fun hd => ⟨_, Table.get?_insert?_of_some hdevices hd, keepsDevice_refl _⟩,
          fun hx => ⟨_, Table.get?_insert?_of_some hsessions hx,
            .refl (by simp [Work.rows])⟩,
          fun {i e} he hnone => ?_, fun {i y} hy hnone => ?_, fun e he => ?_,
          fun {i e} he hrev => ?_⟩
        · rw [Table.get?_modify]
          by_cases hi : i = id
          · rw [if_pos hi, hp]
            exact ⟨p.use now, rfl, rfl, fun _ => by simp [DevicePairingCode.use],
              fun hne => absurd (by simp [Work.rows, hi]) hne⟩
          · rw [if_neg hi]
            exact ⟨p, hp, keepsCode_refl p⟩
        · rw [Table.get?_insert? hdevices, hnone] at he
          split at he
          · exact he
          · cases he
        · rw [Table.get?_insert? hsessions, hnone] at hy
          split at hy
          · exact hy
          · cases hy
        · obtain rfl : device = e := Option.some.inj he
          refine ⟨?_, (Table.get?_insert? hdevices _).trans (if_pos rfl)⟩
          rw [Table.get?_eq_none_iff]
          intro d hd heq
          exact (Table.insert?_eq_some_iff.mp hdevices).1 (List.mem_map.mpr ⟨d, hd, heq⟩)
        · rw [Table.get?_insert? hdevices] at he
          split at he
          · exact .inr (.inl he)
          · exact .inl ⟨e, he, hrev⟩
      · cases h
  | refresh current now session =>
      obtain ⟨sessions, hinsert, rfl⟩ := Option.map_eq_some_iff.mp h
      refine ⟨rfl, rfl, fun hp => ⟨_, hp, keepsCode_refl _⟩,
        fun hd => ⟨_, hd, keepsDevice_refl _⟩, fun {i x} hx => ?_,
        fun he hnone => not_both he hnone, fun {i y} hy hnone => ?_, fun e he => (by cases he),
        fun he hrev => .inl ⟨_, he, hrev⟩⟩
      · obtain ⟨y, hy, hrev⟩ := updateSessions_of_some [(current, ⟨some now, now⟩)] hx
        refine ⟨y, Table.get?_insert?_of_some hinsert hy, hrev.congr ?_⟩
        simp [Work.rows]
      · rw [Table.get?_insert? hinsert, updateSessions_of_none _ hnone] at hy
        split at hy
        · exact hy
        · cases hy
  | authenticate id lastUsedAt =>
      cases lastUsedAt with
      | none =>
          cases h
          exact written_same (fun hp => hp) (by simp [Work.rows]) rfl
      | some now =>
          simp only [Db.write?] at h
          split at h
          · cases h
            refine ⟨rfl, rfl, fun hp => ⟨_, hp, keepsCode_refl _⟩, fun {i d} hd => ?_,
              fun hx => ⟨_, hx, .refl (by simp [Work.rows])⟩,
              fun he hnone => not_both he
                (Table.get?_modify_of_none (DeviceConnection.touch_keeps now) hnone),
              fun hy hnone => not_both hy hnone, fun e he => (by cases he),
              fun {i e} he hrev => .inl ?_⟩
            · obtain ⟨e, he, hkeeps⟩ := keepsDevice_modify
                (DeviceConnection.touch_keeps now) (k := id) hd rfl (fun h => h)
              exact ⟨e, he, hkeeps.congr fun hi => by simp [Work.rows, hi]⟩
            · rw [Table.get?_modify] at he
              split at he
              · obtain ⟨d, hd, rfl⟩ := Option.map_eq_some_iff.mp he
                exact ⟨d, hd, hrev⟩
              · exact ⟨e, he, hrev⟩
          · cases h
  | revoke id now ids =>
      simp only [Db.write?] at h
      split at h
      · cases h
        refine ⟨rfl, rfl, fun hp => ⟨_, hp, keepsCode_refl _⟩, fun {i d} hd => ?_,
          fun {i x} hx => ?_, fun he hnone => not_both he
            (Table.get?_modify_of_none (DeviceConnection.revoke_keeps now) hnone),
          fun hy hnone => not_both hy (updateSessions_of_none _ hnone), fun e he => (by cases he),
          fun {i e} he hrev => ?_⟩
        · obtain ⟨e, he, hkeeps⟩ := keepsDevice_modify
            (DeviceConnection.revoke_keeps now) (k := id) hd rfl
            (fun _ => by simp [DeviceConnection.revoke])
          exact ⟨e, he, hkeeps.congr fun hi => by simp [Work.rows, hi]⟩
        · obtain ⟨y, hy, hrev⟩ := updateSessions_of_some (ids.map fun i => (i, ⟨none, now⟩)) hx
          refine ⟨y, hy, hrev.congr ?_⟩
          simp [Work.rows]
        · rw [Table.get?_modify] at he
          split at he
          · rename_i hi
            exact .inr (.inr ⟨now, ids, by rw [hi]⟩)
          · exact .inl ⟨e, he, hrev⟩
      · cases h

end written

/-! ### Assertions -/

/-- A pairing code that is locked and unused, with the raw code it was found by. -/
structure CodeOk (C : Context) (call : Call) (p : DevicePairingCode) (locks : List (Lock Row))
    (db : Db) : Prop where
  lock : .exclusive (.pairing p.id) ∈ locks
  row : db.pairings.get? p.id = some p
  unused : p.usedAt = none
  code : ∃ raw name, call = .pair raw name ∧ credentialHash C raw = some p.codeHash

/-- A device that is locked. -/
structure DeviceOk (d : DeviceConnection) (locks : List (Lock Row)) (db : Db) : Prop where
  lock : .exclusive (.device d.id) ∈ locks
  row : db.devices.get? d.id = some d

/-- Every live session of device `d` is one of `ids` or of `unrevoked`. -/
def Covers (db : Db) (d : UUID) (ids unrevoked : List UUID) : Prop :=
  ∀ i x, db.sessions.get? i = some x → LiveOn d x → i ∈ ids ∨ i ∈ unrevoked

/-- The session that a refresh uses up, on a device that is locked as well. -/
structure RefreshOk (C : Context) (call : Call) (current : UUID) (session : AuthSession)
    (locks : List (Lock Row)) (db : Db) : Prop where
  lock : .exclusive (.session current) ∈ locks
  device : ∃ d, DeviceOk d locks db ∧ d.revokedAt = none ∧ session.deviceId = some d.id ∧
    ∃ x, db.sessions.get? current = some x ∧ LiveOn d.id x ∧ x.refreshUsedAt = none ∧
      ∃ raw, call = .refresh raw ∧ credentialHash C raw = some x.refreshTokenHash

def CommitOk (C : Context) (call : Call) (locks : List (Lock Row)) (db : Db) : Work → Prop
  | .nothing | .createPairingCode _ => True
  | .pair id _ device session => ∃ p, CodeOk C call p locks db ∧ p.id = id ∧
      session.deviceId = some device.id ∧ device.revokedAt = none
  | .refresh current _ session => RefreshOk C call current session locks db
  | .authenticate id _ => ∃ d, DeviceOk d locks db ∧ d.id = id ∧ d.revokedAt = none
  | .revoke id _ unrevoked => ∃ d, DeviceOk d locks db ∧ d.id = id ∧ Covers db id [] unrevoked ∧
      ∀ i ∈ unrevoked, .exclusive (.session i) ∈ locks

/-- The raw token behind a locator. -/
def FoundBy (C : Context) (call : Call) (locator : AuthSession) : Prop :=
  ∃ raw, call = .refresh raw ∧ credentialHash C raw = some locator.refreshTokenHash

def PurposeOk (C : Context) (call : Call) (locks : List (Lock Row)) (db : Db) : Purpose → Prop
  | .code => True
  | .device pairing _ => CodeOk C call pairing locks db

def Ok (C : Context) (c : Client Request Row) (db : Db) : Prop :=
  match c.pc.stage with
  | .pairing _ id _ => ∃ raw name hash, c.pc.call = .pair raw name ∧
      credentialHash C raw = some hash ∧ ∃ p, db.pairings.get? id = some p ∧ p.codeHash = hash
  | .pairingOwner _ pairing _ => CodeOk C c.pc.call pairing c.locks db
  | .projects _ _ purpose | .lockProjects _ _ purpose _ _ =>
      PurposeOk C c.pc.call c.locks db purpose
  | .locator _ locator | .refreshOwner _ locator _ | .refreshDevice _ locator _ =>
      FoundBy C c.pc.call locator
  | .refreshSession _ locator _ device => FoundBy C c.pc.call locator ∧
      ∀ d ∈ device, DeviceOk d c.locks db
  | .bearerSession _ _ _ device => ∀ d ∈ device, DeviceOk d c.locks db
  | .bearerProjects _ device | .bearerScopes _ device _ =>
      DeviceOk device c.locks db ∧ device.revokedAt = none
  | .sessions _ device => DeviceOk device c.locks db
  | .lockSessions _ device ids unrevoked => DeviceOk device c.locks db ∧
      Covers db device.id ids unrevoked ∧ ∀ i ∈ unrevoked, .exclusive (.session i) ∈ c.locks
  | .commit work _ => CommitOk C c.pc.call c.locks db work
  | _ => True

/-- The rows of one device agree: a device is there for each of its sessions, one
of them is live at most, and none on a revoked device. -/
structure Sound (db : Db) : Prop where
  single : ∀ {d i j x y}, db.sessions.get? i = some x → db.sessions.get? j = some y →
    LiveOn d x → LiveOn d y → i = j
  owned : ∀ {i x d}, db.sessions.get? i = some x → x.deviceId = some d →
    ∃ dev, db.devices.get? d = some dev ∧ (dev.revokedAt ≠ none → x.revokedAt ≠ none)

/-! ### Non-interference -/

section interference

variable {C : Context} {call call' : Call} {w : Work} {db db' : Db}
  {locks taken : List (Lock Row)}

/-- The rows of a commit are locked. -/
theorem CommitOk.locked (h : CommitOk C call locks db w) : w.Locked locks := by
  intro r hr
  cases w with
  | nothing | createPairingCode => cases hr
  | pair id now device session =>
      obtain ⟨p, hcode, rfl, -⟩ := h
      obtain rfl := List.mem_singleton.mp hr
      exact hcode.lock
  | refresh current now session =>
      obtain ⟨d, hdevice, -, hd, -⟩ := h.device
      rcases List.mem_cons.mp hr with rfl | hr
      · exact h.lock
      · rw [hd] at hr
        obtain rfl := List.mem_singleton.mp hr
        exact hdevice.lock
  | authenticate id lastUsedAt =>
      obtain ⟨d, hdevice, rfl, -⟩ := h
      obtain rfl := List.mem_singleton.mp hr
      exact hdevice.lock
  | revoke id now unrevoked =>
      obtain ⟨d, hdevice, rfl, -, hlocks⟩ := h
      rcases List.mem_cons.mp hr with rfl | hr
      · exact hdevice.lock
      · obtain ⟨i, hi, rfl⟩ := List.mem_map.mp hr
        exact hlocks i hi

/-- A new session is for a device that is locked or new. -/
theorem CommitOk.issues (h : CommitOk C call locks db w) {y : AuthSession}
    (hy : w.newSession = some y) : ∃ d, y.deviceId = some d ∧
      (.device d ∈ w.rows ∨ ∃ e ∈ w.newDevice, e.id = d ∧ e.revokedAt = none) := by
  cases w with
  | nothing | createPairingCode | authenticate | revoke => cases hy
  | pair id now device session =>
      obtain ⟨p, -, -, hdevice, hrevoked⟩ := h
      cases hy
      exact ⟨device.id, hdevice, .inr ⟨device, rfl, rfl, hrevoked⟩⟩
  | refresh current now session =>
      obtain ⟨d, -, -, hd, -⟩ := h.device
      cases hy
      exact ⟨d.id, hd, .inl (by simp [Work.rows, hd])⟩

variable (hw : Written w db db') (hown : CommitOk C call' taken db w)
  (hfree : ∀ l ∈ taken, ∀ m ∈ locks, ¬l.Conflicts m)

include hown hfree in
theorem notMem_rows {r : Row} (hr : .exclusive r ∈ locks) : r ∉ w.rows := fun hmem =>
  hfree _ (hown.locked r hmem) _ hr (Lock.exclusive_conflicts _ _)

include hw hown hfree

theorem CodeOk.written {p : DevicePairingCode} (h : CodeOk C call p locks db) :
    CodeOk C call p locks db' := by
  obtain ⟨q, hq, hkeeps⟩ := hw.pairing h.row
  rw [hkeeps.kept (notMem_rows hown hfree h.lock)] at hq
  exact ⟨h.lock, hq, h.unused, h.code⟩

theorem DeviceOk.written {d : DeviceConnection} (h : DeviceOk d locks db) :
    DeviceOk d locks db' := by
  obtain ⟨e, he, hkeeps⟩ := hw.device h.row
  rw [hkeeps.kept (notMem_rows hown hfree h.lock)] at he
  exact ⟨h.lock, he⟩

theorem Covers.written {d : DeviceConnection} {ids unrevoked : List UUID}
    (h : Covers db d.id ids unrevoked) (hd : DeviceOk d locks db) :
    Covers db' d.id ids unrevoked := by
  intro i y hy hlive
  cases hx : db.sessions.get? i with
  | some x =>
      obtain ⟨y', hy', hrev⟩ := hw.session hx
      obtain rfl := Option.some.inj (hy.symm.trans hy')
      have huntouched : Row.session i ∉ w.rows := fun hmem => hrev.revoked hmem hlive.2
      rw [hrev.kept huntouched] at hlive
      exact h i x hx hlive
  | none =>
      obtain ⟨d', hd', hrow | ⟨e, he, hid, -⟩⟩ := hown.issues (hw.newSession hy hx)
      · obtain rfl := Option.some.inj (hd'.symm.trans hlive.1)
        exact absurd hrow (notMem_rows hown hfree hd.lock)
      · obtain rfl := Option.some.inj (hd'.symm.trans hlive.1)
        exact not_both hd.row (hid ▸ (hw.created e he).1)

theorem RefreshOk.written {current : UUID} {session : AuthSession}
    (h : RefreshOk C call current session locks db) :
    RefreshOk C call current session locks db' := by
  obtain ⟨d, hdevice, hrevoked, hd, x, hx, hrest⟩ := h.device
  obtain ⟨y, hy, hrev⟩ := hw.session hx
  rw [hrev.kept (notMem_rows hown hfree h.lock)] at hy
  exact ⟨h.lock, d, hdevice.written hw hown hfree, hrevoked, hd, x, hy, hrest⟩

theorem CommitOk.written {v : Work} (h : CommitOk C call locks db v) :
    CommitOk C call locks db' v := by
  cases v with
  | nothing | createPairingCode => trivial
  | pair id now device session =>
      obtain ⟨p, hcode, hrest⟩ := h
      exact ⟨p, hcode.written hw hown hfree, hrest⟩
  | refresh current now session => exact RefreshOk.written hw hown hfree h
  | authenticate id lastUsedAt =>
      obtain ⟨d, hdevice, hrest⟩ := h
      exact ⟨d, hdevice.written hw hown hfree, hrest⟩
  | revoke id now unrevoked =>
      obtain ⟨d, hdevice, rfl, hcovers, hlocks⟩ := h
      exact ⟨d, hdevice.written hw hown hfree, rfl, hcovers.written hw hown hfree hdevice, hlocks⟩

theorem PurposeOk.written {purpose : Purpose} (h : PurposeOk C call locks db purpose) :
    PurposeOk C call locks db' purpose := by
  cases purpose with
  | code => trivial
  | device pairing name => exact CodeOk.written hw hown hfree h

theorem Ok.written {r : Request} (h : Ok C ⟨r, locks⟩ db) : Ok C ⟨r, locks⟩ db' := by
  obtain ⟨call, stage⟩ := r
  cases stage with
  | pairing now id name =>
      obtain ⟨raw, name, hash, hcall, hhash, p, hp, hpair⟩ := h
      obtain ⟨q, hq, hkeeps⟩ := hw.pairing hp
      exact ⟨raw, name, hash, hcall, hhash, q, hq, hkeeps.codeHash.trans hpair⟩
  | pairingOwner now pairing name => exact CodeOk.written hw hown hfree h
  | projects | lockProjects => exact PurposeOk.written hw hown hfree h
  | refreshSession now locator owner device =>
      exact ⟨h.1, fun d hd => (h.2 d hd).written hw hown hfree⟩
  | bearerSession now bearer owner device => exact fun d hd => (h d hd).written hw hown hfree
  | bearerProjects | bearerScopes => exact ⟨h.1.written hw hown hfree, h.2⟩
  | sessions now device => exact DeviceOk.written hw hown hfree h
  | lockSessions now device ids unrevoked =>
      exact ⟨h.1.written hw hown hfree, h.2.1.written hw hown hfree h.1, h.2.2⟩
  | commit work reply => exact CommitOk.written hw hown hfree h
  | locator | refreshOwner | refreshDevice => exact h
  | start | owner | bearerOwner | bearerDevice | device | denied | done | failed | aborted =>
      trivial

end interference

/-! ### What a commit preserves -/

section commits

variable {C : Context} {call : Call} {w : Work} {db db' : Db} {locks : List (Lock Row)}

/-- A live session that was there before is untouched. -/
theorem Written.untouched (hw : Written w db db') {i : UUID} {x y : AuthSession}
    (hx : db.sessions.get? i = some x) (hy : db'.sessions.get? i = some y)
    (hlive : y.revokedAt = none) : y = x := by
  obtain ⟨y', hy', hrev⟩ := hw.session hx
  obtain rfl := Option.some.inj (hy.symm.trans hy')
  exact hrev.kept fun hmem => hrev.revoked hmem hlive

/-- A revocation leaves no live session on its device. -/
theorem Written.revoke_covers {id : UUID} {now : Instant} {unrevoked : List UUID}
    (hw : Written (.revoke id now unrevoked) db db') (hcovers : Covers db id [] unrevoked)
    {i : UUID} {x y : AuthSession} (hx : db.sessions.get? i = some x)
    (hy : db'.sessions.get? i = some y) (hd : x.deviceId = some id) : y.revokedAt ≠ none := by
  intro hlive
  obtain rfl := hw.untouched hx hy hlive
  obtain ⟨y', hy', hrev⟩ := hw.session hx
  obtain rfl := Option.some.inj (hy.symm.trans hy')
  rcases hcovers i y hx ⟨hd, hlive⟩ with hmem | hmem
  · cases hmem
  · refine hrev.revoked ?_ hlive
    exact List.mem_cons_of_mem _ (List.mem_map.mpr ⟨i, hmem, rfl⟩)

/-- The only session that a commit adds next to a live one is the one that a
refresh of that device issues, after it has used up the live one. -/
theorem Written.only_live (hw : Written w db db') (hs : Sound db)
    (hown : CommitOk C call locks db w) {d i : UUID} {x y : AuthSession}
    (hx : db.sessions.get? i = some x) (hx' : db'.sessions.get? i = some x) (hxd : LiveOn d x)
    (hy : w.newSession = some y) (hyd : y.deviceId = some d) : False := by
  cases w with
  | nothing | createPairingCode | authenticate | revoke => cases hy
  | pair id now device session =>
      obtain ⟨p, -, -, hdevice, -⟩ := hown
      cases hy
      obtain rfl := Option.some.inj (hdevice.symm.trans hyd)
      obtain ⟨dev, hdev, -⟩ := hs.owned hx hxd.1
      exact not_both hdev (hw.created device rfl).1
  | refresh current now session =>
      obtain ⟨dev, -, -, hdevice, x', hcurrent, hlive, -⟩ := hown.device
      cases hy
      obtain rfl := Option.some.inj (hdevice.symm.trans hyd)
      obtain rfl := hs.single hx hcurrent hxd hlive
      obtain ⟨y', hy', hrev⟩ := hw.session hx
      obtain rfl := Option.some.inj (hx'.symm.trans hy')
      exact hrev.revoked List.mem_cons_self hxd.2

theorem Sound.written (hs : Sound db) (hw : Written w db db')
    (hown : CommitOk C call locks db w) : Sound db' where
  single {d i j x y} hx hy hxd hyd := by
    cases hi : db.sessions.get? i with
    | some x' =>
        obtain rfl := hw.untouched hi hx hxd.2
        cases hj : db.sessions.get? j with
        | some y' =>
            obtain rfl := hw.untouched hj hy hyd.2
            exact hs.single hi hj hxd hyd
        | none => exact (hw.only_live hs hown hi hx hxd (hw.newSession hy hj) hyd.1).elim
    | none =>
        cases hj : db.sessions.get? j with
        | some y' =>
            obtain rfl := hw.untouched hj hy hyd.2
            exact (hw.only_live hs hown hj hy hyd (hw.newSession hx hi) hxd.1).elim
        | none =>
            obtain rfl := Option.some.inj ((hw.newSession hx hi).symm.trans (hw.newSession hy hj))
            exact (Table.key_of_get? hx).symm.trans (Table.key_of_get? hy)
  owned {i y d} hy hyd := by
    cases hi : db.sessions.get? i with
    | some x =>
        obtain ⟨y', hy', hrev⟩ := hw.session hi
        obtain rfl := Option.some.inj (hy.symm.trans hy')
        have hxd : x.deviceId = some d := by
          rw [hrev.identity] at hyd
          exact hyd
        obtain ⟨dev, hdev, hdevrev⟩ := hs.owned hi hxd
        obtain ⟨e, he, -⟩ := hw.device hdev
        refine ⟨e, he, fun herev => ?_⟩
        rcases hw.revokedBy he herev with ⟨dev', hdev', hrevoked⟩ | hnew | ⟨now, ids, rfl⟩
        · obtain rfl := Option.some.inj (hdev.symm.trans hdev')
          exact hrev.stays_revoked (hdevrev hrevoked)
        · obtain rfl := Table.key_of_get? he
          exact not_both hdev (hw.created e hnew).1
        · obtain ⟨dev', -, -, hcovers, -⟩ := hown
          exact hw.revoke_covers hcovers hi hy hxd
    | none =>
        have hnew := hw.newSession hy hi
        cases w with
        | nothing | createPairingCode | authenticate | revoke => cases hnew
        | pair id now device session =>
            obtain ⟨p, -, -, hdevice, hrevoked⟩ := hown
            cases hnew
            obtain rfl := Option.some.inj (hdevice.symm.trans hyd)
            exact ⟨device, (hw.created device rfl).2, fun h => absurd hrevoked h⟩
        | refresh current now session =>
            obtain ⟨dev, hdev, hrevoked, hdevice, -⟩ := hown.device
            cases hnew
            obtain rfl := Option.some.inj (hdevice.symm.trans hyd)
            obtain ⟨e, he, -⟩ := hw.device hdev.row
            refine ⟨e, he, fun herev => ?_⟩
            rcases hw.revokedBy he herev with ⟨dev', hdev', hrev⟩ | hnone | ⟨now, ids, hne⟩
            · obtain rfl := Option.some.inj (hdev.row.symm.trans hdev')
              exact absurd hrevoked hrev
            · cases hnone
            · cases hne

end commits

/-! ### What a statement establishes -/

/-- The assertion after a statement that was run with the locks `taken`. -/
def NextOk (C : Context) (call : Call) (taken : List (Lock Row)) (db : Db) (n : Next) : Prop :=
  Ok C ⟨⟨call, n.1⟩, n.2.locks taken⟩ (n.2.db db)

section statements

variable {C : Context} {call : Call} {taken : List (Lock Row)} {db : Db} {n : Next} {a : Answer}

theorem NextOk.raise {failure : DeviceFailure} : NextOk C call taken db (raise failure) := trivial

theorem NextOk.credentialRejected : NextOk C call taken db credentialRejected := trivial

theorem NextOk.goto {stage : Stage} (h : Ok C ⟨⟨call, stage⟩, taken⟩ db) :
    NextOk C call taken db (goto stage) := h

theorem NextOk.statement {fate : Files.Fate} (h : NextOk C call taken db n) :
    NextOk C call taken db (statement fate n) := by
  unfold Devices.statement
  split
  · exact h
  · exact .raise

theorem pairingByHash_spec {hash : Text} {p : DevicePairingCode}
    (h : db.pairingByHash hash = some p) :
    db.pairings.get? p.id = some p ∧ p.codeHash = hash :=
  ⟨Table.get?_of_mem (List.mem_of_find?_eq_some h),
    of_decide_eq_true (List.find?_some (p := fun p : DevicePairingCode =>
      decide (p.codeHash = hash)) h)⟩

theorem sessionByHash_spec {hash : Text} {x : AuthSession} (h : db.sessionByHash hash = some x) :
    x.refreshTokenHash = hash :=
  of_decide_eq_true (List.find?_some (p := fun x : AuthSession =>
    decide (x.refreshTokenHash = hash)) h)

theorem nextOk_start : NextOk C call taken db (Request.startStep C a db call) := by
  cases call with
  | createPairingCode ownerId projectIds =>
      simp only [Request.startStep]
      split
      · exact .raise
      · split
        · exact .raise
        · trivial
  | pair rawCode deviceName =>
      simp only [Request.startStep]
      split
      · trivial
      · split
        · exact .credentialRejected
        · rename_i hash hhash
          apply NextOk.statement
          split
          · exact .credentialRejected
          · rename_i p hp
            obtain ⟨hget, hcode⟩ := pairingByHash_spec hp
            exact ⟨rawCode, deviceName, hash, rfl, hhash, p, hget, hcode⟩
  | refresh rawRefresh =>
      simp only [Request.startStep]
      split
      · exact .credentialRejected
      · rename_i hash hhash
        apply NextOk.statement
        split
        · exact .credentialRejected
        · rename_i x hx
          exact ⟨rawRefresh, rfl, by rw [hhash, sessionByHash_spec hx]⟩
  | authenticate rawAccess =>
      simp only [Request.startStep]
      split
      · exact .raise
      · trivial
  | revoke ownerId deviceId => trivial

theorem nextOk_owner {now : Instant} {owner : Option User}
    (h : Request.ownerStep now owner call = some n) : NextOk C call taken db n := by
  cases call with
  | createPairingCode ownerId projectIds =>
      cases h
      split
      · exact .raise
      · split
        · trivial
        · exact .raise
  | revoke ownerId deviceId =>
      cases h
      split
      · exact .raise
      · split
        · trivial
        · exact .raise
  | pair | refresh | authenticate => cases h

theorem newSession_deviceId {deviceId ownerId : UUID} {now : Instant} {x : AuthSession}
    {pair : DeviceTokenPair} (h : newSession C deviceId ownerId now a = some (x, pair)) :
    x.deviceId = some deviceId := by
  obtain ⟨⟨token, expires⟩, -, h⟩ := Option.bind_eq_some_iff.mp h
  simp only at h
  split at h
  · cases h
  · obtain ⟨hash, -, h⟩ := Option.bind_eq_some_iff.mp h
    cases h
    rfl

theorem nextOk_projectsLocked {now : Instant} {owner : User} {purpose : Purpose}
    {found : List Project} {projectIds : List UUID} (hok : PurposeOk C call taken db purpose) :
    NextOk C call taken db
      (Request.projectsLocked C a now owner purpose found projectIds) := by
  cases purpose with
  | code =>
      simp only [Request.projectsLocked]
      split
      · exact .raise
      · split
        · exact .raise
        · trivial
  | device pairing name =>
      simp only [Request.projectsLocked]
      split
      · exact .credentialRejected
      · split
        · exact .raise
        · rename_i session pair hnew
          exact ⟨pairing, hok, rfl, newSession_deviceId hnew, rfl⟩

theorem refreshAccepted_spec {locator : AuthSession} {owner : Option User} {d : DeviceConnection}
    {current : Option AuthSession} {now : Instant}
    (h : refreshAccepted locator owner (some d) current now = true) :
    d.revokedAt = none ∧ ∃ x, current = some x ∧ LiveOn d.id x ∧ x.refreshUsedAt = none := by
  simp only [refreshAccepted, Option.any_some, Bool.and_eq_true, Option.any_eq_true, beq_iff_eq] at h
  obtain ⟨-, ⟨-, hrevoked⟩, x, hx, ⟨⟨⟨⟨⟨-, -⟩, hdevice⟩, hused⟩, hlive⟩, -⟩⟩ := h
  exact ⟨hrevoked, x, hx, ⟨hdevice, hlive⟩, hused⟩

theorem bearerAccepted_spec {b : Bearer} {owner : Option User} {d : DeviceConnection}
    {session : Option AuthSession} {now : Instant}
    (h : bearerAccepted b owner (some d) session now = true) : d.revokedAt = none := by
  simp only [bearerAccepted, Option.any_some, Bool.and_eq_true, beq_iff_eq] at h
  exact h.1.1.1.2.2

theorem covers_snapshot {d : UUID} : Covers db d
    ((db.sessions.rows.filter fun x => decide (x.deviceId = some d)).map (·.id)) [] := by
  intro i x hx hlive
  refine .inl (List.mem_map.mpr ⟨x, ?_, Table.key_of_get? hx⟩)
  exact List.mem_filter.mpr ⟨Table.mem_of_get? hx, decide_eq_true hlive.1⟩

/-- The next session of a snapshot is live and noted, or not live. -/
theorem Covers.next {d i : UUID} {rest unrevoked : List UUID}
    (h : Covers db d (i :: rest) unrevoked) :
    Covers db d rest (unrevoked ++ [i]) ∧
      ((db.sessions.get? i).any (fun x => x.revokedAt == none) = false →
        Covers db d rest unrevoked) := by
  constructor
  · intro j x hx hlive
    rcases h j x hx hlive with hmem | hmem
    · rcases List.mem_cons.mp hmem with rfl | hmem
      · exact .inr (List.mem_append_right _ (List.mem_singleton_self _))
      · exact .inl hmem
    · exact .inr (List.mem_append_left _ hmem)
  · intro hdead j x hx hlive
    rcases h j x hx hlive with hmem | hmem
    · rcases List.mem_cons.mp hmem with rfl | hmem
      · rw [hx] at hdead
        simp [hlive.2] at hdead
      · exact .inl hmem
    · exact .inr hmem

theorem nextOk_commit {work : Work} {reply : Reply} (h : Request.step C a db
    ⟨call, .commit work reply⟩ = some n) : NextOk C call taken db n := by
  cases h
  split <;> trivial

/-- Every statement establishes the assertion of the stage it leads to. -/
theorem nextOk_step {r : Request} (hok : Ok C ⟨r, taken⟩ db) (hneeds : ∀ l ∈ r.needs, l ∈ taken)
    (h : r.step C a db = some n) : NextOk C r.call taken db n := by
  obtain ⟨call, stage⟩ := r
  cases stage with
  | start =>
      cases h
      exact nextOk_start
  | owner now =>
      cases call with
      | createPairingCode ownerId projectIds | revoke ownerId deviceId =>
          simp only [Request.step] at h
          obtain ⟨m, hm, rfl⟩ := Option.map_eq_some_iff.mp h
          exact (nextOk_owner hm).statement
      | pair | refresh | authenticate => cases h
  | pairing now id name =>
      obtain ⟨raw, name', hash, hcall, hhash, p, hp, hpair⟩ := hok
      cases h
      apply NextOk.statement
      split
      · exact .credentialRejected
      · rename_i q hq
        obtain rfl := Option.some.inj (hp.symm.trans hq)
        split
        · exact .credentialRejected
        · rename_i hguard
          have hunused : p.usedAt = none := by
            simpa using (not_or.mp hguard).1
          obtain rfl := Table.key_of_get? hp
          exact ⟨hneeds _ (List.mem_singleton_self _), hp, hunused, raw, name', hcall, hpair ▸ hhash⟩
  | pairingOwner now pairing name =>
      cases h
      apply NextOk.statement
      split
      · exact .credentialRejected
      · split
        · exact hok
        · exact .credentialRejected
  | projects now owner purpose =>
      cases h
      exact .statement hok
  | lockProjects now owner purpose ids found =>
      cases h
      apply NextOk.statement
      split
      · exact nextOk_projectsLocked hok
      · exact hok
  | locator now locator =>
      cases h
      apply NextOk.statement
      split
      · exact .credentialRejected
      · exact hok
  | refreshOwner now locator device =>
      cases h
      exact .statement hok
  | refreshDevice now locator owner =>
      cases h
      refine .statement ⟨hok, fun d hd => ?_⟩
      obtain ⟨i, hi, hd⟩ := Option.bind_eq_some_iff.mp hd
      obtain rfl := Table.key_of_get? hd
      exact ⟨hneeds _ (by simp [Request.needs, hi]), hd⟩
  | refreshSession now locator owner device =>
      obtain ⟨⟨raw, hcall, hhash⟩, hdevice⟩ := hok
      cases h
      apply NextOk.statement
      split
      · exact .credentialRejected
      · rename_i d
        simp only
        split
        · rename_i haccepted
          obtain ⟨hrevoked, x, hx, hlive, hused⟩ := refreshAccepted_spec haccepted
          obtain ⟨hx, hxhash⟩ := Option.filter_eq_some_iff.mp hx
          rw [beq_iff_eq] at hxhash
          split
          · exact .raise
          · rename_i session pair hnew
            exact ⟨hneeds _ (List.mem_singleton_self _), d, hdevice d rfl, hrevoked,
              newSession_deviceId hnew, x, hx, hlive, hused, raw, hcall, hxhash ▸ hhash⟩
        · exact .credentialRejected
  | bearerOwner now bearer =>
      cases h
      exact .statement trivial
  | bearerDevice now bearer owner =>
      cases h
      refine .statement fun d hd => ?_
      obtain hid := Table.key_of_get? hd
      exact ⟨hneeds _ (by rw [hid]; exact List.mem_singleton_self _), hid.symm ▸ hd⟩
  | bearerSession now bearer owner device =>
      cases h
      apply NextOk.statement
      split
      · exact .raise
      · rename_i d
        split
        · rename_i haccepted
          exact ⟨hok d rfl, bearerAccepted_spec haccepted⟩
        · exact .raise
  | bearerProjects now device =>
      cases h
      exact .statement hok
  | bearerScopes now device projectIds =>
      cases h
      exact .statement ⟨device, hok.1, rfl, hok.2⟩
  | device now owner =>
      cases call with
      | revoke ownerId deviceId =>
          cases h
          apply NextOk.statement
          split
          · exact .raise
          · rename_i d hd
            obtain ⟨hd, -⟩ := Option.filter_eq_some_iff.mp hd
            obtain rfl := Table.key_of_get? hd
            split
            · trivial
            · exact ⟨hneeds _ (List.mem_singleton_self _), hd⟩
      | createPairingCode | pair | refresh | authenticate => cases h
  | sessions now device =>
      cases h
      exact .statement ⟨hok, covers_snapshot, fun i hi => by cases hi⟩
  | lockSessions now device ids unrevoked =>
      obtain ⟨hdevice, hcovers, hlocks⟩ := hok
      cases h
      split
      · exact ⟨device, hdevice, rfl, hcovers, hlocks⟩
      · rename_i i rest
        apply NextOk.statement
        split
        · refine ⟨hdevice, hcovers.next.1, fun j hj => ?_⟩
          rcases List.mem_append.mp hj with hj | hj
          · exact hlocks j hj
          · obtain rfl := List.mem_singleton.mp hj
            exact hneeds _ (List.mem_singleton_self _)
        · rename_i hdead
          exact ⟨hdevice, hcovers.next.2 (Bool.eq_false_iff.mpr hdead), hlocks⟩
  | commit work reply => exact nextOk_commit h
  | denied failure =>
      cases h
      split <;> trivial
  | done | failed | aborted => cases h

end statements

/-! ### Every run -/

section runs

variable {C : Context} {a : Answer} {db db' : Db}

/-- A statement that leaves the database as it is. -/
def Quiet (n : Next) : Prop := ∀ db, n.2 ≠ .commit db

theorem Quiet.raise {failure : DeviceFailure} : Quiet (raise failure) := by
  intro db h
  cases h

theorem Quiet.denied {failure : DeviceFailure} : Quiet (.denied failure, .release) := by
  intro db h
  cases h

theorem Quiet.goto {stage : Stage} : Quiet (goto stage) := by
  intro db h
  cases h

theorem Quiet.statement {fate : Files.Fate} {n : Next} (h : Quiet n) :
    Quiet (statement fate n) := by
  unfold Devices.statement
  split
  · exact h
  · exact .raise

theorem quiet_start {call : Call} : Quiet (Request.startStep C a db call) := by
  cases call <;> simp only [Request.startStep] <;>
    repeat' first
      | exact Quiet.goto | exact Quiet.raise | exact Quiet.denied | apply Quiet.statement | split

theorem quiet_owner {now : Instant} {owner : Option User} {call : Call} {n : Next}
    (h : Request.ownerStep now owner call = some n) : Quiet n := by
  cases call <;> cases h
  all_goals repeat' first | exact Quiet.goto | exact Quiet.raise | split

theorem quiet_projectsLocked {now : Instant} {owner : User} {purpose : Purpose}
    {found : List Project} {projectIds : List UUID} :
    Quiet (Request.projectsLocked C a now owner purpose found projectIds) := by
  cases purpose <;> simp only [Request.projectsLocked] <;>
    repeat' first | exact Quiet.goto | exact Quiet.raise | exact Quiet.denied | split

/-- Only a commit changes the database, and by what was flushed. -/
theorem work_of_commit {r : Request} {stage : Stage}
    (h : r.step C a db = some (stage, .commit db')) :
    ∃ work reply, r.stage = .commit work reply ∧ db.write? work = some db' ∧
      a.fate.applied = true := by
  obtain ⟨call, stage'⟩ := r
  have hquiet : ∀ n, Quiet n → some n = some (stage, .commit db') → False := fun n hn heq =>
    hn db' (congrArg Prod.snd (Option.some.inj heq))
  cases stage' with
  | commit work reply =>
      simp only [Request.step, Option.some.injEq] at h
      split at h
      · cases h
        exact ⟨work, reply, rfl, by assumption, by simp [*, Files.Fate.applied]⟩
      · cases h
        exact ⟨work, reply, rfl, by assumption, by simp [*, Files.Fate.applied]⟩
      · cases h
  | owner now =>
      cases call with
      | createPairingCode | revoke =>
          simp only [Request.step] at h
          obtain ⟨m, hm, heq⟩ := Option.map_eq_some_iff.mp h
          exact (hquiet _ (quiet_owner hm).statement (congrArg some heq)).elim
      | pair | refresh | authenticate => cases h
  | device now owner =>
      cases call with
      | revoke ownerId deviceId =>
          refine (hquiet _ ?_ h).elim
          repeat' first | exact Quiet.goto | exact Quiet.raise | apply Quiet.statement | split
      | createPairingCode | pair | refresh | authenticate => cases h
  | start => exact (hquiet _ quiet_start h).elim
  | pairing | pairingOwner | projects | lockProjects | locator | refreshOwner | refreshDevice
  | refreshSession | bearerOwner | bearerDevice | bearerSession | bearerProjects | bearerScopes
  | sessions | lockSessions | denied =>
      refine (hquiet _ ?_ h).elim
      repeat' first
        | exact Quiet.goto | exact Quiet.raise | exact Quiet.denied | exact quiet_projectsLocked
        | apply Quiet.statement | split | simp only
  | done | failed | aborted => cases h

theorem program_step {r r' : Request} {e : Effect Db}
    (h : (program C).step a db r = some (r', e)) :
    r' = { r with stage := r'.stage } ∧ r.step C a db = some (r'.stage, e) := by
  obtain ⟨n, hn, heq⟩ := Option.map_eq_some_iff.mp h
  cases heq
  exact ⟨rfl, hn⟩

theorem DeviceOk.mono {d : DeviceConnection} {locks taken : List (Lock Row)}
    (h : DeviceOk d locks db) (hsub : ∀ l ∈ locks, l ∈ taken) : DeviceOk d taken db :=
  ⟨hsub _ h.lock, h.row⟩

theorem CodeOk.mono {call : Call} {p : DevicePairingCode} {locks taken : List (Lock Row)}
    (h : CodeOk C call p locks db) (hsub : ∀ l ∈ locks, l ∈ taken) : CodeOk C call p taken db :=
  ⟨hsub _ h.lock, h.row, h.unused, h.code⟩

theorem PurposeOk.mono {call : Call} {purpose : Purpose} {locks taken : List (Lock Row)}
    (h : PurposeOk C call locks db purpose) (hsub : ∀ l ∈ locks, l ∈ taken) :
    PurposeOk C call taken db purpose := by
  cases purpose with
  | code => trivial
  | device pairing name => exact CodeOk.mono h hsub

theorem CommitOk.mono {call : Call} {work : Work} {locks taken : List (Lock Row)}
    (h : CommitOk C call locks db work) (hsub : ∀ l ∈ locks, l ∈ taken) :
    CommitOk C call taken db work := by
  cases work with
  | nothing | createPairingCode => trivial
  | pair id now device session =>
      obtain ⟨p, hcode, hrest⟩ := h
      exact ⟨p, hcode.mono hsub, hrest⟩
  | refresh current now session =>
      obtain ⟨d, hdevice, hrest⟩ := h.device
      exact ⟨hsub _ h.lock, d, hdevice.mono hsub, hrest⟩
  | authenticate id lastUsedAt =>
      obtain ⟨d, hdevice, hrest⟩ := h
      exact ⟨d, hdevice.mono hsub, hrest⟩
  | revoke id now unrevoked =>
      obtain ⟨d, hdevice, hid, hcovers, hlocks⟩ := h
      exact ⟨d, hdevice.mono hsub, hid, hcovers, fun i hi => hsub _ (hlocks i hi)⟩

/-- An assertion survives more locks. -/
theorem Ok.mono {r : Request} {locks taken : List (Lock Row)} (hok : Ok C ⟨r, locks⟩ db)
    (hsub : ∀ l ∈ locks, l ∈ taken) : Ok C ⟨r, taken⟩ db := by
  obtain ⟨call, stage⟩ := r
  cases stage with
  | pairingOwner now pairing name => exact CodeOk.mono hok hsub
  | projects | lockProjects => exact PurposeOk.mono hok hsub
  | refreshSession now locator owner device => exact ⟨hok.1, fun d hd => (hok.2 d hd).mono hsub⟩
  | bearerSession now bearer owner device => exact fun d hd => (hok d hd).mono hsub
  | bearerProjects | bearerScopes => exact ⟨hok.1.mono hsub, hok.2⟩
  | sessions now device => exact DeviceOk.mono hok hsub
  | lockSessions now device ids unrevoked =>
      exact ⟨hok.1.mono hsub, hok.2.1, fun i hi => hsub _ (hok.2.2 i hi)⟩
  | commit work reply => exact CommitOk.mono hok hsub
  | pairing | locator | refreshOwner | refreshDevice => exact hok
  | start | owner | bearerOwner | bearerDevice | device | denied | done | failed | aborted =>
      trivial

theorem outline : Program.Outline (program C) Sound (Ok C) where
  start hI hinit := by
    rename_i r db
    obtain ⟨call, stage⟩ := r
    obtain rfl : stage = .start := of_decide_eq_true hinit
    trivial
  abort hok := by
    rename_i c db
    obtain ⟨⟨call, stage⟩, locks⟩ := c
    cases stage <;> trivial
  own hI hok hstep := by
    rename_i a c db r e
    obtain ⟨hr, hstep⟩ := program_step hstep
    have htaken := hok.mono fun l hl => List.mem_append_left c.pc.needs hl
    rw [hr]
    refine ⟨?_, nextOk_step htaken (fun l hl => List.mem_append_right _ hl) hstep⟩
    cases e with
    | proceed | release => exact hI
    | commit db' =>
        obtain ⟨work, reply, hstage, hwrite, -⟩ := work_of_commit hstep
        obtain ⟨⟨call, stage⟩, locks⟩ := c
        cases hstage
        exact hI.written (Db.written hwrite) hok
  other hI hown hok hstep hfree := by
    rename_i a c d db r e
    obtain ⟨-, hstep⟩ := program_step hstep
    cases e with
    | proceed | release => exact hok
    | commit db' =>
        obtain ⟨work, reply, hstage, hwrite, -⟩ := work_of_commit hstep
        obtain ⟨⟨call, stage⟩, locks⟩ := c
        cases hstage
        exact hok.written (Db.written hwrite) hown fun l hl =>
          hfree l (List.mem_append_left _ hl)

/-- Every database that the transactions reach from a sound one is sound, and
every request knows of it what its stage says. -/
theorem annotated_of_reachable {db : Db} {s : DeviceState}
    (h : Transition.Reachable (next C) (State.init db) s) (hdb : Sound db) :
    Program.Annotated Sound (Ok C) s :=
  (outline (C := C)).reachable h hdb

end runs

end SuperBoss.Devices
