import SuperBoss.Auth.Disclosure

/-!
The login lockout of one user. Requests take turns on the locked row; only a password
change works on a row that it has read before, because its lock does not read again.
-/

namespace SuperBoss.Auth

open SuperBoss.Core
open SuperBoss.Library.Transition

/-- What the requests know of one user: the row, the rows that password changes have
loaded, and the last reading of the clock. -/
structure Account where
  row : User
  loaded : List User
  clock : Instant
  deriving DecidableEq

/-- One request's turn on the row; `load` is the read of a password change before. -/
inductive Turn
  | load
  | login (password : Text) (now : Instant) (salt : Nat)
  | changePassword (i : Nat) (currentPassword newPassword : Text) (now : Instant) (salt : Nat)
  | resetStaffPassword (temporaryPassword : Text) (now : Instant) (salt : Nat)
  | resetOwnerPassword (password : Text) (now : Instant) (salt : Nat)
  | updateStaff (displayName : Option Text) (status : Option UserStatus)
  deriving DecidableEq

/-- What became of a turn: a wrong password was evaluated, or a login, password change
or reset was successful. -/
inductive Mark
  | guess
  | clear
  | other
  deriving DecidableEq

/-- The clock reading of a turn. -/
def Turn.now : Turn → Option Instant
  | .load | .updateStaff _ _ => none
  | .login _ now _ | .changePassword _ _ _ now _ | .resetStaffPassword _ now _
  | .resetOwnerPassword _ now _ => some now

variable (C : Context)

/-- The row is not locked any more, and the password is wrong. -/
def guesses (password : Text) (now : Instant) (row : User) : Bool :=
  !row.lockedUntil.any (fun until_ => now < until_) && !verifyPassword C row.passwordHash password

/-- A reset of the row. -/
def reset (allowed : Bool) (password : Text) (mustChange : Bool) (now : Instant) (salt : Nat)
    (row : User) : Mark × User :=
  if allowed then
    match hashPassword C salt password with
    | none => (.other, row)
    | some hash => (.clear, withPassword row hash mustChange now)
  else (.other, row)

/-- `change_password` of a request that has loaded the row. The columns it writes are
those that differ from the loaded ones. -/
def changeRow (currentPassword newPassword : Text) (now : Instant) (salt : Nat) (loaded row : User) :
    Mark × User :=
  if changeAccepted C currentPassword newPassword loaded then
    match hashPassword C salt newPassword with
    | none => (.other, row)
    | some hash => (.clear, (UserUpdate.flush loaded (withPassword loaded hash false now)).apply row)
  else (.other, row)

def Turn.apply (s : Account) : Turn → Mark × User
  | .load => (.other, s.row)
  | .login password now salt =>
      let (accepted, assigned) := loginUser C password now salt s.row
      (if accepted then .clear else if guesses C password now s.row then .guess else .other, assigned)
  | .changePassword i current new now salt =>
      match s.loaded[i]? with
      | none => (.other, s.row)
      | some loaded => changeRow C current new now salt loaded s.row
  | .resetStaffPassword temporary now salt =>
      reset C (s.row.role != .owner) temporary true now salt s.row
  | .resetOwnerPassword password now salt =>
      reset C (s.row.role == .owner) password false now salt s.row
  | .updateStaff displayName status =>
      if s.row.role = .owner then (.other, s.row)
      else
        (.other, { s.row with
          displayName := displayName.getD s.row.displayName
          status := status.getD s.row.status })

/-- The next turn. Clock readings do not go back. -/
def Account.next (s : Account) (e : Turn) : Option Account :=
  if e.now.all fun now => s.clock ≤ now then
    some ⟨(e.apply C s).2, if e = .load then s.loaded ++ [s.row] else s.loaded, e.now.getD s.clock⟩
  else none

/-- What became of a turn, with its time. -/
def record (s : Account) (e : Turn) : List (Instant × Mark) :=
  (e.now.map fun now => (now, (e.apply C s).1)).toList

def history (s : Account) : List Turn → List (Instant × Mark)
  | [] => []
  | e :: es => record C s e ++ (s.next C e).elim [] fun t => history t es

/-! ### The counter of one row -/

/-- The account is locked exactly after the fifth failure. -/
def CounterSound (row : User) : Prop :=
  row.failedLoginCount ≤ maxLoginFailures ∧
    (row.failedLoginCount = maxLoginFailures ↔ row.lockedUntil ≠ none)

variable {C : Context}

/-- A lock that has not expired refuses every password. -/
theorem loginUser_locked {password : Text} {now until_ : Instant} {salt : Nat} {row : User}
    (hlocked : row.lockedUntil = some until_) (hnow : now < until_) :
    loginUser C password now salt row = (false, row) := by
  unfold loginUser
  rw [hlocked]
  exact if_pos (by simpa using hnow)

/-- The failures that count: none once a lock has expired. -/
def failures (row : User) : Nat := if row.lockedUntil.isSome then 0 else row.failedLoginCount

/-- A login is refused unseen, succeeds, or counts one failure more. -/
theorem loginUser_cases (C : Context) (password : Text) (now : Instant) (salt : Nat) (row : User) :
    (∃ until_, row.lockedUntil = some until_ ∧ now < until_ ∧
        loginUser C password now salt row = (false, row)) ∨
      ((∀ until_, row.lockedUntil = some until_ → until_ ≤ now) ∧
        (((loginUser C password now salt row).1 = true ∧
            (loginUser C password now salt row).2.failedLoginCount = 0 ∧
            (loginUser C password now salt row).2.lockedUntil = none) ∨
          ((loginUser C password now salt row).1 = false ∧
            (loginUser C password now salt row).2.failedLoginCount =
              min (failures row + 1) maxLoginFailures ∧
            (loginUser C password now salt row).2.lockedUntil =
              if maxLoginFailures ≤ failures row + 1 then some (now + loginLockDuration) else none))) := by
  cases hset : row.lockedUntil with
  | none =>
      refine .inr ⟨nofun, ?_⟩
      simp only [loginUser, hset, failures, Option.any_none, Option.isSome_none, Bool.false_eq_true,
        if_false]
      split
      · exact .inr ⟨rfl, rfl, by simp [maxLoginFailures]⟩
      · exact .inl ⟨rfl, rfl, rfl⟩
  | some until_ =>
      by_cases hnow : now < until_
      · exact .inl ⟨until_, rfl, hnow, loginUser_locked hset hnow⟩
      · refine .inr ⟨fun u hu => ?_, ?_⟩
        · cases hu
          exact not_lt.mp hnow
        · simp only [loginUser, hset, failures, Option.any_some, decide_eq_true_eq, hnow, if_false,
            Option.isSome_some, if_true]
          split
          · exact .inr ⟨rfl, rfl, by simp [maxLoginFailures]⟩
          · exact .inl ⟨rfl, rfl, rfl⟩

theorem CounterSound.loginUser {row : User} (h : CounterSound row) (password : Text) (now : Instant)
    (salt : Nat) : CounterSound (loginUser C password now salt row).2 := by
  rcases loginUser_cases C password now salt row with ⟨_, -, -, heq⟩ |
    ⟨-, ⟨-, hcount, hlocked⟩ | ⟨-, hcount, hlocked⟩⟩
  · rw [heq]
    exact h
  · simp [CounterSound, hcount, hlocked, maxLoginFailures]
  · unfold CounterSound
    rw [hcount, hlocked]
    refine ⟨min_le_right _ _, ?_⟩
    split
    · simp only [ne_eq, reduceCtorEq, not_false_eq_true, iff_true]
      omega
    · simp only [ne_eq, not_true_eq_false, iff_false]
      omega

theorem CounterSound.of_zero {row : User} (hcount : row.failedLoginCount = 0)
    (hlocked : row.lockedUntil = none) : CounterSound row := by
  simp [CounterSound, hcount, hlocked, maxLoginFailures]

theorem CounterSound.reset {row : User} (h : CounterSound row) (allowed : Bool) (password : Text)
    (mustChange : Bool) (now : Instant) (salt : Nat) :
    CounterSound (reset C allowed password mustChange now salt row).2 := by
  unfold Auth.reset
  split
  · split
    · exact h
    · exact .of_zero rfl rfl
  · exact h

/-- A password change that loaded a row with failures, before the account was locked,
and whose own checks pass. -/
def Unlocks (C : Context) (s : Account) (e : Turn) : Prop :=
  ∃ i current new now salt loaded, e = .changePassword i current new now salt ∧
    s.loaded[i]? = some loaded ∧ changeAccepted C current new loaded = true ∧
    validatePassword new = true ∧ loaded.failedLoginCount ≠ 0 ∧ loaded.lockedUntil = none ∧
    s.row.lockedUntil ≠ none

/-- What a password change leaves of the counter and the lock. -/
theorem changeRow_counter {current new : Text} {loaded : User} (now : Instant) (salt : Nat) (row : User)
    (haccepted : changeAccepted C current new loaded = true) (hvalid : validatePassword new = true) :
    (changeRow C current new now salt loaded row).2.failedLoginCount =
        (if loaded.failedLoginCount = 0 then row.failedLoginCount else 0) ∧
      (changeRow C current new now salt loaded row).2.lockedUntil =
        (if loaded.lockedUntil = none then row.lockedUntil else none) := by
  unfold changeRow
  rw [if_pos haccepted]
  simp only [hashPassword, if_pos hvalid]
  simp only [UserUpdate.apply, UserUpdate.flush, withPassword, UserUpdate.changed]
  constructor
  · by_cases hzero : loaded.failedLoginCount = 0
    · simp [hzero]
    · simp [hzero]
  · by_cases hnone : loaded.lockedUntil = none
    · simp [hnone]
    · simp [hnone]

theorem changeRow_refused {current new : Text} {now : Instant} {salt : Nat} {loaded row : User}
    (h : ¬(changeAccepted C current new loaded = true ∧ validatePassword new = true)) :
    changeRow C current new now salt loaded row = (.other, row) := by
  unfold changeRow
  split
  · rename_i haccepted
    rw [hashPassword, if_neg fun hvalid => h ⟨haccepted, hvalid⟩]
  · rfl

theorem CounterSound.changeRow {loaded row : User} (h : CounterSound row) (hloaded : CounterSound loaded)
    {current new : Text} {now : Instant} {salt : Nat}
    (hclear : changeAccepted C current new loaded = true → validatePassword new = true →
      loaded.failedLoginCount ≠ 0 → loaded.lockedUntil = none → row.lockedUntil = none) :
    CounterSound (changeRow C current new now salt loaded row).2 := by
  by_cases hpass : changeAccepted C current new loaded = true ∧ validatePassword new = true
  · obtain ⟨hcount, hlocked⟩ := changeRow_counter now salt row hpass.1 hpass.2
    by_cases hzero : loaded.failedLoginCount = 0
    · have hnone : loaded.lockedUntil = none := by
        by_contra hset
        have hfive := hloaded.2.mpr hset
        rw [hzero] at hfive
        cases hfive
      rw [if_pos hzero] at hcount
      rw [if_pos hnone] at hlocked
      simpa only [CounterSound, hcount, hlocked] using h
    · rw [if_neg hzero] at hcount
      refine .of_zero hcount ?_
      rw [hlocked]
      split
      · exact hclear hpass.1 hpass.2 hzero ‹_›
      · rfl
  · rw [changeRow_refused hpass]
    exact h

/-! ### One turn -/

theorem next_cases {s t : Account} {e : Turn} (h : s.next C e = some t) :
    (∀ now, e.now = some now → s.clock ≤ now) ∧
      t = ⟨(e.apply C s).2, if e = .load then s.loaded ++ [s.row] else s.loaded,
        e.now.getD s.clock⟩ := by
  unfold Account.next at h
  split at h
  · rename_i hclock
    refine ⟨fun now hnow => ?_, (Option.some.inj h).symm⟩
    rw [hnow] at hclock
    simpa using hclock
  · cases h

/-- The row and the rows that were loaded are sound. -/
structure Account.Sound (s : Account) : Prop where
  row : CounterSound s.row
  loaded : ∀ row ∈ s.loaded, CounterSound row

theorem Account.Sound.next {s t : Account} {e : Turn} (hs : s.Sound) (hclear : ¬Unlocks C s e)
    (h : s.next C e = some t) : t.Sound := by
  obtain ⟨-, rfl⟩ := next_cases h
  constructor
  · cases e with
    | load => exact hs.row
    | login password now salt => exact hs.row.loginUser password now salt
    | changePassword i current new now salt =>
        simp only [Turn.apply]
        split
        · exact hs.row
        · rename_i loaded hget
          refine hs.row.changeRow (hs.loaded loaded (List.mem_of_getElem? hget))
            fun haccepted hvalid hcount hlocked => ?_
          by_contra hset
          exact hclear ⟨i, current, new, now, salt, loaded, rfl, hget, haccepted, hvalid, hcount,
            hlocked, hset⟩
    | resetStaffPassword temporary now salt => exact hs.row.reset _ _ _ _ _
    | resetOwnerPassword password now salt => exact hs.row.reset _ _ _ _ _
    | updateStaff displayName status =>
        simp only [Turn.apply]
        split
        · exact hs.row
        · exact hs.row
  · intro row hrow
    simp only at hrow
    split at hrow
    · rcases List.mem_append.mp hrow with hrow | hrow
      · exact hs.loaded row hrow
      · rw [List.mem_singleton.mp hrow]
        exact hs.row
    · exact hs.loaded row hrow

/-- A password change that unlocks leaves a lock without its failures. -/
theorem not_sound_of_unlocks {s t : Account} {e : Turn} (h : s.next C e = some t)
    (hunlocks : Unlocks C s e) : ¬CounterSound t.row := by
  obtain ⟨i, current, new, now, salt, loaded, rfl, hget, haccepted, hvalid, hcount, hlocked, hset⟩ :=
    hunlocks
  obtain ⟨-, rfl⟩ := next_cases h
  obtain ⟨hzero, hkept⟩ := changeRow_counter now salt s.row haccepted hvalid
  rw [if_neg hcount] at hzero
  rw [if_pos hlocked] at hkept
  simp only [Turn.apply, hget, CounterSound, hzero, hkept]
  rintro ⟨-, hiff⟩
  cases hiff.mpr hset

/-! ### The guesses of one window -/

/-- The half-open window of 15 minutes from `t` on. -/
def InWindow (t now : Instant) : Prop := t ≤ now ∧ now < t + loginLockDuration

instance (t now : Instant) : Decidable (InWindow t now) := inferInstanceAs (Decidable (_ ∧ _))

/-- The wrong passwords that were evaluated in the window. -/
def guessesIn (t : Instant) (records : List (Instant × Mark)) : Nat :=
  (records.filter fun r => decide (InWindow t r.1) && r.2 == .guess).length

/-- Nothing in the window has set the counter back. -/
def Unforgiven (t : Instant) (records : List (Instant × Mark)) : Prop :=
  ∀ r ∈ records, InWindow t r.1 → r.2 ≠ .clear

/-- What `n` guesses in the window have left. While the account is open they are all
counted; once it is locked, the lock lasts as long as the window. -/
structure Budget (t : Instant) (row : User) (n : Nat) : Prop where
  total : n ≤ maxLoginFailures
  unlocked : row.lockedUntil = none → n ≤ row.failedLoginCount ∧ n < maxLoginFailures
  locked : ∀ until_, row.lockedUntil = some until_ → n = 0 ∨ t + loginLockDuration ≤ until_

theorem Budget.zero (t : Instant) (row : User) : Budget t row 0 :=
  ⟨Nat.zero_le _, fun _ => ⟨Nat.zero_le _, by decide⟩, fun _ _ => .inl rfl⟩

theorem Budget.login {t now : Instant} {row : User} {n : Nat} {password : Text} {salt : Nat}
    (hn : Budget t row n) (hwindow : InWindow t now)
    (hfailed : (loginUser C password now salt row).1 = false) :
    Budget t (loginUser C password now salt row).2
      (n + if guesses C password now row then 1 else 0) := by
  rcases loginUser_cases C password now salt row with ⟨until_, hset, hnow, heq⟩ |
    ⟨hopen, ⟨hok, -⟩ | ⟨-, hcount, hlocked⟩⟩
  · have hnone : guesses C password now row = false := by
      simp [guesses, hset, hnow]
    rw [heq, hnone]
    exact hn
  · rw [hfailed] at hok
    cases hok
  · have hcounted : n ≤ failures row ∧ n < maxLoginFailures := by
      unfold failures
      cases hset : row.lockedUntil with
      | none => exact hn.unlocked hset
      | some until_ =>
          rcases hn.locked until_ hset with rfl | hlong
          · exact ⟨Nat.zero_le _, by decide⟩
          · exact absurd (hlong.trans (hopen until_ hset)) (not_le.mpr hwindow.2)
    have hone : (if guesses C password now row then 1 else 0) ≤ 1 := by
      split <;> decide
    refine ⟨by omega, fun hnone => ?_, fun until_ hset => ?_⟩
    · rw [hlocked] at hnone
      split at hnone
      · cases hnone
      · rw [hcount]
        omega
    · rw [hlocked] at hset
      split at hset
      · cases hset
        exact .inr (Int.add_le_add_right hwindow.1 _)
      · cases hset

theorem Budget.congr {t : Instant} {row row' : User} {n : Nat} (hn : Budget t row n)
    (hcount : row'.failedLoginCount = row.failedLoginCount)
    (hlocked : row'.lockedUntil = row.lockedUntil) : Budget t row' n := by
  refine ⟨hn.total, fun hnone => ?_, fun until_ hset => hn.locked until_ (hlocked ▸ hset)⟩
  rw [hcount]
  exact hn.unlocked (hlocked ▸ hnone)

theorem reset_cases (allowed : Bool) (password : Text) (mustChange : Bool) (now : Instant)
    (salt : Nat) (row : User) : (reset C allowed password mustChange now salt row).1 = .clear ∨
      reset C allowed password mustChange now salt row = (.other, row) := by
  unfold reset
  split
  · split
    · exact .inr rfl
    · exact .inl rfl
  · exact .inr rfl

theorem changeRow_cases (current new : Text) (now : Instant) (salt : Nat) (loaded row : User) :
    (changeRow C current new now salt loaded row).1 = .clear ∨
      changeRow C current new now salt loaded row = (.other, row) := by
  unfold changeRow
  split
  · split
    · exact .inr rfl
    · exact .inl rfl
  · exact .inr rfl

/-- Every turn but a login sets the counter back, or leaves it and the lock alone. -/
theorem Turn.apply_cases (s : Account) (e : Turn) :
    (∃ password now salt, e = .login password now salt) ∨
      (e.now ≠ none ∧ (e.apply C s).1 = .clear) ∨ ((e.apply C s).1 = .other ∧ (e.apply C s).2.failedLoginCount = s.row.failedLoginCount ∧
        (e.apply C s).2.lockedUntil = s.row.lockedUntil) := by
  have hkept : ∀ {x : Mark × User}, e.now ≠ none → x.1 = .clear ∨ x = (.other, s.row) →
      (e.now ≠ none ∧ x.1 = .clear) ∨ (x.1 = .other ∧
        x.2.failedLoginCount = s.row.failedLoginCount ∧ x.2.lockedUntil = s.row.lockedUntil) := by
    rintro x hnow (hclear | rfl)
    · exact .inl ⟨hnow, hclear⟩
    · exact .inr ⟨rfl, rfl, rfl⟩
  cases e with
  | load => exact .inr (.inr ⟨rfl, rfl, rfl⟩)
  | login password now salt => exact .inl ⟨password, now, salt, rfl⟩
  | changePassword i current new now salt =>
      right
      simp only [Turn.apply]
      split
      · exact .inr ⟨rfl, rfl, rfl⟩
      · exact hkept nofun (changeRow_cases ..)
  | resetStaffPassword temporary now salt => exact .inr (hkept nofun (reset_cases ..))
  | resetOwnerPassword password now salt => exact .inr (hkept nofun (reset_cases ..))
  | updateStaff displayName status =>
      right
      simp only [Turn.apply]
      split
      · exact .inr ⟨rfl, rfl, rfl⟩
      · exact .inr ⟨rfl, rfl, rfl⟩

/-- The budget of a window while the run goes on; before the window nothing counts. -/
structure Spent (t : Instant) (s : Account) (n : Nat) : Prop where
  before : s.clock < t → n = 0
  total : n ≤ maxLoginFailures
  budget : s.clock < t + loginLockDuration → Budget t s.row n

theorem guessesIn_append (t : Instant) (a b : List (Instant × Mark)) :
    guessesIn t (a ++ b) = guessesIn t a + guessesIn t b := by
  simp [guessesIn]

theorem guessesIn_singleton (t now : Instant) (mark : Mark) :
    guessesIn t [(now, mark)] = if InWindow t now ∧ mark = .guess then 1 else 0 := by
  by_cases h : InWindow t now ∧ mark = .guess
  · simp [guessesIn, h]
  · rw [if_neg h, guessesIn, List.filter_cons_of_neg]
    · rfl
    · simpa using h

/-- A turn spends what it guesses. -/
theorem Spent.next {t : Instant} {s u : Account} {n : Nat} {e : Turn} (hn : Spent t s n)
    (h : s.next C e = some u) (hkept : Unforgiven t (record C s e)) :
    Spent t u (n + guessesIn t (record C s e)) := by
  obtain ⟨hclock, rfl⟩ := next_cases h
  cases hnow : e.now with
  | none =>
      have hrecord : record C s e = [] := by simp [record, hnow]
      rw [hrecord]
      refine ⟨hn.before, hn.total, fun hlate => ?_⟩
      rcases Turn.apply_cases (C := C) s e with ⟨_, _, _, rfl⟩ | ⟨hsome, -⟩ | ⟨-, hcount, hlocked⟩
      · cases hnow
      · exact absurd hnow hsome
      · exact (hn.budget hlate).congr hcount hlocked
  | some now =>
      have hrecord : record C s e = [(now, (e.apply C s).1)] := by simp [record, hnow]
      rw [hrecord] at hkept ⊢
      rw [guessesIn_singleton]
      have hle := hclock now hnow
      by_cases hwindow : InWindow t now
      · have hclear := hkept _ (List.mem_singleton_self _) hwindow
        have hlate : s.clock < t + loginLockDuration := lt_of_le_of_lt hle hwindow.2
        have hspent : Budget t (e.apply C s).2
            (n + if InWindow t now ∧ (e.apply C s).1 = .guess then 1 else 0) := by
          rcases Turn.apply_cases (C := C) s e with ⟨password, _, salt, rfl⟩ | ⟨-, hcleared⟩ |
            ⟨hother, hcount, hlocked⟩
          · cases hnow
            have hfailed : (loginUser C password now salt s.row).1 = false := by
              by_contra haccepted
              exact hclear (by simp [Turn.apply, haccepted])
            have hcounted : (if InWindow t now ∧
                ((Turn.login password now salt).apply C s).1 = .guess then 1 else 0) =
                if guesses C password now s.row then 1 else 0 := by
              simp [Turn.apply, hfailed, hwindow]
            rw [hcounted]
            exact (hn.budget hlate).login hwindow hfailed
          · exact absurd hcleared hclear
          · simp only [hother, reduceCtorEq, and_false, if_false]
            exact (hn.budget hlate).congr hcount hlocked
        exact ⟨fun hbefore => absurd hwindow.1 (not_le.mpr hbefore), hspent.total, fun _ => hspent⟩
      · simp only [hwindow, false_and, if_false, Nat.add_zero]
        refine ⟨fun hbefore => hn.before (lt_of_le_of_lt hle hbefore), hn.total, fun hlate => ?_⟩
        have hbefore : now < t := by
          by_contra hstarted
          exact hwindow ⟨not_lt.mp hstarted, hlate⟩
        obtain rfl := hn.before (lt_of_le_of_lt hle hbefore)
        exact .zero t _

theorem Unforgiven.of_append {t : Instant} {a b : List (Instant × Mark)}
    (h : Unforgiven t (a ++ b)) : Unforgiven t a ∧ Unforgiven t b :=
  ⟨fun r hr => h r (List.mem_append_left b hr), fun r hr => h r (List.mem_append_right a hr)⟩

/-- However a run goes on, the window's guesses stay within its budget. -/
theorem guessesIn_le {t : Instant} {s s' : Account} {es : List Turn} {n : Nat} (hn : Spent t s n)
    (hrun : run (Account.next C) s es = some s') (hkept : Unforgiven t (history C s es)) :
    n + guessesIn t (history C s es) ≤ maxLoginFailures := by
  induction es generalizing s n with
  | nil => exact hn.total
  | cons e es ih =>
      obtain ⟨u, hu, hrest⟩ := Option.bind_eq_some_iff.mp hrun
      have hhistory : history C s (e :: es) = record C s e ++ history C u es := by
        simp [history, hu]
      rw [hhistory] at hkept ⊢
      obtain ⟨hrecord, hkept⟩ := hkept.of_append
      rw [guessesIn_append, ← Nat.add_assoc]
      exact ih (hn.next hu hrecord) hrest hkept

/-! ### Runs -/

/-- What a lockout is for: few guesses in a window, no success before the lock has
expired, and a counter that agrees with the lock. -/
structure Lockout (C : Context) (s₀ : Account) (es : List Turn) : Prop where
  guesses : ∀ t, Unforgiven t (history C s₀ es) → guessesIn t (history C s₀ es) ≤ 5
  locked : ∀ es₁ password now salt es₂ s until_, es = es₁ ++ .login password now salt :: es₂ →
    run (Account.next C) s₀ es₁ = some s → s.row.lockedUntil = some until_ → now < until_ →
      ((Turn.login password now salt).apply C s).1 ≠ .clear
  counter : ∀ es₁ es₂ s, es = es₁ ++ es₂ → run (Account.next C) s₀ es₁ = some s →
    0 ≤ s.row.failedLoginCount ∧ s.row.failedLoginCount ≤ 5 ∧
      (s.row.failedLoginCount = 5 ↔ s.row.lockedUntil ≠ none)

/-- The lockout works in a run if and only if no password change that loaded failures
finds the account locked. -/
theorem lockout_iff (C : Context) (s₀ s : Account) (es : List Turn) (hloaded : s₀.loaded = [])
    (hsound : CounterSound s₀.row) (hrun : run (Account.next C) s₀ es = some s) :
    Lockout C s₀ es ↔ ∀ es₁ e es₂ s, es = es₁ ++ e :: es₂ →
      run (Account.next C) s₀ es₁ = some s → ¬Unlocks C s e := by
  constructor
  · rintro h es₁ e es₂ u rfl hu hunlocks
    obtain ⟨u', hu', hrest⟩ := Option.bind_eq_some_iff.mp ((run_append ..).symm.trans hrun)
    obtain rfl := Option.some.inj (hu.symm.trans hu')
    obtain ⟨t, ht, -⟩ := Option.bind_eq_some_iff.mp hrest
    obtain ⟨-, hle, hiff⟩ := h.counter (es₁ ++ [e]) es₂ t (by simp) (run_concat_of hu ht)
    exact not_sound_of_unlocks ht hunlocks ⟨hle, hiff⟩
  · intro h
    refine ⟨fun t hkept => ?_, fun es₁ password now salt es₂ u until_ hes hu hset hnow => ?_,
      fun es₁ es₂ u hes hu => ?_⟩
    · have hn : Spent t s₀ 0 := ⟨fun _ => rfl, Nat.zero_le _, fun _ => .zero t _⟩
      have hle := guessesIn_le hn hrun hkept
      rwa [Nat.zero_add] at hle
    · simp only [Turn.apply, loginUser_locked hset hnow]
      split
      · simp_all
      · split <;> nofun
    · have hinv : u.Sound := by
        refine run_induction (I := fun es₁ s => ∀ es₂, es = es₁ ++ es₂ → s.Sound) ?_ ?_ hu es₂ hes
        · rintro - -
          refine ⟨hsound, fun row hrow => ?_⟩
          rw [hloaded] at hrow
          cases hrow
        · intro es₁ v e w hv ih hstep es₂ hes
          rw [List.append_assoc] at hes
          exact (ih _ hes).next (h es₁ e es₂ v hes hv) hstep
      exact ⟨Nat.zero_le _, hinv.row.1, hinv.row.2⟩

namespace Sample

def account : Account := ⟨user, [], 0⟩

def wrong : Turn := .login (Text.ofString "incorrect horse") 10 8

/-- Five wrong passwords, and the right one too late. -/
def guessing : List Turn := List.replicate 5 wrong ++ [.login password 11 8]

/-- A password change loads the row after one failure, and gets its lock after five. -/
def overtaken : List Turn :=
  [wrong, .load] ++ List.replicate 4 wrong ++
    [.changePassword 0 password (Text.ofString "another horse") 12 9]

end Sample

/-- The sixth attempt is refused, although its password is right. -/
theorem lockout_iff_guessing : Lockout Sample.context Sample.account Sample.guessing := by
  have hrun : (run (Account.next Sample.context) Sample.account Sample.guessing).isSome := by
    decide +kernel
  obtain ⟨s, hs⟩ := Option.isSome_iff_exists.mp hrun
  have hsound : CounterSound Sample.account.row := .of_zero rfl rfl
  refine (lockout_iff Sample.context Sample.account s Sample.guessing rfl hsound hs).mpr ?_
  rintro es₁ e es₂ u hes - ⟨i, current, new, now, salt, loaded, rfl, -⟩
  have hmem : Turn.changePassword i current new now salt ∈ Sample.guessing := by
    rw [hes]
    exact List.mem_append_right _ List.mem_cons_self
  simp [Sample.guessing, Sample.wrong] at hmem

/-- The password change resets the failures that it has loaded, and leaves the lock. -/
theorem overtaken_change_keeps_lock : ¬∀ es s, run (Account.next Sample.context) Sample.account es = some s →
    Lockout Sample.context Sample.account es := by
  have hrun : (run (Account.next Sample.context) Sample.account Sample.overtaken).map
      (fun s => (s.row.failedLoginCount, s.row.lockedUntil.isSome)) = some (0, true) := by
    decide +kernel
  obtain ⟨s, hs, hrow⟩ := Option.map_eq_some_iff.mp hrun
  obtain ⟨hcount, hlocked⟩ := Prod.mk.inj hrow
  intro h
  obtain ⟨-, -, hiff⟩ := (h _ s hs).counter Sample.overtaken [] s (List.append_nil _).symm hs
  rw [hcount] at hiff
  cases hiff.mpr (Option.isSome_iff_ne_none.mp hlocked)

end SuperBoss.Auth
