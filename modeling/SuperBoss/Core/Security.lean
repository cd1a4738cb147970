import SuperBoss.Core.Fields

/-!
Tokens: hashes of opaque tokens, and the claims of browser and device access
tokens as they are checked after the signature.
-/

namespace SuperBoss.Core

/-- `jwt.encode` and `jwt.decode` with HS256 under a secret. `decode` checks the
signature and gives the claims; the times of a token are checked apart. -/
structure Jwt where
  encode : Text → List (Text × Json) → Text
  decode : Text → Text → Option (List (Text × Json))
  decode_encode : ∀ secret claims, decode secret (encode secret claims) = some claims

structure Settings where
  jwtSecret : Text
  deriving DecidableEq

def microsecondsPerSecond : Int := 1000000

namespace Instant

def seconds (n : Int) : Int := n * microsecondsPerSecond

/-- `replace(microsecond=0)`. -/
def wholeSeconds (t : Instant) : Instant := seconds (t / microsecondsPerSecond)

/-- `int(datetime.timestamp())` of an instant without microseconds. -/
def timestamp (t : Instant) : Int := t / microsecondsPerSecond

theorem timestamp_seconds (n : Int) : timestamp (seconds n) = n :=
  Int.mul_ediv_cancel n (by decide)

theorem seconds_timestamp {t : Instant} (h : t.wholeSeconds = t) : seconds (timestamp t) = t := h

theorem wholeSeconds_seconds (n : Int) : wholeSeconds (seconds n) = seconds n :=
  congrArg seconds (timestamp_seconds n)

theorem timestamp_add_hours (t : Instant) (n : Int) :
    timestamp (t + hours n) = timestamp t + n * 3600 :=
  Int.add_mul_ediv_right t (n * 3600) (by decide)

theorem wholeSeconds_add_hours {t : Instant} (h : t.wholeSeconds = t) (n : Int) :
    wholeSeconds (t + hours n) = t + hours n := by
  show seconds (timestamp (t + hours n)) = _
  calc
    _ = seconds (timestamp t + n * 3600) := congrArg seconds (timestamp_add_hours t n)
    _ = seconds (timestamp t) + hours n := Int.add_mul _ _ _
    _ = t + hours n := congrArg (· + hours n) (seconds_timestamp h)

theorem wholeSeconds_le (t : Instant) : t.wholeSeconds ≤ t :=
  Int.ediv_mul_le t (by decide)

theorem min_le_wholeSeconds {t : Int} (h : Instant.min ≤ t) : Instant.min ≤ wholeSeconds t := by
  have hmin : (-62135596800 * 1000000 : Int) ≤ t := h
  show (-62135596800 * 1000000 : Int) ≤ t / 1000000 * 1000000
  omega

end Instant

/-- `hash_token`; `none` where the text has no UTF-8 encoding. -/
def hashToken (P : Platform) (raw : Text) : Option Text := raw.utf8.map P.sha256

/-- `set(payload) == names`. -/
def hasExactly (names : List String) (claims : List (Text × Json)) : Bool :=
  Json.onlyKeys names claims && names.all fun n => (Json.field? claims n).isSome

/-- A claim that is a string and not empty. -/
def stringClaim (claims : List (Text × Json)) (name : String) : Option Text :=
  match Json.field? claims name with
  | some (.str (c :: t)) => some (c :: t)
  | _ => none

def intClaim (claims : List (Text × Json)) (name : String) : Option Int :=
  match Json.field? claims name with
  | some (.int n) => some n
  | _ => none

/-! ### Browser access tokens -/

structure AccessClaims where
  sub : Text
  role : Text
  sessionId : Text
  iat : Int
  exp : Int
  jti : Text
  deriving DecidableEq

def accessClaimNames : List String := ["sub", "role", "session_id", "iat", "exp", "jti"]

/-- `issue_access_token`; `none` without a secret. -/
def issueAccessToken (J : Jwt) (settings : Settings) (userId : UUID) (role : String)
    (sessionId jti : UUID) (now : Instant) : Option (Text × Instant) :=
  if settings.jwtSecret = [] then none
  else
    let issuedAt := now.wholeSeconds
    let expiresAt := issuedAt + Instant.hours 2
    some (J.encode settings.jwtSecret
      [Json.field "sub" (.str userId.text), Json.field "role" (.str (Text.ofString role)),
        Json.field "session_id" (.str sessionId.text), Json.field "iat" (.int issuedAt.timestamp),
        Json.field "exp" (.int expiresAt.timestamp), Json.field "jti" (.str jti.text)], expiresAt)

/-- `decode_access_token`; `none` is a `TokenError`. -/
def decodeAccessToken (J : Jwt) (settings : Settings) (now : Instant) (token : Text) :
    Option AccessClaims := do
  if settings.jwtSecret = [] then none
  else
    let claims ← J.decode settings.jwtSecret token
    if !hasExactly accessClaimNames claims then none
    else
      let sub ← stringClaim claims "sub"
      let role ← stringClaim claims "role"
      let sessionId ← stringClaim claims "session_id"
      let jti ← stringClaim claims "jti"
      let iat ← intClaim claims "iat"
      let exp ← intClaim claims "exp"
      if now < Instant.seconds iat ∨ Instant.seconds exp ≤ now then none
      else some ⟨sub, role, sessionId, iat, exp, jti⟩

/-! ### Device access tokens -/

/-- `DEVICE_ACCESS_SCOPES`. -/
def deviceAccessScopes : List String :=
  ["imports:create", "imports:read-own", "imports:submit", "imports:upload"]

structure DeviceClaims where
  deviceId : UUID
  ownerId : UUID
  sessionId : UUID
  jti : UUID
  iat : Int
  exp : Int
  deriving DecidableEq

def deviceAccessClaims : List String :=
  ["sub", "device_id", "owner_id", "scopes", "session_id", "iat", "exp", "jti"]

def scopesJson : Json := .arr (deviceAccessScopes.map fun scope => .str (Text.ofString scope))

/-- The payload of `issue_device_access_token`. -/
def devicePayload (claims : DeviceClaims) : List (Text × Json) :=
  [Json.field "sub" (.str claims.deviceId.text), Json.field "device_id" (.str claims.deviceId.text),
    Json.field "owner_id" (.str claims.ownerId.text), Json.field "scopes" scopesJson,
    Json.field "session_id" (.str claims.sessionId.text), Json.field "iat" (.int claims.iat),
    Json.field "exp" (.int claims.exp), Json.field "jti" (.str claims.jti.text)]

/-- `issue_device_access_token`; `none` without a secret, or where the expiry is
no `datetime`. -/
def issueDeviceAccessToken (J : Jwt) (settings : Settings)
    (deviceId ownerId sessionId accessJti : UUID) (issuedAt : Instant) :
    Option (Text × Instant) :=
  let expiresAt := issuedAt + Instant.hours 2
  if settings.jwtSecret = [] ∨ Instant.max < expiresAt then none
  else
    some (J.encode settings.jwtSecret (devicePayload
      ⟨deviceId, ownerId, sessionId, accessJti, issuedAt.timestamp, expiresAt.timestamp⟩), expiresAt)

/-- A claim read with `UUID(str(·))`. The `str` of a value that is neither a
string nor an integer is never a UUID. -/
def uuidClaim (P : Platform) (claims : List (Text × Json)) (name : String) : Option UUID :=
  match Json.field? claims name with
  | some (.str t) => P.parseUuid t
  | some (.int n) => P.parseUuid (Json.renderInt n)
  | _ => none

/-- A registered claim that `jwt.decode` wants to be a string. -/
def isStringClaim (claims : List (Text × Json)) (name : String) : Bool :=
  match Json.field? claims name with
  | some (.str _) => true
  | _ => false

/-- `decode_device_access_token`; `none` is a `TokenError`. -/
def decodeDeviceAccessToken (J : Jwt) (P : Platform) (settings : Settings) (token : Text) :
    Option DeviceClaims := do
  if settings.jwtSecret = [] then none
  else
    let claims ← J.decode settings.jwtSecret token
    if !isStringClaim claims "sub" || !isStringClaim claims "jti" then none
    else if !hasExactly deviceAccessClaims claims then none
    else
      let iat ← intClaim claims "iat"
      let exp ← intClaim claims "exp"
      if exp ≠ iat + 2 * 60 * 60 then none
      else if Json.field? claims "scopes" ≠ some scopesJson then none
      else
        let subject ← uuidClaim P claims "sub"
        let deviceId ← uuidClaim P claims "device_id"
        let ownerId ← uuidClaim P claims "owner_id"
        let sessionId ← uuidClaim P claims "session_id"
        let jti ← uuidClaim P claims "jti"
        if subject ≠ deviceId then none
        else some ⟨deviceId, ownerId, sessionId, jti, iat, exp⟩

/-- `datetime.fromtimestamp(·, UTC)`. A year that `datetime` does not have is a
`ValueError`; a moment for which the C library has no calendar time is an
`OverflowError` or an `OSError`, which are none. -/
def fromTimestamp (n : Int) : Except PyError Instant :=
  if Instant.min ≤ Instant.seconds n ∧ Instant.seconds n ≤ Instant.max then
    .ok (Instant.seconds n)
  else if -67768040609740800 ≤ n ∧ n ≤ 67768036191676799 then .error .validation
  else .error .overflow

theorem uuidClaim_str {P : Platform} {claims : List (Text × Json)} {name : String} {u : UUID}
    (h : Json.field? claims name = some (.str u.text)) : uuidClaim P claims name = some u := by
  unfold uuidClaim
  rw [h]
  exact P.parseUuid_text u

/-- A payload with the lifetime of a device token is read back. -/
theorem decode_devicePayload {J : Jwt} {P : Platform} {settings : Settings} {claims : DeviceClaims}
    (hsecret : settings.jwtSecret ≠ []) (hexp : claims.exp = claims.iat + 2 * 60 * 60) :
    decodeDeviceAccessToken J P settings (J.encode settings.jwtSecret (devicePayload claims)) =
      some claims := by
  obtain ⟨deviceId, ownerId, sessionId, jti, iat, exp⟩ := claims
  obtain rfl : exp = iat + 2 * 60 * 60 := hexp
  generalize hpayload : devicePayload _ = payload
  have hsub : Json.field? payload "sub" = some (.str deviceId.text) := by
    rw [← hpayload]
    simp [devicePayload]
  have hdevice : Json.field? payload "device_id" = some (.str deviceId.text) := by
    rw [← hpayload]
    simp [devicePayload]
  have howner : Json.field? payload "owner_id" = some (.str ownerId.text) := by
    rw [← hpayload]
    simp [devicePayload]
  have hscopes : Json.field? payload "scopes" = some scopesJson := by
    rw [← hpayload]
    simp [devicePayload]
  have hsession : Json.field? payload "session_id" = some (.str sessionId.text) := by
    rw [← hpayload]
    simp [devicePayload]
  have hiat : Json.field? payload "iat" = some (.int iat) := by
    rw [← hpayload]
    simp [devicePayload]
  have hexpiry : Json.field? payload "exp" = some (.int (iat + 2 * 60 * 60)) := by
    rw [← hpayload]
    simp [devicePayload]
  have hjti : Json.field? payload "jti" = some (.str jti.text) := by
    rw [← hpayload]
    simp [devicePayload]
  have hexactly : hasExactly deviceAccessClaims payload = true := by
    rw [← hpayload]
    simp [hasExactly, devicePayload, deviceAccessClaims]
  have hstrings : isStringClaim payload "sub" = true ∧ isStringClaim payload "jti" = true := by
    simp [isStringClaim, hsub, hjti]
  have hclaims : intClaim payload "iat" = some iat ∧
      intClaim payload "exp" = some (iat + 2 * 60 * 60) := by
    simp [intClaim, hiat, hexpiry]
  simp [decodeDeviceAccessToken, hsecret, J.decode_encode, hstrings, hexactly, hclaims,
    hscopes, uuidClaim_str hsub, uuidClaim_str hdevice, uuidClaim_str howner,
    uuidClaim_str hsession, uuidClaim_str hjti]

theorem decode_issueDeviceAccessToken {J : Jwt} {P : Platform} {settings : Settings}
    {deviceId ownerId sessionId jti : UUID} {issuedAt expiresAt : Instant} {token : Text}
    (h : issueDeviceAccessToken J settings deviceId ownerId sessionId jti issuedAt =
      some (token, expiresAt)) :
    decodeDeviceAccessToken J P settings token = some ⟨deviceId, ownerId, sessionId, jti,
      issuedAt.timestamp, expiresAt.timestamp⟩ := by
  unfold issueDeviceAccessToken at h
  simp only at h
  split at h
  · cases h
  · rename_i hguard
    cases h
    exact decode_devicePayload (not_or.mp hguard).1 (Instant.timestamp_add_hours issuedAt 2)

/-- `expires_at` is two hours after `issued_at`. -/
theorem exp_of_decode {J : Jwt} {P : Platform} {settings : Settings} {token : Text}
    {claims : DeviceClaims} (h : decodeDeviceAccessToken J P settings token = some claims) :
    claims.exp = claims.iat + 2 * 60 * 60 := by
  unfold decodeDeviceAccessToken at h
  split at h
  · cases h
  · obtain ⟨payload, -, h⟩ := Option.bind_eq_some_iff.mp h
    split at h
    · cases h
    · split at h
      · cases h
      · obtain ⟨iat, -, h⟩ := Option.bind_eq_some_iff.mp h
        obtain ⟨exp, -, h⟩ := Option.bind_eq_some_iff.mp h
        split at h
        · cases h
        · rename_i hexp
          split at h
          · cases h
          · obtain ⟨subject, -, h⟩ := Option.bind_eq_some_iff.mp h
            obtain ⟨deviceId, -, h⟩ := Option.bind_eq_some_iff.mp h
            obtain ⟨ownerId, -, h⟩ := Option.bind_eq_some_iff.mp h
            obtain ⟨sessionId, -, h⟩ := Option.bind_eq_some_iff.mp h
            obtain ⟨jti, -, h⟩ := Option.bind_eq_some_iff.mp h
            split at h
            · cases h
            · cases h
              exact not_not.mp hexp

end SuperBoss.Core
