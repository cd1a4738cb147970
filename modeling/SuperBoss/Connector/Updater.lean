import SuperBoss.Connector.Manifest
import SuperBoss.Library.Faults

/-!
The update of the packaged connector: the download of a digest and a package,
and the replacement of the executable, whose file operations may each fail or be
the last.
-/

namespace SuperBoss.Connector

open SuperBoss.Core
open SuperBoss.Library.Faults

/-! ### Errors -/

/-- The exceptions of an update: expected ones, and what the standard library and
the HTTP client raise. -/
inductive UpdateError
  | connector (error : ConnectorError)
  | os
  | unicode
  | value
  /-- `httpx.InvalidURL`, which is no `httpx.HTTPError`. -/
  | invalidUrl
  deriving DecidableEq

def updateTemporary : UpdateError := .connector ⟨6, "The update check could not finish; retry later."⟩
def updateRejected : UpdateError :=
  .connector ⟨5, "The published release is missing a usable connector package."⟩
def updateTooLarge : UpdateError := .connector ⟨2, "The update package is too large."⟩
def updateDigestInvalid : UpdateError := .connector ⟨2, "The update digest is invalid."⟩
def updateDigestMismatch : UpdateError :=
  .connector ⟨2, "The downloaded package did not match its published digest."⟩
def updateReplaceFailed : UpdateError :=
  .connector ⟨2, "The packaged executable could not be replaced."⟩
def noRelease : UpdateError :=
  .connector ⟨5, "No published SuperBoss connector release was found."⟩

def digestMaxBytes : Nat := 4096
def packageMaxBytes : Nat := 80 * 1024 * 1024
def redirectLimit : Nat := 5

/-! ### URLs -/

structure SplitResult where
  scheme : Text
  username : Option Text
  password : Option Text
  hostname : Option Text
  deriving DecidableEq

/-- What the update takes from the standard library; `none` is a `ValueError`. -/
structure UpdateContext where
  urlsplit : Text → Option SplitResult
  urljoin : Text → Text → Option Text
  casefold : Text → Text
  /-- `int` of a string. -/
  int : Text → Option Int
  /-- `hashlib.sha256(·).hexdigest()`. -/
  sha256 : Bytes → Text

def allowedHosts : List Text :=
  ["api.github.com", "github.com", "objects.githubusercontent.com",
    "release-assets.githubusercontent.com", "github-releases.githubusercontent.com"].map
    Text.ofString

variable (C : UpdateContext)

/-- `_assert_https_allowed`. -/
def assertHttpsAllowed (url : Text) : Except UpdateError Unit :=
  match C.urlsplit url with
  | none => .error updateRejected
  | some parsed =>
      let host := C.casefold (parsed.hostname.getD [])
      if C.casefold parsed.scheme ≠ Text.ofString "https" ∨ parsed.username.isSome ∨
          parsed.password.isSome ∨ host = [] then .error updateRejected
      else if host ∉ allowedHosts ∧ ¬Text.ofString ".githubusercontent.com" <:+ host then
        .error updateRejected
      else .ok ()

/-! ### Requests -/

structure Response where
  status : Nat
  location : Option Text
  contentLength : Option Text
  chunks : List Bytes
  /-- The body ends in an `httpx.HTTPError`. -/
  broken : Bool
  deriving DecidableEq

/-- What comes of one `client.stream("GET", ·)`. -/
inductive Exchange
  | httpError
  | invalidUrl
  | unicodeError
  | response (r : Response)
  deriving DecidableEq

/-- The chunks of a body, after `payload`. -/
def readChunks (maximum : Nat) (broken : Bool) : Bytes → List Bytes → Except UpdateError Bytes
  | payload, [] => if broken then .error updateTemporary else .ok payload
  | payload, chunk :: rest =>
      if maximum < (payload ++ chunk).length then .error updateTooLarge
      else readChunks maximum broken (payload ++ chunk) rest

/-- `_read_limited`. -/
def readLimited (r : Response) (maximum : Nat) : Except UpdateError Bytes :=
  match r.contentLength with
  | none => readChunks maximum r.broken [] r.chunks
  | some length =>
      match C.int length with
      | none => .error updateRejected
      | some declared =>
          if declared < 0 ∨ (maximum : Int) < declared then .error updateTooLarge
          else readChunks maximum r.broken [] r.chunks

def Response.redirects (r : Response) : Bool := [301, 302, 303, 307, 308].contains r.status

/-- `_request` with `remaining` attempts; `server` answers its attempts in turn. -/
def requestLoop (maximum : Nat) : (remaining : Nat) → (Nat → Text → Exchange) → Text →
    Except UpdateError Bytes
  | 0, _, _ => .error updateRejected
  | remaining + 1, server, current =>
      match assertHttpsAllowed C current with
      | .error e => .error e
      | .ok () =>
          match server 0 current with
          | .httpError => .error updateTemporary
          | .invalidUrl => .error .invalidUrl
          | .unicodeError => .error .unicode
          | .response r =>
              if r.redirects then
                match r.location with
                | none | some [] => .error updateTemporary
                | some location =>
                    match C.urljoin current location with
                    | none => .error .value
                    | some next => requestLoop maximum remaining (fun k => server (k + 1)) next
              else if [429, 500, 502, 503, 504].contains r.status then .error updateTemporary
              else if r.status = 404 then .error noRelease
              else if 400 ≤ r.status then .error updateRejected
              else readLimited C r maximum

/-- `_request`. -/
def request (server : Nat → Text → Exchange) (url : Text) (maximum : Nat) :
    Except UpdateError Bytes :=
  requestLoop C maximum redirectLimit server url

/-! ### Digests -/

/-- `str.isspace` of one character. -/
def isSpace (c : Nat) : Bool := Text.isWhitespace c || (28 ≤ c && c ≤ 31)

/-- The characters that end a line for `str.splitlines`. -/
def isLineEnd (c : Nat) : Bool :=
  (10 ≤ c && c ≤ 13) || (28 ≤ c && c ≤ 30) || c == 0x85 || c == 0x2028 || c == 0x2029

/-- The lines of a text. Where `str.splitlines` takes `\r\n` as one end, there is
an empty line more, and one at the end. -/
def lines (t : Text) : List Text := t.splitOnP isLineEnd

def stripSpace (t : Text) : Text := (t.dropWhile isSpace).rdropWhile isSpace

/-- `str.split()`. -/
def words (t : Text) : List Text := (t.splitOnP isSpace).filter (· ≠ [])

def isSha256Hex (t : Text) : Bool :=
  t.length == 64 && t.all fun c => Text.isLowerHex c || (65 ≤ c && c ≤ 70)

/-- `parse_digest`: blank lines are dropped. -/
def parseDigest (text : Text) : Except UpdateError Text :=
  match ((lines text).map stripSpace).filter (· ≠ []) with
  | [] => .error updateDigestInvalid
  | line :: _ =>
      let token := (words line).headD []
      if isSha256Hex token then .ok (C.casefold token) else .error updateDigestInvalid

/-- `bytes.decode("ascii")`. -/
def decodeAscii (b : Bytes) : Except UpdateError Text :=
  if b.all fun c => decide (c.toNat < 128) then .ok (b.map fun c => c.toNat) else .error .unicode

/-! ### The replacement -/

/-- The target and the two paths next to it. -/
structure Folder where
  target : Option Bytes
  incoming : Option Bytes
  previous : Option Bytes
  deriving DecidableEq

/-- How the write of the new file goes. Where it is not done, it may have left
anything in the file, or none. -/
inductive WriteFate
  | done
  | failed (left : Option Bytes)
  | stopped (left : Option Bytes)
  deriving DecidableEq

structure ReplaceFates where
  write : WriteFate
  previousExists : OpFate
  previousUnlink : OpFate
  targetExists : OpFate
  /-- `target.replace(previous)`. -/
  retire : OpFate
  /-- `incoming.replace(target)`. -/
  promote : OpFate
  /-- `incoming.unlink(missing_ok=True)` of the handler. -/
  cleanup : OpFate
  /-- The last `previous.unlink(missing_ok=True)`. -/
  tidy : OpFate
  deriving DecidableEq

abbrev Update := Fallible Folder UpdateError

def writeIncoming (fate : WriteFate) (payload : Bytes) : Update Unit := fun d =>
  match fate with
  | .done => (.returned (), { d with incoming := some payload })
  | .failed left => (.raised .os, { d with incoming := left })
  | .stopped left => (.stopped, { d with incoming := left })

/-- `Path.exists()`. -/
def pathExists (fate : OpFate) (path : Folder → Option Bytes) : Update Bool := do
  Fallible.perform fate .os id
  let d ← Fallible.get
  return (path d).isSome

def swapIn (F : ReplaceFates) (payload : Bytes) : Update Unit := do
  writeIncoming F.write payload
  if ← pathExists F.previousExists (·.previous) then
    Fallible.perform F.previousUnlink .os fun d => { d with previous := none }
  if ← pathExists F.targetExists (·.target) then
    Fallible.perform F.retire .os fun d => { d with target := none, previous := d.target }
  Fallible.perform F.promote .os fun d => { d with target := d.incoming, incoming := none }

/-- `except OSError` of the replacement. -/
def swapFailed (F : ReplaceFates) : UpdateError → Update Unit
  | .os => do
      Fallible.perform F.cleanup .os fun d => { d with incoming := none }
      Fallible.raise updateReplaceFailed
  | e => Fallible.raise e

/-- `replace_executable`. -/
def replaceExecutable (F : ReplaceFates) (payload : Bytes) : Update Unit := do
  Fallible.handle (swapIn F payload) (swapFailed F)
  Fallible.handle (Fallible.perform F.tidy .os fun d => { d with previous := none }) fun _ =>
    pure ()

/-! ### The update -/

structure UpdateOffer where
  available : Bool
  packageUrl : Text
  digestUrl : Text
  deriving DecidableEq

/-- What an update meets: the answers to its two requests, and how its file
operations go. -/
structure World where
  digestServer : Nat → Text → Exchange
  packageServer : Nat → Text → Exchange
  fates : ReplaceFates

def publishedDigest (W : World) (offer : UpdateOffer) : Except UpdateError Text := do
  let body ← request C W.digestServer offer.digestUrl digestMaxBytes
  let text ← decodeAscii body
  parseDigest C text

def verifiedPackage (W : World) (offer : UpdateOffer) : Except UpdateError Bytes := do
  let digest ← publishedDigest C W offer
  let payload ← request C W.packageServer offer.packageUrl packageMaxBytes
  if C.sha256 payload ≠ digest then .error updateDigestMismatch else .ok payload

/-- `install_update`. -/
def installUpdate (W : World) (offer : UpdateOffer) : Update Unit :=
  if offer.available then
    Fallible.handle (do
        let payload ← Fallible.ofExcept (verifiedPackage C W offer)
        replaceExecutable W.fates payload)
      fun
        | .unicode => Fallible.raise updateDigestInvalid
        | e => Fallible.raise e
  else pure ()

end SuperBoss.Connector
