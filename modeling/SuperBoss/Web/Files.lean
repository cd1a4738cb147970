import SuperBoss.Core.Utf16
import SuperBoss.Files.Requests

/-!
`createFilesApi`: the checks on an upload command and on the list of its parts, and
the JSON bodies that the server receives.
-/

namespace SuperBoss.Web

open SuperBoss.Core
open SuperBoss.Files

/-! ### Checks of the fields -/

/-- C0 and C1 controls and DEL. -/
def isControl (c : UInt16) : Bool := c.toNat ≤ 31 || (127 ≤ c.toNat && c.toNat ≤ 159)

/-- The loop of `safeText`. Behind a high surrogate at the end `charCodeAt` is `NaN`,
and no comparison with it holds. -/
def scan : JsString → Bool
  | [] => true
  | [c] => !isControl c && !JsString.isLow c
  | c :: d :: rest =>
      if isControl c then false
      else if JsString.isHigh c then JsString.isLow d && scan rest
      else !JsString.isLow c && scan (d :: rest)

def safeText (value : JsString) (maximum : Nat) : Bool :=
  value.trim != [] && value.codePoints.length ≤ maximum && scan value

/-- The regular expression `UUID`. -/
def isUuid (value : JsString) : Bool :=
  let t := value.units
  UUID.isHyphenated t && (t[14]?.any fun c => 49 ≤ c && c ≤ 56) &&
    t[19]?.any fun c => [56, 57, 65, 66, 97, 98].contains c

/-- `Date.prototype.toISOString` of a time value in milliseconds. -/
def toISOString (t : Int) : Text :=
  let (year, month, day) := Date.civil (t / 86400000)
  let years := if 0 ≤ year ∧ year ≤ 9999 then Date.pad 4 year
    else (if year < 0 then 45 else 43) :: Date.pad 6 (year.natAbs : Int)
  let ms := t % 86400000
  years ++ 45 :: (Date.pad 2 month ++ 45 :: (Date.pad 2 day ++
    84 :: (Date.pad 2 (ms / 3600000) ++ 58 :: (Date.pad 2 (ms / 60000 % 60) ++
      58 :: (Date.pad 2 (ms / 1000 % 60) ++ 46 :: (Date.pad 3 (ms % 1000) ++ [90]))))))

/-- `calendarDate`; `dateParse` is the time value that `new Date` makes of a string,
none for `NaN`. -/
def calendarDate (dateParse : Text → Option Int) (value : JsString) : Bool :=
  let t := value.units
  Date.isDateText t && t.take 4 != Text.ofString "0000" &&
    (dateParse (t ++ Text.ofString "T00:00:00.000Z")).any fun time =>
      (toISOString time).take 10 == t

/-- `idempotencyKey`. -/
def isIdempotencyKey (value : JsString) : Bool :=
  1 ≤ value.length && value.length ≤ 255 &&
    value.codePoints.all fun c => 33 ≤ c && c ≤ 126

def isDigest (value : JsString) : Bool := Text.isDigest value.units

/-- The length of a content type and the regular expression `MIME`. -/
def isContentType (value : JsString) : Bool := value.length ≤ 255 && Text.isMimeType value.units

/-- `Number.MAX_SAFE_INTEGER`. -/
def maxSafeInteger : Int := 2 ^ 53 - 1

/-! ### Starting an upload -/

/-- `FileUploadStart`. -/
structure FileUploadStart where
  projectId : JsString
  filename : JsString
  sizeBytes : Int
  sha256 : JsString
  category : JsString
  fileDate : JsString
  contentType : JsString
  deriving DecidableEq

/-- `canonicalStart` on values of the types it asks for; none is a `FileContractError`. -/
def canonicalStart (dateParse : Text → Option Int) (value : FileUploadStart) :
    Option FileUploadStart :=
  if isUuid value.projectId ∧ safeText value.filename 1024 ∧
      (-maxSafeInteger ≤ value.sizeBytes ∧ value.sizeBytes ≤ maxSafeInteger) ∧
      1 ≤ value.sizeBytes ∧ value.sizeBytes ≤ attachmentMaxBytes ∧ isDigest value.sha256 ∧
      safeText value.category 255 ∧ calendarDate dateParse value.fileDate ∧
      isContentType value.contentType then
    some value
  else none

/-- The body as the server reads it. -/
def FileUploadStart.body (value : FileUploadStart) : StartBody where
  projectId := value.projectId.codePoints
  filename := value.filename.codePoints
  sizeBytes := value.sizeBytes
  sha256 := value.sha256.codePoints
  category := value.category.codePoints
  fileDate := value.fileDate.codePoints
  contentType := value.contentType.codePoints

/-- What `filesApi.start` posts: the body and the key. -/
def postStart (dateParse : Text → Option Int) (command : FileUploadStart) (key : JsString) :
    Option (StartBody × Text) :=
  (canonicalStart dateParse command).bind fun canonical =>
    if isIdempotencyKey key then some (canonical.body, key.codePoints) else none

/-! ### Completing an upload -/

/-- `FilePart`. -/
structure FilePart where
  partNumber : Int
  etag : JsString
  deriving DecidableEq

/-- The callback of `value.map` in `canonicalParts`, with the numbers seen before. -/
def canonicalPart (seen : List Int) (part : FilePart) : Option FilePart :=
  if 1 ≤ part.partNumber ∧ part.partNumber ≤ 10000 ∧ safeText part.etag 1024 then
    let etag := part.etag.trim
    if etag = [] ∨ part.partNumber ∈ seen then none else some ⟨part.partNumber, etag⟩
  else none

/-- `value.map`. -/
def canonicalPartsFrom (seen : List Int) : List FilePart → Option (List FilePart)
  | [] => some []
  | part :: rest => do
      let canonical ← canonicalPart seen part
      let others ← canonicalPartsFrom (seen ++ [part.partNumber]) rest
      some (canonical :: others)

/-- `canonicalParts`; none is a `FileContractError`. -/
def canonicalParts (value : List FilePart) : Option (List FilePart) :=
  if 1 ≤ value.length ∧ value.length ≤ 10000 then
    (canonicalPartsFrom [] value).map fun parts =>
      parts.insertionSort fun left right => left.partNumber ≤ right.partNumber
  else none

def FilePart.body (part : FilePart) : PartBody := ⟨part.partNumber, part.etag.codePoints⟩

end SuperBoss.Web
