import SuperBoss.Connector.Origins

/-!
Presigned uploads: the check of a part URL's destination, and the request that
follows. The HTTP client looks the host up for itself when it connects.
-/

namespace SuperBoss.Connector

open SuperBoss.Core

def temporaryFailure : ConnectorError := ⟨6, "The operation could not finish; run retry."⟩

def etagMaxChars : Nat := 1024

variable {A : Type} (C : UrlContext A)

/-! ### Destinations -/

/-- What a part URL names: an address, or a name with the port it is looked up for. -/
inductive Destination (A : Type)
  | literal (host : Text) (address : IPAddress A)
  | name (host : Text) (port : Nat)

/-- `str.strip`. -/
def stripEtag (t : Text) : Text := (t.dropWhile Text.isSpace).rdropWhile Text.isSpace

/-- The part of `_validate_upload_destination` before any lookup. -/
def readDestination (url : Text) : Except ConnectorError (Destination A) :=
  match (do
    let parsed ← urlsplit C url
    let port ← parsed.port
    some (parsed, port)) with
  | none => .error serverRejected
  | some (parsed, port) =>
      match parsed.hostname C with
      | none => .error serverRejected
      | some host =>
          if parsed.scheme ≠ Text.ofString "https" ∨ C.lower host = Text.ofString "localhost" ∨
              parsed.username ≠ none ∨ parsed.password ≠ none ∨ parsed.fragment ≠ [] then
            .error serverRejected
          else
            match C.ip.ipAddress host with
            | some a => .ok (.literal host a)
            | none =>
                if host.all isNumeric = true then .error serverRejected
                else
                  match encodeIdna C host with
                  | none => .error serverRejected
                  | some encoded =>
                      if encoded.isAscii then
                        -- `parsed.port or 443`
                        .ok (.name (C.lower encoded) (match port with
                          | none => 443
                          | some n => if n = 0 then 443 else n))
                      else .error serverRejected

/-- One `getaddrinfo`: the addresses of its records, `none` for an exception or
an answer that does not come in time. -/
abbrev Lookup := Text → Nat → Option (List Text)

/-- `_resolve_upload_host`. -/
def resolveUploadHost (lookup : Lookup) (host : Text) (port : Nat) :
    Except ConnectorError (List Text) :=
  match lookup host port with
  | none => .error temporaryFailure
  | some records => .ok records

def isUnsafe (a : IPAddress A) : Bool :=
  let traits := C.ip.traitsOf a
  !traits.isGlobal || traits.isLoopback || traits.isLinkLocal || traits.isMulticast ||
    traits.isUnspecified || traits.isReserved || traits.isPrivate

/-- The addresses of a destination. -/
def destinationAddresses (lookup : Lookup) :
    Destination A → Except ConnectorError (Text × List (IPAddress A))
  | .literal host a => .ok (host, [a])
  | .name host port => do
      let records ← resolveUploadHost lookup host port
      match records.mapM C.ip.ipAddress with
      | none => .error serverRejected
      | some addresses => .ok (host, addresses)

/-- `_validate_upload_destination`. -/
def validateUploadDestination [DecidableEq A] (lookup : Lookup) (url : Text) :
    Except ConnectorError (Text × List (IPAddress A)) := do
  let destination ← readDestination C url
  let (host, found) ← destinationAddresses C lookup destination
  let addresses := found.eraseDups
  if addresses = [] ∨ addresses.any (isUnsafe C) = true then .error serverRejected
  else .ok (host, addresses)

/-! ### The request -/

/-- What an address does with a connection. -/
inductive Connection
  | refused
  | dropped
  | answered (status : Nat) (etag : Option Text)

/-- The checks of `put_part` on a response. -/
def acceptEtag (status : Nat) (etag : Option Text) : Except ConnectorError Text :=
  if status = 429 ∨ 500 ≤ status then .error temporaryFailure
  else if status < 200 ∨ 300 ≤ status then .error serverRejected
  else
    let etag := (etag.map stripEtag).getD []
    if etag = [] ∨ etagMaxChars < etag.length ∨
        etag.any (fun c => c < 32 || c == 127) = true then
      .error serverRejected
    else .ok etag

/-- The addresses that the HTTP client tries, in order. -/
def connectAddresses (lookup : Lookup) : Destination A → List (IPAddress A)
  | .literal _ a => [a]
  | .name host port => ((lookup host port).getD []).filterMap C.ip.ipAddress

/-- A call of `put_part`: the addresses it checked, the one that got the bytes,
and what it returned. -/
structure PutRun (A : Type) where
  validated : List (IPAddress A)
  sentTo : Option (IPAddress A)
  result : Except ConnectorError Text

/-- The first of the addresses that takes the connection gets the bytes. -/
def send (network : IPAddress A → Connection) (validated : List (IPAddress A)) :
    List (IPAddress A) → PutRun A
  | [] => ⟨validated, none, .error temporaryFailure⟩
  | a :: rest =>
      match network a with
      | .refused => send network validated rest
      | .dropped => ⟨validated, some a, .error temporaryFailure⟩
      | .answered status etag => ⟨validated, some a, acceptEtag status etag⟩

/-- `put_part`, the lookups of the check and of the client apart. -/
def putPart [DecidableEq A] (check connect : Lookup) (network : IPAddress A → Connection) (url : Text) :
    PutRun A :=
  match validateUploadDestination C check url with
  | .error e => ⟨[], none, .error e⟩
  | .ok (_, addresses) =>
      match readDestination C url with
      | .error e => ⟨addresses, none, .error e⟩
      | .ok destination => send network addresses (connectAddresses C connect destination)

/-! ### Where the bytes go -/

theorem send_validated (network : IPAddress A → Connection) (validated : List (IPAddress A))
    (candidates : List (IPAddress A)) : (send network validated candidates).validated = validated := by
  induction candidates with
  | nil => rfl
  | cons a rest ih =>
      rw [send]
      split
      · exact ih
      · rfl
      · rfl

theorem send_mem {network : IPAddress A → Connection} {validated candidates : List (IPAddress A)}
    {a : IPAddress A} (h : (send network validated candidates).sentTo = some a) :
    a ∈ candidates := by
  induction candidates with
  | nil => cases h
  | cons b rest ih =>
      rw [send] at h
      split at h
      · exact List.mem_cons_of_mem b (ih h)
      · cases h
        exact List.mem_cons_self
      · cases h
        exact List.mem_cons_self

variable [DecidableEq A]

/-- Only one address is up. -/
def only (a : IPAddress A) (b : IPAddress A) : Connection :=
  if b = a then .dropped else .refused

/-- Any address that the client knows can be the one that gets the bytes. -/
theorem send_only {validated candidates : List (IPAddress A)} {a : IPAddress A}
    (h : a ∈ candidates) : (send (only a) validated candidates).sentTo = some a := by
  induction candidates with
  | nil => cases h
  | cons b rest ih =>
      by_cases hb : b = a
      · simp [send, only, hb]
      · have hrest : a ∈ rest := (List.mem_cons.mp h).resolve_left fun he => hb he.symm
        simp only [send, only, if_neg hb]
        exact ih hrest

theorem validateUploadDestination_ok {lookup : Lookup} {url host : Text}
    {addresses : List (IPAddress A)}
    (h : validateUploadDestination C lookup url = .ok (host, addresses)) :
    ∃ destination found, readDestination C url = .ok destination ∧
      destinationAddresses C lookup destination = .ok (host, found) ∧
      addresses = found.eraseDups ∧ addresses ≠ [] ∧ ∀ a ∈ addresses, isUnsafe C a = false := by
  obtain ⟨destination, hread, h⟩ := bind_eq_ok.mp h
  obtain ⟨⟨host', found⟩, hfound, h⟩ := bind_eq_ok.mp h
  dsimp only at h
  split at h
  · cases h
  · rename_i hsafe
    cases h
    refine ⟨destination, found, hread, hfound, rfl, fun he => hsafe (.inl he), fun a ha => ?_⟩
    exact Bool.eq_false_iff.mpr fun hbad => hsafe (.inr (List.any_eq_true.mpr ⟨a, ha, hbad⟩))

variable {C}

/-- A run that sent the bytes checked its addresses first. -/
theorem putPart_sent {check connect : Lookup} {network : IPAddress A → Connection} {url : Text}
    {a : IPAddress A} (h : (putPart C check connect network url).sentTo = some a) :
    ∃ host addresses destination,
      validateUploadDestination C check url = .ok (host, addresses) ∧
      readDestination C url = .ok destination ∧
      (putPart C check connect network url).validated = addresses ∧
      a ∈ connectAddresses C connect destination := by
  unfold putPart at h ⊢
  cases hcheck : validateUploadDestination C check url with
  | error e =>
      rw [hcheck] at h
      cases h
  | ok found =>
      obtain ⟨host, addresses⟩ := found
      cases hread : readDestination C url with
      | error e =>
          rw [hcheck, hread] at h
          cases h
      | ok destination =>
          simp only [hcheck, hread] at h
          exact ⟨host, addresses, destination, rfl, rfl, send_validated _ _ _, send_mem h⟩

omit [DecidableEq A] in
theorem mem_of_mapM {α β : Type} {f : α → Option β} {l : List α} {l' : List β}
    (h : l.mapM f = some l') (b : β) : b ∈ l' ↔ ∃ a ∈ l, f a = some b := by
  induction l generalizing l' with
  | nil =>
      cases h
      simp
  | cons a l ih =>
      rw [List.mapM_cons] at h
      obtain ⟨c, hc, h⟩ := Option.bind_eq_some_iff.mp h
      obtain ⟨l'', hl, h⟩ := Option.bind_eq_some_iff.mp h
      cases h
      simp only [List.mem_cons, ih hl, exists_eq_or_imp, hc, Option.some.injEq]
      rw [eq_comm]

omit [DecidableEq A] in
theorem mem_destinationAddresses {lookup : Lookup} {host found_host : Text} {port : Nat}
    {found : List (IPAddress A)}
    (h : destinationAddresses C lookup (.name host port) = .ok (found_host, found)) :
    ∃ records, lookup host port = some records ∧
      ∀ a, a ∈ found ↔ ∃ r ∈ records, C.ip.ipAddress r = some a := by
  obtain ⟨records, hrecords, h⟩ := bind_eq_ok.mp h
  have hlookup : lookup host port = some records := by
    unfold resolveUploadHost at hrecords
    split at hrecords
    · cases hrecords
    · rename_i hsome
      cases hrecords
      exact hsome
  split at h
  · cases h
  · rename_i hmap
    cases h
    exact ⟨records, hlookup, mem_of_mapM hmap⟩

variable (C) in
/-- The client's lookup of a name returns no address that the check's did not. -/
def Agree (check connect : Lookup) (url : Text) : Prop :=
  ∀ host port, readDestination C url = .ok (.name host port) →
    ∀ first second, check host port = some first → connect host port = some second →
      ∀ r ∈ second, ∀ a, C.ip.ipAddress r = some a → ∃ r' ∈ first, C.ip.ipAddress r' = some a

/-- Bytes go only where a check of the same call found global addresses alone,
and to a checked address: to a literal always, to a name on every network
exactly when the client's own lookup returns nothing that the check's did not. -/
theorem putPart_destination (check connect : Lookup) (url : Text) :
    (∀ network a, (putPart C check connect network url).sentTo = some a →
      (putPart C check connect network url).validated ≠ [] ∧
        ∀ b ∈ (putPart C check connect network url).validated, isUnsafe C b = false) ∧
    (∀ host address, readDestination C url = .ok (.literal host address) → ∀ network a,
      (putPart C check connect network url).sentTo = some a →
        a = address ∧ a ∈ (putPart C check connect network url).validated) ∧
    ((∀ network a, (putPart C check connect network url).sentTo = some a →
        a ∈ (putPart C check connect network url).validated) ↔
      ((∃ found, validateUploadDestination C check url = .ok found) →
        Agree C check connect url)) := by
  have hliteral : ∀ host address, readDestination C url = .ok (.literal host address) →
      ∀ network a, (putPart C check connect network url).sentTo = some a →
        a = address ∧ a ∈ (putPart C check connect network url).validated := by
    intro host address hread network a hsent
    obtain ⟨host', addresses, destination, hcheck, hread', hvalidated, ha⟩ := putPart_sent hsent
    obtain rfl := Except.ok.inj (hread.symm.trans hread')
    obtain ⟨destination, found, hread', hfound, rfl, -⟩ := validateUploadDestination_ok C hcheck
    obtain rfl := Except.ok.inj (hread.symm.trans hread')
    cases hfound
    obtain rfl := List.mem_singleton.mp ha
    rw [hvalidated]
    exact ⟨rfl, List.mem_eraseDups.mpr List.mem_cons_self⟩
  refine ⟨fun network a hsent => ?_, hliteral, fun hall => ?_, fun hagree => ?_⟩
  · obtain ⟨host, addresses, destination, hcheck, -, hvalidated, -⟩ := putPart_sent hsent
    obtain ⟨-, -, -, -, -, hne, hsafe⟩ := validateUploadDestination_ok C hcheck
    rw [hvalidated]
    exact ⟨hne, hsafe⟩
  · -- an address of the second answer alone gets the bytes where it alone is up
    rintro ⟨⟨checked, addresses⟩, hcheck⟩ host port hread first second hfirst hsecond r hr a hra
    have hmem : a ∈ connectAddresses C connect (.name host port) := by
      rw [connectAddresses, hsecond]
      exact List.mem_filterMap.mpr ⟨r, hr, hra⟩
    have hrun : putPart C check connect (only a) url =
        send (only a) addresses (connectAddresses C connect (.name host port)) := by
      simp only [putPart, hcheck, hread]
    have ha := hall (only a) a (by rw [hrun, send_only hmem])
    rw [hrun, send_validated] at ha
    obtain ⟨destination, found, hread', hfound, rfl, -⟩ := validateUploadDestination_ok C hcheck
    obtain rfl := Except.ok.inj (hread.symm.trans hread')
    obtain ⟨records, hrecords, hiff⟩ := mem_destinationAddresses hfound
    obtain rfl := Option.some.inj (hfirst.symm.trans hrecords)
    exact (hiff a).mp (List.mem_eraseDups.mp ha)
  · intro network a hsent
    obtain ⟨checked, addresses, destination, hcheck, hread, hvalidated, ha⟩ := putPart_sent hsent
    cases destination with
    | literal host address => exact (hliteral host address hread network a hsent).2
    | name host port =>
        obtain ⟨r, hr, hra⟩ := List.mem_filterMap.mp ha
        obtain ⟨destination, found, hread', hfound, rfl, -⟩ := validateUploadDestination_ok C hcheck
        obtain rfl := Except.ok.inj (hread.symm.trans hread')
        obtain ⟨records, hrecords, hiff⟩ := mem_destinationAddresses hfound
        rw [hvalidated]
        cases hsecond : connect host port with
        | none =>
            rw [hsecond] at hr
            cases hr
        | some second =>
            rw [hsecond] at hr
            exact List.mem_eraseDups.mpr ((hiff a).mpr
              (hagree ⟨_, hcheck⟩ host port hread records second hrecords hsecond r hr a hra))

/-- A name that answers with a public address when it is checked and with this
machine when the client connects. -/
theorem putPart_rebinding :
    (putPart SampleUrls.context (fun _ _ => some [Text.ofString "93.184.216.34"])
        (fun _ _ => some [Text.ofString "127.0.0.1"])
        (fun _ => .answered 200 (some (Text.ofString "etag")))
        (Text.ofString "https://uploads.example/part")).validated =
      [.v4 ⟨93, 184, 216, 34⟩] ∧
    (putPart SampleUrls.context (fun _ _ => some [Text.ofString "93.184.216.34"])
        (fun _ _ => some [Text.ofString "127.0.0.1"])
        (fun _ => .answered 200 (some (Text.ofString "etag")))
        (Text.ofString "https://uploads.example/part")).sentTo =
      some (.v4 ⟨127, 0, 0, 1⟩) := by
  constructor <;> decide +kernel

end SuperBoss.Connector
