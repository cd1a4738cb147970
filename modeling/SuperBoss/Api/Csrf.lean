import SuperBoss.Api.Requests

/-!
The middleware and the handlers classify requests alike: what comes from a cookie
has passed the CSRF check, and a request that passed on its Authorization header
has no cookie to take anything from.
-/

namespace SuperBoss.Api

open SuperBoss.Core
open SuperBoss.Auth (unauthenticatedError)

/-- The XSRF-TOKEN cookie is there, not empty, and equal to the X-CSRF-Token header. -/
def CsrfMatches (r : Request) : Prop :=
  ∃ token, token ≠ [] ∧ r.xsrfToken = some token ∧ r.csrfHeader = some token

/-- The middleware has nothing but the Authorization header to let the request pass. -/
def OnAuthorization (r : Request) : Prop :=
  ¬(r.method = .post ∧ isDeviceAuthPath r.path = true) ∧ r.authorization.isSome = true ∧
    r.hasBrowserCredentials = false

theorem csrfMatches_of_checkCsrf {r : Request} (h : checkCsrf r = .ok ()) : CsrfMatches r := by
  unfold checkCsrf at h
  split at h
  · rename_i cookie header hcookie hheader
    split at h
    · cases h
    · rename_i hempty
      split at h
      · cases h
      · cases h
      · rename_i hdigest
        unfold compareDigest at hdigest
        split at hdigest
        · obtain rfl : cookie = header := beq_iff_eq.mp (Option.some.inj hdigest)
          exact ⟨cookie, fun hnil => hempty (.inl hnil), hcookie, hheader⟩
        · cases hdigest
  · cases h

/-- A cookie that is there but counts for nothing is empty. -/
theorem eq_nil_of_not_truthy {value : Option Text} {t : Text} (h : truthy value = false)
    (hvalue : value = some t) : t = [] := by
  subst hvalue
  simpa [truthy] using h

theorem not_truthy {r : Request} (h : r.hasBrowserCredentials = false) :
    truthy r.accessToken = false ∧ truthy r.refreshToken = false := Bool.or_eq_false_iff.mp h

/-- Without browser credentials, an actor comes from the header, and there is no cookie. -/
theorem getActor_of_no_credentials {S : Services} {r : Request} {resolved : Resolved}
    (h : r.hasBrowserCredentials = false) (hok : getActor S none r = .ok resolved) :
    r.hasBrowserCookie = false ∧ resolved.source = .header ∧
      ∃ token, r.bearer = some token ∧ resolve S false token = .ok resolved.actor := by
  obtain ⟨haccess, -⟩ := not_truthy h
  unfold getActor at hok
  simp only at hok
  split at hok
  · cases hok
  · rename_i source token htoken
    split at hok
    · cases hok
    · rename_i hne
      obtain ⟨actor, hactor, rfl⟩ := map_eq_ok.mp hok
      unfold Request.actorToken at htoken
      split at htoken
      · rename_i cookie hcookie
        cases htoken
        exact absurd (eq_nil_of_not_truthy haccess hcookie) hne
      · split at htoken
        · cases htoken
        · rename_i hnone
          have hnone := Bool.eq_false_iff.mpr hnone
          obtain ⟨bearer, hbearer, heq⟩ := Option.map_eq_some_iff.mp htoken
          cases heq
          rw [hnone] at hactor
          exact ⟨hnone, rfl, token, hbearer, hactor⟩

/-! ### What a handler takes from a cookie -/

theorem source_of_revokes {found : Text → Option UUID} {token : Option (Source × Text)}
    {a : Acting} (h : a ∈ revokes found token) : ∃ t, token = some (a.source, t) ∧ t ≠ [] := by
  unfold revokes at h
  split at h
  · cases h
  · rename_i source t
    split at h
    · cases h
    · rename_i hne
      obtain ⟨id, -, rfl⟩ := Option.map_eq_some_iff.mp (Option.mem_toList.mp h)
      exact ⟨t, rfl, hne⟩

/-- Without a cookie, a handler takes nothing from one, an actor that is cached apart. -/
theorem source_of_no_cookie {S : Services} {cached : Option Resolved} {r : Request}
    {endpoint : Endpoint} {acting : List Acting} (hnone : r.hasBrowserCookie = false)
    (hcached : ∀ resolved, cached = some resolved → resolved.source = .header)
    (h : handle S cached r endpoint = .ok acting) : ∀ a ∈ acting, a.source = .header := by
  obtain ⟨haccess, hrefresh⟩ := Bool.or_eq_false_iff.mp hnone
  simp only [Option.isSome_eq_false_iff, Option.isNone_iff_eq_none] at haccess hrefresh
  have hactor : ∀ {acting}, ((getActor S cached r).map
      fun resolved => [(⟨.actor resolved.actor, resolved.source⟩ : Acting)]) = .ok acting →
      ∀ a ∈ acting, a.source = .header := by
    intro acting hacting a ha
    obtain ⟨resolved, hresolved, rfl⟩ := map_eq_ok.mp hacting
    obtain rfl := List.mem_singleton.mp ha
    unfold getActor at hresolved
    split at hresolved
    · cases hresolved
      exact hcached resolved rfl
    · simp only [Request.actorToken, haccess, hnone] at hresolved
      split at hresolved
      · cases hresolved
      · rename_i source token htoken
        split at hresolved
        · cases hresolved
        · obtain ⟨actor, -, rfl⟩ := map_eq_ok.mp hresolved
          obtain ⟨bearer, -, heq⟩ := Option.map_eq_some_iff.mp htoken
          cases heq
          rfl
  cases endpoint with
  | login | pairDevice | refreshDevice =>
      cases h
      nofun
  | refresh =>
      simp only [handle, hrefresh] at h
      split at h
      · cases h
      · cases h
        nofun
  | changePassword =>
      simp only [handle, haccess] at h
      cases h
  | logout =>
      cases h
      intro a ha
      rcases List.mem_append.mp ha with ha | ha
      · obtain ⟨t, ht, -⟩ := source_of_revokes ha
        rw [hrefresh] at ht
        cases ht
      · obtain ⟨t, ht, -⟩ := source_of_revokes ha
        unfold Request.logoutToken at ht
        split at ht
        · exact (congrArg Prod.fst (Option.some.inj ht)).symm
        · rw [haccess] at ht
          cases ht
  | createPairingCode | revokeDevice | createProject | startUpload | completeUpload
  | presignPart | createImport | presignImportPart | completeAttachment | submitImport
  | createStaff | updateStaff | replaceProjects | resetStaffPassword => exact hactor h

/-! ### Routes -/

theorem eq_of_segmentsMatch {texts ts : List Text}
    (h : segmentsMatch (texts.map .literal) ts = true) : ts = texts := by
  induction texts generalizing ts with
  | nil =>
      cases ts with
      | nil => rfl
      | cons t ts => cases h
  | cons text texts ih =>
      cases ts with
      | nil => cases h
      | cons t ts =>
          obtain ⟨htext, hrest⟩ := Bool.and_eq_true_iff.mp h
          rw [beq_iff_eq.mp htext, ih hrest]

/-- A path without parameters matches itself, with or without a last newline. -/
theorem eq_of_pathMatches {s : String} {path : Text}
    (hs : ∀ t ∈ (Text.ofString s).splitOn 47, t.head? ≠ some 123)
    (h : pathMatches (Segment.template s) path = true) :
    path = Text.ofString s ∨ path = Text.ofString s ++ [10] := by
  have htemplate : Segment.template s = ((Text.ofString s).splitOn 47).map .literal :=
    List.map_congr_left fun t ht => if_neg (hs t ht)
  have hwhole : ∀ {path : Text}, segmentsMatch (Segment.template s) (path.splitOn 47) = true →
      path = Text.ofString s := by
    intro path hmatch
    rw [htemplate] at hmatch
    have hpath : [47].intercalate (path.splitOn 47) = path := List.intercalate_splitOn 47
    rw [← hpath, eq_of_segmentsMatch hmatch, List.intercalate_splitOn]
  rcases Bool.or_eq_true_iff.mp h with h | h
  · exact .inl (hwhole h)
  · obtain ⟨hlast, h⟩ := Bool.and_eq_true_iff.mp h
    right
    rw [← hwhole h]
    exact (List.dropLast_append_getLast? 10 (beq_iff_eq.mp hlast)).symm

/-- The path of an endpoint that has no parameters. -/
theorem path_of_route {method : Method} {path : Text} {endpoint : Endpoint} (s : String)
    (hroute : route method path = some endpoint)
    (hs : ∀ r ∈ routes, r.2.2 = endpoint →
      r.2.1 = s ∧ ∀ t ∈ (Text.ofString s).splitOn 47, t.head? ≠ some 123) :
    path = Text.ofString s ∨ path = Text.ofString s ++ [10] := by
  obtain ⟨r, hfind, hendpoint⟩ := Option.map_eq_some_iff.mp hroute
  obtain ⟨hpath, hs⟩ := hs r (List.mem_of_find?_eq_some hfind) hendpoint
  have hfound := List.find?_some hfind
  have hmatch := (Bool.and_eq_true_iff.mp hfound).2
  rw [hpath] at hmatch
  exact eq_of_pathMatches hs hmatch

/-- The auth routes are not among the paths that pass without credentials. -/
theorem not_auth_of_writePath {method : Method} {path : Text} {endpoint : Endpoint}
    (hpath : isAuthenticatedWritePath path = true) (hroute : route method path = some endpoint) :
    endpoint ≠ .refresh ∧ endpoint ≠ .changePassword := by
  constructor
  · rintro rfl
    rcases path_of_route "/api/v1/auth/refresh" hroute (by decide +kernel) with rfl | rfl
    · revert hpath
      decide +kernel
    · revert hpath
      decide +kernel
  · rintro rfl
    rcases path_of_route "/api/v1/auth/password/change" hroute (by decide +kernel) with
      rfl | rfl
    · revert hpath
      decide +kernel
    · revert hpath
      decide +kernel

theorem deviceAuth_route {method : Method} {path : Text} {endpoint : Endpoint}
    (hmethod : method = .post) (hpath : isDeviceAuthPath path = true)
    (hroute : route method path = some endpoint) :
    endpoint = .pairDevice ∨ endpoint = .refreshDevice := by
  subst hmethod
  rcases Bool.or_eq_true_iff.mp hpath with h | h
  · obtain rfl := beq_iff_eq.mp h
    have hpair : route .post (Text.ofString "/api/v1/device-auth/pair") = some .pairDevice := by
      decide +kernel
    exact .inl (Option.some.inj (hroute.symm.trans hpair))
  · obtain rfl := beq_iff_eq.mp h
    have hrefresh : route .post (Text.ofString "/api/v1/device-auth/refresh") =
        some .refreshDevice := by
      decide +kernel
    exact .inr (Option.some.inj (hroute.symm.trans hrefresh))

/-! ### The middleware -/

/-- Why a request that may write has passed. -/
theorem enforceBrowserCsrf_cases {S : Services} {r : Request} {cached : Option Resolved}
    (hwrites : r.method.writes = true) (h : enforceBrowserCsrf S r = .ok cached) :
    (r.method = .post ∧ isDeviceAuthPath r.path = true ∧ cached = none) ∨
      (OnAuthorization r ∧ ∃ resolved, getActor S none r = .ok resolved ∧ cached = some resolved) ∨
      (r.authorization = none ∧ r.hasBrowserCredentials = false ∧
        isAuthenticatedWritePath r.path = true ∧ cached = none) ∨
      (¬OnAuthorization r ∧ CsrfMatches r) := by
  unfold enforceBrowserCsrf at h
  rw [if_pos hwrites] at h
  split at h
  · rename_i hdevice
    cases h
    exact .inl ⟨hdevice.1, hdevice.2, rfl⟩
  · rename_i hdevice
    split at h
    · rename_i hauthorization
      split at h
      · rename_i resolved hresolved
        cases h
        refine .inr (.inl ⟨⟨hdevice, hauthorization.1, ?_⟩, resolved, hresolved, rfl⟩)
        simpa using hauthorization.2
      · cases h
    · rename_i hauthorization
      split at h
      · rename_i hpath
        cases h
        obtain ⟨hcredentials, hpath⟩ := hpath
        refine .inr (.inr (.inl ⟨?_, by simpa using hcredentials, hpath, rfl⟩))
        by_contra hsome
        exact hauthorization ⟨Option.isSome_iff_ne_none.mpr hsome, hcredentials⟩
      · obtain ⟨⟨⟩, hcheck, -⟩ := map_eq_ok.mp h
        refine .inr (.inr (.inr ⟨?_, csrfMatches_of_checkCsrf hcheck⟩))
        rintro ⟨-, hsome, hcredentials⟩
        exact hauthorization ⟨hsome, by simpa using hcredentials⟩

/-- On a path that passes without credentials, no empty cookie counts. -/
theorem source_of_writePath {S : Services} {r : Request} {endpoint : Endpoint}
    {acting : List Acting} (hauthorization : r.authorization = none)
    (hcredentials : r.hasBrowserCredentials = false)
    (hendpoint : endpoint ≠ .refresh ∧ endpoint ≠ .changePassword)
    (h : handle S none r endpoint = .ok acting) : ∀ a ∈ acting, a.source = .header := by
  obtain ⟨haccess, hrefresh⟩ := not_truthy hcredentials
  have hactor : ∀ {acting}, ((getActor S none r).map
      fun resolved => [(⟨.actor resolved.actor, resolved.source⟩ : Acting)]) = .ok acting →
      ∀ a ∈ acting, a.source = .header := by
    intro acting hacting a ha
    obtain ⟨resolved, hresolved, rfl⟩ := map_eq_ok.mp hacting
    obtain rfl := List.mem_singleton.mp ha
    exact (getActor_of_no_credentials hcredentials hresolved).2.1
  cases endpoint with
  | login | pairDevice | refreshDevice =>
      cases h
      nofun
  | refresh => exact absurd rfl hendpoint.1
  | changePassword => exact absurd rfl hendpoint.2
  | logout =>
      cases h
      intro a ha
      rcases List.mem_append.mp ha with ha | ha
      · obtain ⟨t, ht, hne⟩ := source_of_revokes ha
        obtain ⟨cookie, hcookie, heq⟩ := Option.map_eq_some_iff.mp ht
        obtain rfl : cookie = t := congrArg Prod.snd heq
        exact absurd (eq_nil_of_not_truthy hrefresh hcookie) hne
      · obtain ⟨t, ht, hne⟩ := source_of_revokes ha
        unfold Request.logoutToken at ht
        split at ht
        · exact (congrArg Prod.fst (Option.some.inj ht)).symm
        · obtain ⟨cookie, hcookie, heq⟩ := Option.map_eq_some_iff.mp ht
          obtain rfl : cookie = t := congrArg Prod.snd heq
          exact absurd (eq_nil_of_not_truthy haccess hcookie) hne
  | createPairingCode | revokeDevice | createProject | startUpload | completeUpload
  | presignPart | createImport | presignImportPart | completeAttachment | submitImport
  | createStaff | updateStaff | replaceProjects | resetStaffPassword => exact hactor h

/-- What a handler does with an identity or a session from a cookie, it does after
the CSRF check. Where the middleware has only the Authorization header to go by, its
token gives the actor of every handler, and nothing comes from a cookie. -/
theorem csrf_agrees_with_actor (early late : Services) (r : Request)
    (hwrites : r.method.writes = true) :
    (∀ acting, serve early late r = some acting → (∃ a ∈ acting, a.source = .cookie) →
        CsrfMatches r) ∧
      ∀ cached, OnAuthorization r → enforceBrowserCsrf early r = .ok cached →
        ∃ token actor, r.bearer = some token ∧ resolve early false token = .ok actor ∧
          getActor late cached r = .ok ⟨actor, .header⟩ ∧
          ∀ endpoint acting, handle late cached r endpoint = .ok acting →
            ∀ a ∈ acting, a.source = .header := by
  have honly : ∀ resolved, OnAuthorization r → getActor early none r = .ok resolved →
      ∃ token, r.bearer = some token ∧ resolve early false token = .ok resolved.actor ∧
        resolved.source = .header ∧
        ∀ endpoint acting, handle late (some resolved) r endpoint = .ok acting →
          ∀ a ∈ acting, a.source = .header := by
    rintro resolved ⟨-, -, hcredentials⟩ hresolved
    obtain ⟨hcookie, hsource, token, hbearer, hactor⟩ :=
      getActor_of_no_credentials hcredentials hresolved
    refine ⟨token, hbearer, hactor, hsource, fun endpoint acting hacting => ?_⟩
    refine source_of_no_cookie hcookie (fun resolved' hcached => ?_) hacting
    cases hcached
    exact hsource
  constructor
  · rintro acting hserve ⟨a, ha, hsource⟩
    unfold serve at hserve
    split at hserve
    · rename_i cached endpoint henforce hroute
      have hacting : handle late cached r endpoint = .ok acting := by
        cases hhandle : handle late cached r endpoint with
        | error e =>
            rw [hhandle] at hserve
            cases hserve
        | ok acting' =>
            rw [hhandle] at hserve
            cases hserve
            rfl
      obtain ⟨hpost, hpath, -⟩ | ⟨hon, resolved, hresolved, rfl⟩ |
        ⟨hauthorization, hcredentials, hpath, rfl⟩ | ⟨-, hmatches⟩ :=
        enforceBrowserCsrf_cases hwrites henforce
      · rcases deviceAuth_route hpost hpath hroute with rfl | rfl
        · cases hacting
          cases ha
        · cases hacting
          cases ha
      · obtain ⟨token, -, -, -, hheader⟩ := honly resolved hon hresolved
        cases hsource.symm.trans (hheader endpoint acting hacting a ha)
      · have hheader := source_of_writePath hauthorization hcredentials
          (not_auth_of_writePath hpath hroute) hacting
        cases hsource.symm.trans (hheader a ha)
      · exact hmatches
    · cases hserve
  · intro cached hon henforce
    obtain ⟨hpost, hpath, -⟩ | ⟨-, resolved, hresolved, rfl⟩ | ⟨hauthorization, -⟩ |
      ⟨hoff, -⟩ := enforceBrowserCsrf_cases hwrites henforce
    · exact absurd ⟨hpost, hpath⟩ hon.1
    · obtain ⟨token, hbearer, hactor, hsource, hheader⟩ := honly resolved hon hresolved
      refine ⟨token, resolved.actor, hbearer, hactor, ?_, hheader⟩
      rw [← hsource]
      rfl
    · obtain ⟨-, hsome, -⟩ := hon
      rw [hauthorization] at hsome
      cases hsome
    · exact absurd hon hoff

namespace Sample

/-- The services know one user's token. -/
def services : Services where
  authenticateUser token :=
    if token = [97] then some ⟨1, [], [], [], false, 0, 0, none, .owner, .active, none⟩ else none
  projectIds _ := []
  authenticateDevice _ := none
  rotateRefreshToken _ := none
  sessionByRefreshToken _ := none
  sessionByAccessToken token := if token = [97] then some 2 else none

def logoutRequest : Request where
  method := .post
  path := Text.ofString "/api/v1/auth/logout"
  authorization := none
  accessToken := some [97]
  refreshToken := none
  xsrfToken := some [98]
  csrfHeader := some [98]

end Sample

/-- A browser logs out with its cookie. -/
theorem csrf_agrees_with_actor_logout :
    serve Sample.services Sample.services Sample.logoutRequest = some [⟨.session 2, .cookie⟩] ∧
      CsrfMatches Sample.logoutRequest := by
  have hserve : serve Sample.services Sample.services Sample.logoutRequest =
      some [⟨.session 2, .cookie⟩] := by
    decide +kernel
  refine ⟨hserve, ?_⟩
  exact (csrf_agrees_with_actor Sample.services Sample.services Sample.logoutRequest rfl).1 _ hserve
    ⟨_, List.mem_singleton_self _, rfl⟩

end SuperBoss.Api
