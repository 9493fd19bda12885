import AuthService.Filters.Oidc.AuthorizationRequest
import AuthService.Filters.Oidc.Isolation

/-! The login round trip: a first visit, the callback that answers it and the visit repeated with
its cookie, with requests of other sessions in between. -/
namespace AuthService.Filters.Oidc
open Lib Common.Http Config OidcFilter

/-- One request processed to its end, with the clock, the generator and the identity provider
that it meets. -/
structure Visit where
  now : Int
  external : External
  request : CheckRequest

def processAll (lib : Libraries) (cfg : OIDCConfig) (visits : List Visit) (store : InMemorySessionStore) :
    InMemorySessionStore :=
  visits.foldl (fun store v => (runProcess lib cfg v.now v.external v.request store).2) store

/-- A visit that neither has a session as its cookie nor draws it. -/
structure Visit.Elsewhere (cfg : OIDCConfig) (key : Bytes) (v : Visit) : Prop where
  cookie : ∀ s, sessionCookie cfg v.request = some s → cStr s ≠ key
  drawn : v.external.sessionId.val ≠ key

/-- The Cookie header carries a session id among well-formed cookies of other names. -/
def SendsSessionId (cfg : OIDCConfig) (headers : HeaderMap) (s : Bytes) : Prop :=
  ∃ before after : List (Bytes × Bytes),
    headers.lookup Headers.cookie = some (joinCookies (before ++ (getSessionIdCookieName cfg, s) :: after)) ∧
    ∀ p ∈ before ++ after, CookiePair p ∧ p.1 ≠ getSessionIdCookieName cfg

/-- A request without a session that leads to a login. -/
structure FirstVisit (cfg : OIDCConfig) (http : HttpRequest) : Prop where
  no_cookie : getSessionIdFromCookie cfg http.headers = none
  no_header : (http.headers.lookup cfg.idToken.header).isSome = false
  no_logout : matchesLogoutRequest cfg ⟨some http⟩ = false
  no_callback : matchesCallbackRequest cfg ⟨some http⟩ ≠ .ok true
  nulFree : NulFree http.host ∧ NulFree http.path ∧ NulFree http.query

/-- The callback of a login: it has the session's cookie and presents the issued state once and a
code; the identity provider's reply is accepted for the issued nonce and is complete. -/
structure AnswersLogin (lib : Libraries) (cfg : OIDCConfig) (issued met : External) (now : Int) (http : HttpRequest)
    (t : TokenResponse) : Prop where
  cookie : SendsSessionId cfg http.headers issued.sessionId.val
  is_callback : matchesCallbackRequest cfg ⟨some http⟩ = .ok true
  no_logout : matchesLogoutRequest cfg ⟨some http⟩ = false
  no_header : (http.headers.lookup cfg.idToken.header).isSome = false
  accepted : ∃ data code body, decodeQueryData (requestQueryString ⟨some http⟩) = some data ∧
    data.entries.filter (fun p => p.1 = text "state") = [(text "state", issued.state.val)] ∧
    data.find (text "code") = some code ∧ met.idp (retrieveTokenRequest cfg code) = .response 200 body ∧
    TokenResponseParserImpl.parse lib cfg.jwks cfg.clientId issued.nonce.val body now = some t ∧
    requiredTokensPresent cfg (some t) = true

/-- The characters a cookie name can hold. -/
structure CookieNameSafe (cookieName : Bytes) : Prop where
  no_eq : '='.toUInt8 ∉ cookieName
  no_semicolon : ';'.toUInt8 ∉ cookieName
  nulFree : NulFree cookieName

variable {lib : Libraries} {cfg : OIDCConfig} {now : Int} {x : External} {request : CheckRequest}
  {store : InMemorySessionStore}

theorem entry_processAll {visits : List Visit} {key : Bytes} (hv : ∀ v ∈ visits, v.Elsewhere cfg key) :
    (processAll lib cfg visits store).entry key = store.entry key := by
  induction visits generalizing store with
  | nil => rfl
  | cons v visits ih =>
    have hfirst := hv v List.mem_cons_self
    exact (ih fun w hw => hv w (List.mem_cons_of_mem _ hw)).trans (entry_runProcess hfirst.cookie fun _ => hfirst.drawn)

private theorem cookieNameSafe_sessionId (hp : CookieNameSafe cfg.cookieNamePrefix) :
    CookieNameSafe (getSessionIdCookieName cfg) :=
  ⟨notMem_getSessionIdCookieName (by decide) hp.no_eq, notMem_getSessionIdCookieName (by decide) hp.no_semicolon,
    notMem_getSessionIdCookieName (by decide) hp.nulFree⟩

private theorem semicolon_notMem_sessionString (s : SessionString) : ';'.toUInt8 ∉ s.val := by
  intro h
  have hs := List.all_eq_true.mp s.property _ h
  revert hs
  decide

/-- The Cookie decoder finds the session id that the Set-Cookie encoder issued. -/
theorem getSessionIdFromCookie_of_sends {headers : HeaderMap} {s : SessionString}
    (hp : CookieNameSafe cfg.cookieNamePrefix) (hs : SendsSessionId cfg headers s.val) :
    getSessionIdFromCookie cfg headers = some s.val := by
  obtain ⟨before, after, hh, hothers⟩ := hs
  have hname := cookieNameSafe_sessionId hp
  unfold getSessionIdFromCookie cookieFromHeaders
  rw [hh]
  dsimp only
  rw [decodeCookies_joinCookies (by simp)]
  · refine List.lookup_eq_some_iff.mpr ⟨before, after, rfl, fun p hin => ?_⟩
    simpa using Ne.symm (hothers p (List.mem_append_left _ hin)).2
  · intro p hin
    rcases List.mem_append.mp hin with hin | hin
    · exact (hothers p (List.mem_append_left _ hin)).1
    · rcases List.mem_cons.mp hin with rfl | hin
      · exact ⟨hname.no_eq, hname.no_semicolon, semicolon_notMem_sessionString s⟩
      · exact (hothers p (List.mem_append_right _ hin)).1

/-- The session cookie is found among foreign segments exactly when each of them has an `=`. -/
theorem session_cookie_among_segments (cfg : OIDCConfig) (headers : HeaderMap) (front back : List Bytes) (value : Bytes)
    (hname : '='.toUInt8 ∉ getSessionIdCookieName cfg)
    (hheader : headers.lookup Headers.cookie = some ([';'.toUInt8, ' '.toUInt8].intercalate
      (front ++ (getSessionIdCookieName cfg ++ '='.toUInt8 :: value) :: back)))
    (hseg : ∀ seg ∈ front ++ (getSessionIdCookieName cfg ++ '='.toUInt8 :: value) :: back,
      ¬ [';'.toUInt8, ' '.toUInt8] <:+: seg)
    (hfront : ∀ seg ∈ front, ¬ getSessionIdCookieName cfg ++ ['='.toUInt8] <+: seg) :
    getSessionIdFromCookie cfg headers = if ∀ seg ∈ front ++ back, '='.toUInt8 ∈ seg then some value else none := by
  have hall : (∀ seg ∈ front ++ joinCookie (getSessionIdCookieName cfg, value) :: back, '='.toUInt8 ∈ seg) ↔
      ∀ seg ∈ front ++ back, '='.toUInt8 ∈ seg := by
    simp [or_imp, forall_and, joinCookie]
  unfold getSessionIdFromCookie cookieFromHeaders
  rw [hheader]
  exact (decodeCookies_segments hname hseg hfront).trans (if_congr hall rfl rfl)

private def foreignCookies (segment : Bytes) : HeaderMap :=
  [(text "cookie", text "theme=dark; " ++ getSessionIdCookieName sampleConfig ++ text "=session123; " ++ segment)]

theorem session_cookie_beside_theme :
    getSessionIdFromCookie sampleConfig (foreignCookies (text "lang=en")) = some (text "session123") := by
  refine (session_cookie_among_segments sampleConfig _ [text "theme=dark"] [text "lang=en"] (text "session123")
    (by decide +kernel) (by decide +kernel) (by decide +kernel) (by decide +kernel)).trans (by decide +kernel)

/-- One foreign segment without `=` hides the session. -/
theorem session_cookie_hidden :
    ¬ ∀ (cfg : OIDCConfig) (headers : HeaderMap) (front back : List Bytes) (value : Bytes),
      '='.toUInt8 ∉ getSessionIdCookieName cfg →
      headers.lookup Headers.cookie = some ([';'.toUInt8, ' '.toUInt8].intercalate
        (front ++ (getSessionIdCookieName cfg ++ '='.toUInt8 :: value) :: back)) →
      (∀ seg ∈ front ++ (getSessionIdCookieName cfg ++ '='.toUInt8 :: value) :: back,
        ¬ [';'.toUInt8, ' '.toUInt8] <:+: seg) →
      (∀ seg ∈ front, ¬ getSessionIdCookieName cfg ++ ['='.toUInt8] <+: seg) →
      getSessionIdFromCookie cfg headers = some value := by
  intro h
  have hfound := h sampleConfig (foreignCookies (text "dismissed")) [text "theme=dark"] [text "dismissed"]
    (text "session123") (by decide +kernel) (by decide +kernel) (by decide +kernel) (by decide +kernel)
  have hnone : getSessionIdFromCookie sampleConfig (foreignCookies (text "dismissed")) = none := by decide +kernel
  cases hnone.symm.trans hfound

section Steps
variable {http : HttpRequest}

private theorem sessionCookie_of_sends {s : SessionString} (hp : CookieNameSafe cfg.cookieNamePrefix)
    (hs : SendsSessionId cfg http.headers s.val) : sessionCookie cfg ⟨some http⟩ = some s.val :=
  getSessionIdFromCookie_of_sends hp hs

private theorem runProcess_firstVisit (lib : Libraries) (now : Int) (x : External) (store : InMemorySessionStore)
    (hv : FirstVisit cfg http) :
    (runProcess lib cfg now x ⟨some http⟩ store).1 = .returned .unauthenticated
      (setSessionIdCookie cfg x.sessionId.val
        (setRedirectHeaders (redirectLocation cfg x.state.val x.nonce.val) (setStandardResponseHeaders .empty))) ∧
    (runProcess lib cfg now x ⟨some http⟩ store).2.pending x.sessionId.val =
      some (.create x.state.val x.nonce.val (getRequestUrl http)) := by
  have hprocess : process cfg lib ⟨some http⟩ .empty = redirectToIdp cfg .empty http none := by
    simp [process, hv.no_logout, hv.no_header, hv.no_cookie]
  have hpending : (store.setAuthorizationState now x.sessionId.val
      (.create x.state.val x.nonce.val (getRequestUrl http))).pending (cStr x.sessionId.val) = some _ :=
    InMemorySessionStore.pending_setAuthorizationState _ _ _
  rw [cStr_sessionString] at hpending
  unfold runProcess
  rw [hprocess, run_redirectToIdp]
  exact ⟨rfl, hpending⟩

/-- A callback that presents the stored state and meets an acceptable reply is redirected to the stored
URL and saves the tokens of the reply. -/
theorem retrieveToken_succeeds {s code body : Bytes} {a : AuthorizationState} {t : TokenResponse}
    (response : CheckResponse) (ha : store.pending (cStr s) = some a) (hq : CallbackQuery request a.state code)
    (hidp : x.idp (retrieveTokenRequest cfg code) = .response 200 body)
    (hparse : TokenResponseParserImpl.parse lib cfg.jwks cfg.clientId a.nonce body now = some t)
    (hcomplete : requiredTokensPresent cfg (some t) = true) :
    ((retrieveToken cfg lib request response s).run now (Op.exec now x) store).1 = .returned .unauthenticated
        (setRedirectHeaders a.requestedUrl (setStandardResponseHeaders response)) ∧
      ((retrieveToken cfg lib request response s).run now (Op.exec now x) store).2.tokens (cStr s) = some t := by
  obtain ⟨data, hd, hstate, hcode⟩ := hq.decodes
  have hmissing : ¬ (cfg.hasAccessToken = true ∧ t.accessToken = none) := by
    rintro ⟨hat, hnone⟩
    simp [requiredTokensPresent, hat, hnone] at hcomplete
  simp only [retrieveToken, hd, hstate, hcode]
  rw [Program.perform_bind, Program.run_call, Op.exec_getAuthorizationState, ha]
  simp [Op.exec, hidp, hparse, hmissing]

private theorem runProcess_callback {issued : External} {t : TokenResponse} {url : Bytes}
    (hp : CookieNameSafe cfg.cookieNamePrefix) (hc : AnswersLogin lib cfg issued x now http t)
    (ha : store.pending issued.sessionId.val = some (.create issued.state.val issued.nonce.val url)) :
    (runProcess lib cfg now x ⟨some http⟩ store).1 = .returned .unauthenticated
      (setRedirectHeaders (cStr url) (setStandardResponseHeaders .empty)) ∧
    (runProcess lib cfg now x ⟨some http⟩ store).2.tokens issued.sessionId.val = some t := by
  obtain ⟨data, code, body, hd, hstate, hcode, hidp, hparse, hcomplete⟩ := hc.accepted
  have hs : Enters cfg ⟨some http⟩ issued.sessionId.val true :=
    ⟨sessionCookie_of_sends hp hc.cookie, hc.no_logout, hc.no_header, hc.is_callback⟩
  have hcreated : AuthorizationState.create issued.state.val issued.nonce.val url =
      ⟨issued.state.val, issued.nonce.val, cStr url⟩ := by
    rw [AuthorizationState.create, cStr_sessionString, cStr_sessionString]
  rw [hcreated, ← cStr_sessionString issued.sessionId] at ha
  have hq : CallbackQuery ⟨some http⟩ issued.state.val code := ⟨data, hd, Multimap.find_of_unique hstate, hcode⟩
  obtain ⟨hredirect, htokens⟩ := retrieveToken_succeeds .empty ha hq hidp hparse hcomplete
  rw [cStr_sessionString] at htokens
  unfold runProcess
  rw [process_eq_retrieveToken lib hs]
  exact ⟨hredirect, htokens⟩

private theorem runProcess_stored {s : Bytes} {t : TokenResponse} (hs : Enters cfg request s false)
    (ht : store.tokens (cStr s) = some t) (hp : requiredTokensPresent cfg (some t) = true)
    (hx : requiredTokensExpired cfg now t = false) :
    (runProcess lib cfg now x request store).1 = .returned .ok (addTokensToRequestHeaders cfg .empty t) := by
  obtain ⟨http, _, hprocess⟩ := process_eq_processSession lib hs
  unfold runProcess
  rw [hprocess, processSession, Program.perform_bind, Program.run_call, Op.exec_getTokenResponse, ht]
  simp [hp, hx]

end Steps

/-- Where a request wanted to go. -/
def requestedUrl (http : HttpRequest) : Bytes :=
  text "https://" ++ http.host ++ http.path ++ (if http.query = [] then [] else text "?" ++ http.query)

private theorem nulFree_requestedUrl {http : HttpRequest} (hv : FirstVisit cfg http) :
    NulFree (requestedUrl http) := by
  obtain ⟨hhost, hpath, hquery⟩ := hv.nulFree
  have hhttps : NulFree (text "https://") := by decide
  have hmark : NulFree (text "?") := by decide
  unfold requestedUrl
  split <;> simp only [nulFree_append, List.append_nil] <;> tauto

private theorem cStr_getRequestUrl {http : HttpRequest} (hv : FirstVisit cfg http) :
    cStr (getRequestUrl http) = requestedUrl http := by
  have hscheme : text "https" ++ text "://" = text "https://" := by decide
  have hurl : getRequestUrl http = requestedUrl http := by
    unfold getRequestUrl requestedUrl
    rw [hscheme]
    cases hq : http.query <;> simp
  rw [hurl, cStr_of_nulFree (nulFree_requestedUrl hv)]

private theorem setRedirectHeaders_eq {url : Bytes} (hu : NulFree url) :
    setRedirectHeaders url (setStandardResponseHeaders .empty) =
      ⟨0, [], .denied ⟨.found, [⟨Headers.cacheControl, Headers.noCache⟩, ⟨Headers.pragma, Headers.noCache⟩,
        ⟨Headers.location, url⟩], []⟩⟩ := by
  have hcache : cStr Headers.cacheControl = Headers.cacheControl := by decide
  have hnone : cStr Headers.noCache = Headers.noCache := by decide
  have hpragma : cStr Headers.pragma = Headers.pragma := by decide
  have hlocation : cStr Headers.location = Headers.location := by decide
  simp [setRedirectHeaders, setStandardResponseHeaders, setHeader, CheckResponse.mutableDeniedResponse,
    CheckResponse.deniedResponse, CheckResponse.empty, cStr_of_nulFree hu, hcache, hnone, hpragma, hlocation]

private theorem setSessionIdCookie_eq (s : SessionString) (location : Bytes)
    (hp : CookieNameSafe cfg.cookieNamePrefix) :
    ∃ denied, (setSessionIdCookie cfg s.val
        (setRedirectHeaders location (setStandardResponseHeaders .empty))).deniedResponse = some denied ∧
      denied.status = .found ∧
      ⟨Headers.setCookie, joinCookie (getSessionIdCookieName cfg, s.val) ++
        text "; HttpOnly; Path=/; SameSite=Lax; Secure"⟩ ∈ denied.headers :=
  ⟨_, deniedResponse_setSessionIdCookie s hp.nulFree rfl, rfl, List.mem_append_right _ (List.mem_singleton_self _)⟩

private theorem matchesCallbackRequest_of_ne {http back : HttpRequest} {headers : HeaderMap}
    (hb : matchesCallbackRequest cfg ⟨some back⟩ = .ok true)
    (hn : matchesCallbackRequest cfg ⟨some http⟩ ≠ .ok true) :
    matchesCallbackRequest cfg ⟨some { http with headers := headers }⟩ = .ok false := by
  unfold matchesCallbackRequest at hb hn ⊢
  cases hu : Uri.parse cfg.callbackUri with
  | error what => simp [hu] at hb
  | ok uri =>
    simp only [hu, CheckRequest.http, Option.getD_some] at hn ⊢
    simpa using hn

/-- Login round trip. A first visit is sent to log in with a session cookie. After any requests of
other sessions, the callback that answers it is redirected to the URL first asked for; and after
any more of them the first visit, repeated with the cookie while the tokens are unexpired, is let
through with the tokens of the reply in its headers. -/
theorem login_round_trip (store : InMemorySessionStore) (now₀ now₂ : Int) (later : External)
    {issued met : External} {now₁ : Int} {http back : HttpRequest} {headers : HeaderMap}
    {others others' : List Visit} {t : TokenResponse} (hp : CookieNameSafe cfg.cookieNamePrefix)
    (hv : FirstVisit cfg http)
    (ho : ∀ v ∈ others, v.Elsewhere cfg issued.sessionId.val)
    (hc : AnswersLogin lib cfg issued met now₁ back t)
    (ho' : ∀ v ∈ others', v.Elsewhere cfg issued.sessionId.val)
    (hs : SendsSessionId cfg headers issued.sessionId.val)
    (hh : (headers.lookup cfg.idToken.header).isSome = false)
    (hx : requiredTokensExpired cfg now₂ t = false) :
    ∃ response denied afterVisit afterCallback,
      runProcess lib cfg now₀ issued ⟨some http⟩ store = (.returned .unauthenticated response, afterVisit) ∧
      response.deniedResponse = some denied ∧ denied.status = .found ∧
      ⟨Headers.setCookie, joinCookie (getSessionIdCookieName cfg, issued.sessionId.val) ++
        text "; HttpOnly; Path=/; SameSite=Lax; Secure"⟩ ∈ denied.headers ∧
      runProcess lib cfg now₁ met ⟨some back⟩ (processAll lib cfg others afterVisit) =
        (.returned .unauthenticated ⟨0, [], .denied ⟨.found, [⟨Headers.cacheControl, Headers.noCache⟩,
          ⟨Headers.pragma, Headers.noCache⟩, ⟨Headers.location, requestedUrl http⟩], []⟩⟩, afterCallback) ∧
      (runProcess lib cfg now₂ later ⟨some { http with headers := headers }⟩
        (processAll lib cfg others' afterCallback)).1 = .returned .ok (addTokensToRequestHeaders cfg .empty t) ∧
      (addTokensToRequestHeaders cfg .empty t).okResponse = some ⟨forwardedHeaders cfg t⟩ := by
  obtain ⟨hvisit, hpending⟩ := runProcess_firstVisit lib now₀ issued store hv
  obtain ⟨denied, hdenied, hfound, hset⟩ := setSessionIdCookie_eq issued.sessionId
    (redirectLocation cfg issued.state.val issued.nonce.val) hp
  have hpending' : (processAll lib cfg others (runProcess lib cfg now₀ issued ⟨some http⟩ store).2).pending
      issued.sessionId.val = some (.create issued.state.val issued.nonce.val (getRequestUrl http)) := by
    rw [InMemorySessionStore.pending, entry_processAll ho]
    exact hpending
  obtain ⟨hback, htokens⟩ := runProcess_callback hp hc hpending'
  rw [cStr_getRequestUrl hv, setRedirectHeaders_eq (nulFree_requestedUrl hv)] at hback
  refine ⟨_, denied, _, _, Prod.ext hvisit rfl, hdenied, hfound, hset, Prod.ext hback rfl, ?_,
    okResponse_addTokensToRequestHeaders cfg t⟩
  have henters : Enters cfg ⟨some { http with headers := headers }⟩ issued.sessionId.val false := by
    refine ⟨getSessionIdFromCookie_of_sends hp hs, hv.no_logout, hh, ?_⟩
    exact matchesCallbackRequest_of_ne hc.is_callback hv.no_callback
  obtain ⟨_, _, _, _, _, _, _, _, hcomplete⟩ := hc.accepted
  refine runProcess_stored henters ?_ hcomplete hx
  rw [cStr_sessionString, InMemorySessionStore.tokens, entry_processAll ho']
  exact htokens

private theorem sendsSessionId_sample : SendsSessionId sampleConfig
    [(text "cookie", text "theme=dark; __Host-cookie-prefix-authservice-session-id-cookie=session123")]
    (answering .null).sessionId.val := by
  refine ⟨[(text "theme", text "dark")], [], by decide +kernel, fun p hp => ?_⟩
  obtain rfl : p = (text "theme", text "dark") := by simpa using hp
  exact ⟨⟨by decide, by decide, by decide⟩, by decide +kernel⟩

/-- The sample login, with a visit of somebody else between its steps. -/
theorem login_round_trip_sample :
    ∃ afterVisit afterCallback : InMemorySessionStore,
      (runProcess sampleLibraries sampleConfig 1901001001 (answering .null) (visit []).request (.create 0 0)).2 =
        afterVisit ∧
      (runProcess sampleLibraries sampleConfig 1901001003 (answering (.response 200 loginReply)) callback.request
        (processAll sampleLibraries sampleConfig [⟨1901001002,
          { answering .null with sessionId := ⟨text "session456", by decide⟩ }, (visit []).request⟩] afterVisit)).2 =
        afterCallback ∧
      (runProcess sampleLibraries sampleConfig 1901001004 (answering .null) (visit [(text "cookie",
          text "theme=dark; __Host-cookie-prefix-authservice-session-id-cookie=session123")]).request
        (processAll sampleLibraries sampleConfig [] afterCallback)).1.addedHeaders =
          [⟨text "authorization", text "Bearer " ++ sampleJwt.jwt⟩,
            ⟨text "x-access-token", text "access_token_value"⟩] := by
  have hp : CookieNameSafe sampleConfig.cookieNamePrefix := ⟨by decide, by decide, by decide⟩
  have hv : FirstVisit sampleConfig (visit []).request.http :=
    ⟨by decide +kernel, by decide +kernel, by decide +kernel, by decide +kernel, by decide +kernel⟩
  have hc : AnswersLogin sampleLibraries sampleConfig (answering .null) (answering (.response 200 loginReply))
      1901001003 callback.request.http
      ⟨sampleJwt, text "access_token_value", text "refresh_token_value", 1901004598⟩ := by
    refine ⟨⟨[], [], by decide +kernel, by simp⟩, by decide +kernel, by decide +kernel, by decide +kernel, ?_⟩
    refine ⟨.ofList [(text "code", text "value"), (text "state", text "some-state")], text "value", loginReply, ?_⟩
    exact ⟨by decide +kernel, by decide +kernel, by decide +kernel, rfl, by decide +kernel, by decide +kernel⟩
  have ho : ∀ v ∈ [(⟨1901001002, { answering .null with sessionId := ⟨text "session456", by decide⟩ },
      (visit []).request⟩ : Visit)], v.Elsewhere sampleConfig (answering .null).sessionId.val := by
    intro v hm
    obtain rfl := List.mem_singleton.mp hm
    have hnone : sessionCookie sampleConfig (visit []).request = none := by decide +kernel
    exact ⟨by simp [hnone], by decide +kernel⟩
  have hnobody : ∀ v ∈ ([] : List Visit), v.Elsewhere sampleConfig (answering .null).sessionId.val := by simp
  obtain ⟨_, _, afterVisit, afterCallback, hvisit, _, _, _, hback, hrepeat, hheaders⟩ :=
    login_round_trip (.create 0 0) 1901001001 1901001004 (answering .null) hp hv ho hc hnobody sendsSessionId_sample
      (by decide +kernel) (by decide +kernel)
  refine ⟨afterVisit, afterCallback, congrArg Prod.snd hvisit, congrArg Prod.snd hback, ?_⟩
  refine (congrArg Outcome.addedHeaders hrepeat).trans ?_
  rw [Outcome.addedHeaders, hheaders]
  decide +kernel

end AuthService.Filters.Oidc
