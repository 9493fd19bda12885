import AuthService.Filters.Oidc.Execution

/-! The protocol of one request: which calls `Process` makes after which, on what grounds, and
how it ends. Everything about interleaved requests is derived from it. -/
namespace AuthService.Filters.Oidc
open Lib Common.Http Config OidcFilter

abbrev Log := List (Program.Called Int Op.Res)

/-- An allow that carries tokens. -/
def Outcome.forwardsTokens : Outcome → Bool
  | .returned .ok r => r.okResponse.isSome
  | _ => false

/-- The headers that an allow adds to the request. -/
def Outcome.addedHeaders : Outcome → List HeaderValue
  | .returned .ok r => r.okResponse.elim [] (·.headers)
  | _ => []

@[simp] theorem forwardsTokens_addTokens (cfg : OIDCConfig) (response : CheckResponse) (t : TokenResponse) :
    (Outcome.returned .ok (addTokensToRequestHeaders cfg response t)).forwardsTokens = true := by
  unfold addTokensToRequestHeaders
  dsimp only
  split <;> rfl

/-- The headers that forward a token response: the ID token's, and the access token's where one is configured. -/
def forwardedHeaders (cfg : OIDCConfig) (t : TokenResponse) : List HeaderValue :=
  ⟨cStr cfg.idToken.header, cStr (encodeHeaderValue cfg.idToken.preamble t.idToken.jwt)⟩ ::
    match cfg.hasAccessToken, t.accessToken with
    | true, some accessToken =>
      [⟨cStr cfg.accessToken.header, cStr (encodeHeaderValue cfg.accessToken.preamble accessToken)⟩]
    | _, _ => []

theorem okResponse_addTokensToRequestHeaders (cfg : OIDCConfig) (t : TokenResponse) :
    (addTokensToRequestHeaders cfg .empty t).okResponse = some ⟨forwardedHeaders cfg t⟩ := by
  unfold addTokensToRequestHeaders forwardedHeaders
  cases cfg.hasAccessToken <;> cases t.accessToken <;> rfl

variable (lib : Libraries) (cfg : OIDCConfig) (request : CheckRequest)

/-- The session id in the request's cookie. -/
def sessionCookie : Option Bytes := request.http?.bind fun http => getSessionIdFromCookie cfg http.headers

/-- What a refresh makes of the answer to its POST. -/
def refreshResult (existing : TokenResponse) (answer : PostResult) (now : Int) : Except Exn (Option TokenResponse) :=
  match answer with
  | .thrown => .error .errorCode
  | .null => .ok none
  | .response status body =>
    if status ≠ 200 then .ok none
    else TokenResponseParserImpl.parseRefreshTokenResponse lib existing body now

/-- A request of a session, neither a logout nor let through for its ID token header. -/
structure Enters (s : Bytes) (callback : Bool) : Prop where
  cookie : sessionCookie cfg request = some s
  no_logout : matchesLogoutRequest cfg request = false
  no_header : (request.http.headers.lookup cfg.idToken.header).isSome = false
  callback_eq : matchesCallbackRequest cfg request = .ok callback

/-- A callback's parameters. -/
structure CallbackQuery (state code : Bytes) : Prop where
  decodes : ∃ data, decodeQueryData (requestQueryString request) = some data ∧
    data.find (text "state") = some state ∧ data.find (text "code") = some code

/-- Grounds to save a token response from a callback: the presented state is the stored one, and
the reply is accepted for the stored nonce and is complete. -/
structure Exchanged (s code : Bytes) (a : AuthorizationState) (body : Bytes) (now : Int) (t : TokenResponse) :
    Prop where
  enters : Enters cfg request s true
  query : CallbackQuery request a.state code
  parses : TokenResponseParserImpl.parse lib cfg.jwks cfg.clientId a.nonce body now = some t
  complete : requiredTokensPresent cfg (some t) = true

/-- Grounds to ask for a refresh: the stored tokens are complete, expired and refreshable. -/
structure Refreshes (s : Bytes) (t : TokenResponse) (now : Int) (token : Bytes) : Prop where
  enters : Enters cfg request s false
  complete : requiredTokensPresent cfg (some t) = true
  expired : requiredTokensExpired cfg now t = true
  token : t.refreshToken = some token

/-- Grounds to give up a session. -/
inductive Rejects (s : Bytes) : Log → Prop
  | incomplete {stored : Option TokenResponse} {e} : requiredTokensPresent cfg stored = false →
      Rejects s [⟨.getTokenResponse s, stored, e⟩]
  | unrefreshable {t : TokenResponse} {e} : requiredTokensExpired cfg e t = true → t.refreshToken = none →
      Rejects s [⟨.getTokenResponse s, some t, e⟩]
  | refreshFailed {t : TokenResponse} {token answer e e'} : Refreshes cfg request s t e token →
      refreshResult lib t answer e' = .ok none →
      Rejects s [⟨.post (refreshTokenRequest cfg token), answer, e'⟩, ⟨.getTokenResponse s, some t, e⟩]

/-- The logs after which a login is begun. -/
inductive Redirects : Log → Prop
  | newVisitor : sessionCookie cfg request = none → Redirects []
  | discarded {s log e} : Enters cfg request s false → Rejects lib cfg request s log →
      Redirects (⟨.removeSession s, (), e⟩ :: log)

/-- The calls a request makes, by the log of its earlier calls. -/
inductive Issues : Log → Op → Prop
  | logout {s} : sessionCookie cfg request = some s → matchesLogoutRequest cfg request = true →
      Issues [] (.removeSession s)
  | readTokens {s} : Enters cfg request s false → Issues [] (.getTokenResponse s)
  | readState {s state code} : Enters cfg request s true → CallbackQuery request state code →
      Issues [] (.getAuthorizationState s)
  | exchange {s code a e} : Enters cfg request s true → CallbackQuery request a.state code →
      Issues [⟨.getAuthorizationState s, some a, e⟩] (.post (retrieveTokenRequest cfg code))
  | clear {s code a body e e' t} : Exchanged lib cfg request s code a body e' t →
      Issues [⟨.post (retrieveTokenRequest cfg code), .response 200 body, e'⟩,
        ⟨.getAuthorizationState s, some a, e⟩] (.clearAuthorizationState s)
  | save {s code a body e e' e'' t} : Exchanged lib cfg request s code a body e' t →
      Issues [⟨.clearAuthorizationState s, (), e''⟩,
        ⟨.post (retrieveTokenRequest cfg code), .response 200 body, e'⟩,
        ⟨.getAuthorizationState s, some a, e⟩] (.setTokenResponse s t)
  | refresh {s t e token} : Refreshes cfg request s t e token →
      Issues [⟨.getTokenResponse s, some t, e⟩] (.post (refreshTokenRequest cfg token))
  | saveRefreshed {s t e token answer e' t'} : Refreshes cfg request s t e token →
      refreshResult lib t answer e' = .ok (some t') →
      Issues [⟨.post (refreshTokenRequest cfg token), answer, e'⟩, ⟨.getTokenResponse s, some t, e⟩]
        (.setTokenResponse s t')
  | discard {s log} : Enters cfg request s false → Rejects lib cfg request s log → Issues log (.removeSession s)
  | drawSessionId {log} : Redirects lib cfg request log → Issues log .generateSessionId
  | drawState {log sid e} : Redirects lib cfg request log →
      Issues (⟨.generateSessionId, sid, e⟩ :: log) .generateState
  | drawNonce {log sid e st e'} : Redirects lib cfg request log →
      Issues (⟨.generateState, st, e'⟩ :: ⟨.generateSessionId, sid, e⟩ :: log) .generateNonce
  | beginLogin {log} {sid st n : SessionString} {e e' e''} : Redirects lib cfg request log →
      Issues (⟨.generateNonce, n, e''⟩ :: ⟨.generateState, st, e'⟩ :: ⟨.generateSessionId, sid, e⟩ :: log)
        (.setAuthorizationState (cStr sid.val) (.create st.val n.val (getRequestUrl request.http)))

/-- An allow with tokens comes from unexpired stored tokens or from a refresh. -/
inductive Forwards : Int → Log → Outcome → Prop
  | stored {s t e} : Enters cfg request s false → requiredTokensPresent cfg (some t) = true →
      requiredTokensExpired cfg e t = false →
      Forwards e [⟨.getTokenResponse s, some t, e⟩] (.returned .ok (addTokensToRequestHeaders cfg .empty t))
  | refreshed {s t e token answer e' t' e''} : Refreshes cfg request s t e token →
      refreshResult lib t answer e' = .ok (some t') →
      Forwards e'' [⟨.setTokenResponse s t', (), e''⟩, ⟨.post (refreshTokenRequest cfg token), answer, e'⟩,
        ⟨.getTokenResponse s, some t, e⟩] (.returned .ok (addTokensToRequestHeaders cfg .empty t'))

/-- The exceptions that leave `Process`: an unparsable callback URI, or a POST that throws. -/
inductive Throws : Log → Prop
  | callbackUri {s what} : sessionCookie cfg request = some s → matchesLogoutRequest cfg request = false →
      (request.http.headers.lookup cfg.idToken.header).isSome = false →
      matchesCallbackRequest cfg request = .error what → Throws []
  | exchange {s code a e e'} : Enters cfg request s true → CallbackQuery request a.state code →
      Throws [⟨.post (retrieveTokenRequest cfg code), .thrown, e'⟩, ⟨.getAuthorizationState s, some a, e⟩]
  | refresh {s t e token e'} : Refreshes cfg request s t e token →
      Throws [⟨.post (refreshTokenRequest cfg token), .thrown, e'⟩, ⟨.getTokenResponse s, some t, e⟩]

/-- The calls that come before the first write of `RetrieveToken`. -/
inductive BeforeWriting (s : Bytes) : Op → Prop
  | read : BeforeWriting s (.getAuthorizationState s)
  | post {q : PostRequest} : BeforeWriting s (.post q)

/-- The exits of `RetrieveToken`. -/
inductive CallbackExits (response : CheckResponse) (s : Bytes) : Log → Outcome → Prop
  | refused {log code} : (∀ c ∈ log, BeforeWriting s c.op) → code ≠ .ok → code ≠ .unauthenticated →
      CallbackExits response s log (.returned code (setStandardResponseHeaders response))
  | expired {e} : CallbackExits response s [⟨.getAuthorizationState s, none, e⟩]
      (.returned .unauthenticated (sessionExpired (setStandardResponseHeaders response)))
  | thrown {code a e e'} : CallbackQuery request a.state code → CallbackExits response s
      [⟨.post (retrieveTokenRequest cfg code), .thrown, e'⟩, ⟨.getAuthorizationState s, some a, e⟩]
      (.thrown .errorCode (setStandardResponseHeaders response))
  | redirected {log t e e' url} : (∀ c ∈ log, BeforeWriting s c.op) → CallbackExits response s
      (⟨.setTokenResponse s t, (), e⟩ :: ⟨.clearAuthorizationState s, (), e'⟩ :: log)
      (.returned .unauthenticated (setRedirectHeaders url (setStandardResponseHeaders response)))

/-- The exits of `Process` from an empty response. -/
inductive Exits : Int → Log → Outcome → Prop
  | noHttp {e} : Exits e [] (.returned .invalidArgument (setStandardResponseHeaders .empty))
  | logout {e log} : matchesLogoutRequest cfg request = true →
      Exits e log (.returned .unauthenticated (setLogoutHeaders cfg .empty))
  | passed {e} : Exits e [] (.returned .ok .empty)
  | forwards {e log outcome} : Forwards lib cfg request e log outcome → Exits e log outcome
  | callback {e s log outcome} : Enters cfg request s true → CallbackExits cfg request .empty s log outcome →
      Exits e log outcome
  | login {e sid st n log} : (∃ e', ⟨.generateSessionId, sid, e'⟩ ∈ log) → Exits e log (.returned .unauthenticated
      (setSessionIdCookie cfg (cStr sid.val)
        (setRedirectHeaders (redirectLocation cfg st n) (setStandardResponseHeaders .empty))))
  | throws {e log exn} : Throws cfg request log → Exits e log (.thrown exn .empty)

/-- How a request ends. -/
inductive Ends : Int → Log → Outcome → Prop
  | forwards {e log outcome} : Forwards lib cfg request e log outcome → Ends e log outcome
  | withoutTokens {e log code response} : (Outcome.returned code response).forwardsTokens = false →
      Ends e log (.returned code response)
  | throws {e log exn response} : Throws cfg request log → Ends e log (.thrown exn response)

variable {lib cfg request} in
theorem Ends.of_forwardsTokens {e : Int} {log : Log} {outcome : Outcome} (h : Ends lib cfg request e log outcome)
    (hf : outcome.forwardsTokens = true) : Forwards lib cfg request e log outcome := by
  cases h with
  | forwards h => exact h
  | withoutTokens hn => simp [hn] at hf
  | throws => cases hf

section Branches
variable {cfg request} {s : Bytes}

/-- The branch of `Process` for an ordinary request of a session. -/
theorem process_eq_processSession (hs : Enters cfg request s false) :
    ∃ http, request.http? = some http ∧ process cfg lib request .empty = processSession cfg lib http .empty s := by
  obtain ⟨http, hh, hc⟩ := Option.bind_eq_some_iff.mp hs.cookie
  have hi := hs.no_header
  simp only [CheckRequest.http, hh, Option.getD_some] at hi
  refine ⟨http, hh, ?_⟩
  simp [process, hh, hs.no_logout, hi, hc, hs.callback_eq]

/-- The branch of `Process` for a callback. -/
theorem process_eq_retrieveToken (hs : Enters cfg request s true) :
    process cfg lib request .empty = retrieveToken cfg lib request .empty s := by
  obtain ⟨http, hh, hc⟩ := Option.bind_eq_some_iff.mp hs.cookie
  have hi := hs.no_header
  simp only [CheckRequest.http, hh, Option.getD_some] at hi
  simp [process, hh, hs.no_logout, hi, hc, hs.callback_eq]

end Branches

section Follows
variable {lib cfg request} {http : HttpRequest} {e : Int}

private theorem redirectToIdp_draws {log : Log} (hh : request.http? = some http)
    (hr : Redirects lib cfg request log) :
    (redirectToIdp cfg .empty http none).Follows (Issues lib cfg request) (Exits lib cfg request) e log := by
  have hhttp : request.http = http := by simp [CheckRequest.http, hh]
  refine ⟨.drawSessionId hr, fun sid e₁ => ⟨.drawState hr, fun st e₂ => ⟨.drawNonce hr, fun n e₃ => ⟨?_, ?_⟩⟩⟩⟩
  · rw [← hhttp]
    exact .beginLogin hr
  · exact fun _ _ => .login ⟨e₁, by simp⟩

private theorem redirectToIdp_discards {s : Bytes} {log : Log} (hh : request.http? = some http)
    (hs : Enters cfg request s false) (hr : Rejects lib cfg request s log) :
    (redirectToIdp cfg .empty http (some s)).Follows (Issues lib cfg request) (Exits lib cfg request) e log :=
  ⟨.discard hs hr, fun _ _ => redirectToIdp_draws hh (.discarded hs hr)⟩

private theorem beforeWriting_post {s : Bytes} {log : Log} (h : ∀ c ∈ log, BeforeWriting s c.op) {q : PostRequest}
    (answer : PostResult) (e : Int) :
    ∀ c ∈ (⟨.post q, answer, e⟩ : Program.Called Int Op.Res) :: log, BeforeWriting s c.op :=
  List.forall_mem_cons.mpr ⟨.post, h⟩

/-- Rule for `RetrieveToken`: it follows a protocol that permits its four calls and has its exits. -/
theorem retrieveToken_follows {s : Bytes} {response : CheckResponse} {issues : Log → Op → Prop}
    {ends : Int → Log → Outcome → Prop}
    (hread : ∀ {state code}, CallbackQuery request state code → issues [] (.getAuthorizationState s))
    (hpost : ∀ {code a e}, CallbackQuery request a.state code →
      issues [⟨.getAuthorizationState s, some a, e⟩] (.post (retrieveTokenRequest cfg code)))
    (hclear : ∀ {code a body e e' t}, CallbackQuery request a.state code →
      TokenResponseParserImpl.parse lib cfg.jwks cfg.clientId a.nonce body e' = some t →
      requiredTokensPresent cfg (some t) = true →
      issues [⟨.post (retrieveTokenRequest cfg code), .response 200 body, e'⟩,
        ⟨.getAuthorizationState s, some a, e⟩] (.clearAuthorizationState s))
    (hsave : ∀ {code a body e e' e'' t}, CallbackQuery request a.state code →
      TokenResponseParserImpl.parse lib cfg.jwks cfg.clientId a.nonce body e' = some t →
      requiredTokensPresent cfg (some t) = true →
      issues [⟨.clearAuthorizationState s, (), e''⟩,
        ⟨.post (retrieveTokenRequest cfg code), .response 200 body, e'⟩,
        ⟨.getAuthorizationState s, some a, e⟩] (.setTokenResponse s t))
    (hends : ∀ {e log outcome}, CallbackExits cfg request response s log outcome → ends e log outcome) :
    (retrieveToken cfg lib request response s).Follows issues ends e [] := by
  unfold retrieveToken
  dsimp only
  split
  · exact hends (.refused (by simp) (by decide) (by decide))
  · rename_i data hd
    split
    · rename_i state code hstate hcode
      have hq : CallbackQuery request state code := ⟨data, hd, hstate, hcode⟩
      rw [Program.perform_bind, Program.follows_call]
      refine ⟨hread hq, fun a e₁ => ?_⟩
      have hlog : ∀ c ∈ [(⟨.getAuthorizationState s, a, e₁⟩ : Program.Called Int Op.Res)], BeforeWriting s c.op := by
        simpa using .read
      cases a with
      | none => exact hends .expired
      | some a =>
        dsimp only
        split
        · exact hends (.refused hlog (by decide) (by decide))
        · rename_i heq
          have heq : state = a.state := by simpa using heq
          subst heq
          rw [Program.perform_bind, Program.follows_call]
          refine ⟨hpost hq, fun answer e₂ => ?_⟩
          have hlog := beforeWriting_post hlog (q := retrieveTokenRequest cfg code) answer e₂
          cases answer with
          | thrown => exact hends (.thrown hq)
          | null => exact hends (.refused hlog (by decide) (by decide))
          | response status body =>
            dsimp only
            split
            · exact hends (.refused hlog (by decide) (by decide))
            · rename_i hst
              have hst : status = 200 := by simpa using hst
              subst hst
              simp only [Program.env_bind, Program.follows_read]
              cases hp : TokenResponseParserImpl.parse lib cfg.jwks cfg.clientId a.nonce body e₂ with
              | none => exact hends (.refused hlog (by decide) (by decide))
              | some t =>
                dsimp only
                split
                · exact hends (.refused hlog (by decide) (by decide))
                · rename_i hmissing
                  have hc : requiredTokensPresent cfg (some t) = true := by
                    cases ha : t.accessToken <;> simp_all [requiredTokensPresent]
                  exact ⟨hclear hq hp hc, fun _ _ => ⟨hsave hq hp hc, fun _ _ => hends (.redirected hlog)⟩⟩
    · exact hends (.refused (by simp) (by decide) (by decide))

/-- Rule for `RefreshToken`, whose result is a function of the answer to its POST. -/
theorem refreshToken_follows {β : Type} {existing : TokenResponse} {token : Bytes} {log : Log}
    {issues : Log → Op → Prop} {ends : Int → Log → β → Prop} {f : Except Exn (Option TokenResponse) → Proc β}
    (hi : issues log (.post (refreshTokenRequest cfg token)))
    (hf : ∀ answer e, (f (refreshResult lib existing answer e)).Follows issues ends e
      (⟨.post (refreshTokenRequest cfg token), answer, e⟩ :: log)) :
    (refreshToken cfg lib existing token >>= f).Follows issues ends e log := by
  unfold refreshToken
  rw [Program.perform_bind, Program.call_bind, Program.follows_call]
  refine ⟨hi, fun answer e => ?_⟩
  have h := hf answer e
  cases answer with
  | thrown => exact h
  | null => exact h
  | response status body =>
    by_cases hst : status = 200
    · subst hst
      exact h
    · rw [refreshResult, if_pos hst] at h
      simpa [hst] using h

private theorem answer_of_error {existing : TokenResponse} {token : Bytes} {answer : PostResult} {exn : Exn}
    (ht : existing.refreshToken = some token) (h : refreshResult lib existing answer e = .error exn) :
    answer = .thrown := by
  cases answer with
  | thrown => rfl
  | null => cases h
  | response status body =>
    simp only [refreshResult] at h
    split at h
    · cases h
    · cases hj : lib.jsonStringToMessage (cStr body) with
      | none => simp [TokenResponseParserImpl.parseRefreshTokenResponse, hj] at h
      | some fields => simp [TokenResponseParserImpl.parseRefreshTokenResponse_of_fields ht hj] at h

private theorem processSession_follows {s : Bytes} (hh : request.http? = some http)
    (hs : Enters cfg request s false) :
    (processSession cfg lib http .empty s).Follows (Issues lib cfg request) (Exits lib cfg request) e [] := by
  unfold processSession
  rw [Program.perform_bind, Program.follows_call]
  refine ⟨.readTokens hs, fun stored e₁ => ?_⟩
  cases hp : requiredTokensPresent cfg stored with
  | false => cases stored <;> exact redirectToIdp_discards hh hs (.incomplete hp)
  | true =>
    cases stored with
    | none => cases hp
    | some t =>
      simp only [Program.env_bind, Program.follows_read]
      cases hx : requiredTokensExpired cfg e₁ t with
      | false => exact .forwards (.stored hs hp hx)
      | true =>
        cases ht : t.refreshToken with
        | none => exact redirectToIdp_discards hh hs (.unrefreshable hx ht)
        | some token =>
          have hr : Refreshes cfg request s t e₁ token := ⟨hs, hp, hx, ht⟩
          refine refreshToken_follows (.refresh hr) fun answer e₂ => ?_
          cases hres : refreshResult lib t answer e₂ with
          | error exn =>
            obtain rfl := answer_of_error ht hres
            exact .throws (.refresh hr)
          | ok refreshed =>
            cases refreshed with
            | none => exact redirectToIdp_discards hh hs (.refreshFailed hr hres)
            | some t' => exact ⟨.saveRefreshed hr hres, fun _ _ => .forwards (.refreshed hr hres)⟩

theorem process_exits (lib : Libraries) (cfg : OIDCConfig) (request : CheckRequest) (e : Int) :
    (process cfg lib request .empty).Follows (Issues lib cfg request) (Exits lib cfg request) e [] := by
  unfold process
  cases hh : request.http? with
  | none => exact .noHttp
  | some http =>
    have hcookie : sessionCookie cfg request = getSessionIdFromCookie cfg http.headers := by
      simp [sessionCookie, hh]
    have hhttp : request.http = http := by simp [CheckRequest.http, hh]
    dsimp only
    rw [← hcookie]
    cases hl : matchesLogoutRequest cfg request with
    | true =>
      cases hc : sessionCookie cfg request with
      | none => exact .logout hl
      | some s => exact ⟨.logout hc hl, fun _ _ => .logout hl⟩
    | false =>
      cases hi : (http.headers.lookup cfg.idToken.header).isSome with
      | true => exact .passed
      | false =>
        cases hc : sessionCookie cfg request with
        | none => exact redirectToIdp_draws hh (.newVisitor hc)
        | some s =>
          cases hm : matchesCallbackRequest cfg request with
          | error what => exact .throws (.callbackUri hc hl (hhttp ▸ hi) hm)
          | ok callback =>
            have hs : Enters cfg request s callback := ⟨hc, hl, hhttp ▸ hi, hm⟩
            cases callback with
            | true =>
              exact retrieveToken_follows (.readState hs) (.exchange hs) (fun hq hp hc => .clear ⟨hs, hq, hp, hc⟩)
                (fun hq hp hc => .save ⟨hs, hq, hp, hc⟩) (.callback hs)
            | false => exact processSession_follows hh hs

private theorem forwardsTokens_of_code {code : Code} {response : CheckResponse} (hc : code ≠ .ok) :
    (Outcome.returned code response).forwardsTokens = false := by
  cases code with
  | ok => exact absurd rfl hc
  | _ => rfl

theorem Exits.ends {log : Log} {outcome : Outcome} (h : Exits lib cfg request e log outcome) :
    Ends lib cfg request e log outcome := by
  cases h with
  | noHttp => exact .withoutTokens rfl
  | logout => exact .withoutTokens rfl
  | passed => exact .withoutTokens rfl
  | forwards hf => exact .forwards hf
  | login => exact .withoutTokens rfl
  | throws ht => exact .throws ht
  | callback hs hc =>
    cases hc with
    | refused _ hok _ => exact .withoutTokens (forwardsTokens_of_code hok)
    | expired => exact .withoutTokens rfl
    | thrown hq => exact .throws (.exchange hs hq)
    | redirected => exact .withoutTokens rfl

/-- `Process` follows the protocol. -/
theorem process_follows (lib : Libraries) (cfg : OIDCConfig) (request : CheckRequest) (e : Int) :
    (process cfg lib request .empty).Follows (Issues lib cfg request) (Ends lib cfg request) e [] :=
  (process_exits lib cfg request e).mono fun _ _ _ h => h.ends

/-- One request processed alone ends as its protocol permits. -/
theorem runProcess_ends (lib : Libraries) (cfg : OIDCConfig) (now : Int) (x : External) (request : CheckRequest)
    (store : InMemorySessionStore) :
    ∃ log, Program.Executes now (Op.exec now x) store log (runProcess lib cfg now x request store).2 ∧
      Ends lib cfg request now log (runProcess lib cfg now x request store).1 :=
  (process_follows lib cfg request now).run rfl

end Follows
end AuthService.Filters.Oidc
