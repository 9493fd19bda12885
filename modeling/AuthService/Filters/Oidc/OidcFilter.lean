import AuthService.Common.Http.Codec
import AuthService.Common.Http.Post
import AuthService.Config.Messages
import AuthService.Envoy
import AuthService.Filters.Oidc.SessionStore
import AuthService.Lib.Program

/-! The OIDC filter. Session-store operations, generator draws and identity-provider POSTs are
the calls of its program; the clock is its environment. -/
namespace AuthService.Filters.Oidc
open Lib Common.Http Config

def isWebSafeBase64 (c : UInt8) : Bool :=
  ('A'.toUInt8 ≤ c && c ≤ 'Z'.toUInt8) || ('a'.toUInt8 ≤ c && c ≤ 'z'.toUInt8) ||
  ('0'.toUInt8 ≤ c && c ≤ '9'.toUInt8) || c == '-'.toUInt8 || c == '_'.toUInt8

/-- What the session string generator returns: web-safe base64 of random bytes. -/
abbrev SessionString := { s : Bytes // s.all isWebSafeBase64 }

inductive Op where
  | getTokenResponse (sessionId : Bytes)
  | setTokenResponse (sessionId : Bytes) (tokenResponse : TokenResponse)
  | getAuthorizationState (sessionId : Bytes)
  | setAuthorizationState (sessionId : Bytes) (authorizationState : AuthorizationState)
  | clearAuthorizationState (sessionId : Bytes)
  | removeSession (sessionId : Bytes)
  | generateSessionId
  | generateState
  | generateNonce
  | post (request : PostRequest)
  deriving DecidableEq

abbrev Op.Res : Op → Type
  | .getTokenResponse _ => Option TokenResponse
  | .setTokenResponse _ _ => Unit
  | .getAuthorizationState _ => Option AuthorizationState
  | .setAuthorizationState _ _ => Unit
  | .clearAuthorizationState _ => Unit
  | .removeSession _ => Unit
  | .generateSessionId => SessionString
  | .generateState => SessionString
  | .generateNonce => SessionString
  | .post _ => PostResult

abbrev Proc := Program Int Op.Res

namespace SessionStore

abbrev getTokenResponse (sessionId : Bytes) : Proc (Option TokenResponse) :=
  Program.perform (Op.getTokenResponse sessionId)
abbrev setTokenResponse (sessionId : Bytes) (t : TokenResponse) : Proc Unit :=
  Program.perform (Op.setTokenResponse sessionId t)
abbrev getAuthorizationState (sessionId : Bytes) : Proc (Option AuthorizationState) :=
  Program.perform (Op.getAuthorizationState sessionId)
abbrev setAuthorizationState (sessionId : Bytes) (a : AuthorizationState) : Proc Unit :=
  Program.perform (Op.setAuthorizationState sessionId a)
abbrev clearAuthorizationState (sessionId : Bytes) : Proc Unit :=
  Program.perform (Op.clearAuthorizationState sessionId)
abbrev removeSession (sessionId : Bytes) : Proc Unit := Program.perform (Op.removeSession sessionId)

end SessionStore

namespace SessionStringGenerator

abbrev generateSessionId : Proc SessionString := Program.perform Op.generateSessionId
abbrev generateState : Proc SessionString := Program.perform Op.generateState
abbrev generateNonce : Proc SessionString := Program.perform Op.generateNonce

end SessionStringGenerator

abbrev post (request : PostRequest) : Proc PostResult := Program.perform (Op.post request)

/-- How `Process` ends: with a code, or by an exception that leaves the response as it is. -/
inductive Outcome where
  | returned (code : Code) (response : CheckResponse)
  | thrown (exn : Exn) (response : CheckResponse)
  deriving DecidableEq, Repr

namespace OidcFilter

def name : Bytes := text "oidc"

/-- Ordered insertion without duplicates, as into a `std::set`. -/
def insertSet (x : Bytes) : List Bytes → List Bytes
  | [] => [x]
  | y :: ys => if x < y then x :: y :: ys else if x = y then y :: ys else y :: insertSet x ys

def setOf (xs : List Bytes) : List Bytes := xs.foldl (fun s x => insertSet x s) []

def setHeader (headers : List HeaderValue) (name value : Bytes) : List HeaderValue :=
  headers ++ [⟨cStr name, cStr value⟩]

/-- The two headers are kept in a map ordered by pointer; their relative order is not specified. -/
def setStandardResponseHeaders (response : CheckResponse) : CheckResponse :=
  response.mutableDeniedResponse fun d =>
    let headers := setHeader d.headers Headers.cacheControl Headers.noCache
    { d with headers := setHeader headers Headers.pragma Headers.noCache }

def setRedirectHeaders (redirectUrl : Bytes) (response : CheckResponse) : CheckResponse :=
  response.mutableDeniedResponse fun d =>
    { d with status := .found, headers := setHeader d.headers Headers.location (cStr redirectUrl) }

def encodeCookieTimeoutDirective (timeout : Int) : Bytes := Headers.maxAge ++ text "=" ++ decimal timeout

def noTimeout : Int := -1

def getCookieDirectives (timeout : Int) : List Bytes :=
  let directives := setOf [Headers.httpOnly, Headers.sameSiteLax, Headers.secure, text "Path=/"]
  if timeout ≠ noTimeout then insertSet (encodeCookieTimeoutDirective timeout) directives else directives

def setCookie (headers : List HeaderValue) (cookieName value : Bytes) (timeout : Int) : List HeaderValue :=
  setHeader headers Headers.setCookie (encodeSetCookie cookieName value (getCookieDirectives timeout))

def deleteCookie (headers : List HeaderValue) (cookieName : Bytes) : List HeaderValue :=
  setCookie headers cookieName (text "deleted") 0

def encodeHeaderValue (preamble value : Bytes) : Bytes :=
  if preamble ≠ [] then preamble ++ text " " ++ value else value

def getRequestUrl (http : HttpRequest) : Bytes :=
  let withoutQuery := text "https" ++ text "://" ++ http.host ++ http.path
  if http.query.isEmpty then withoutQuery else withoutQuery ++ text "?" ++ http.query

def cookieFromHeaders (headers : HeaderMap) (cookie : Bytes) : Option Bytes :=
  match headers.lookup Headers.cookie with
  | none => none
  | some value => (decodeCookies value).bind fun cookies => cookies.lookup cookie

def requestPath (request : CheckRequest) : Bytes := (PathQueryFragment.parse request.http.path).path

def requestQueryString (request : CheckRequest) : Bytes := (PathQueryFragment.parse request.http.path).query

section Configured
variable (cfg : OIDCConfig)

def getCookieName (cookie : Bytes) : Bytes :=
  if cfg.cookieNamePrefix = [] then text "__Host-authservice-" ++ cookie ++ text "-cookie"
  else text "__Host-" ++ cfg.cookieNamePrefix ++ text "-authservice-" ++ cookie ++ text "-cookie"

def getSessionIdCookieName : Bytes := getCookieName cfg (text "session-id")

def getSessionIdFromCookie (headers : HeaderMap) : Option Bytes :=
  cookieFromHeaders headers (getSessionIdCookieName cfg)

def setSessionIdCookie (sessionId : Bytes) (response : CheckResponse) : CheckResponse :=
  response.mutableDeniedResponse fun d =>
    { d with headers := setCookie d.headers (getSessionIdCookieName cfg) sessionId noTimeout }

def setLogoutHeaders (response : CheckResponse) : CheckResponse :=
  (setStandardResponseHeaders (setRedirectHeaders cfg.logout.redirectUri response)).mutableDeniedResponse fun d =>
    { d with headers := deleteCookie d.headers (getSessionIdCookieName cfg) }

def setIdTokenHeader (idToken : Bytes) (response : CheckResponse) : CheckResponse :=
  response.mutableOkResponse fun o =>
    ⟨setHeader o.headers cfg.idToken.header (encodeHeaderValue cfg.idToken.preamble idToken)⟩

def setAccessTokenHeader (accessToken : Bytes) (response : CheckResponse) : CheckResponse :=
  response.mutableOkResponse fun o =>
    ⟨setHeader o.headers cfg.accessToken.header (encodeHeaderValue cfg.accessToken.preamble accessToken)⟩

def addTokensToRequestHeaders (response : CheckResponse) (t : TokenResponse) : CheckResponse :=
  let response := setIdTokenHeader cfg t.idToken.jwt response
  match cfg.hasAccessToken, t.accessToken with
  | true, some accessToken => setAccessTokenHeader cfg accessToken response
  | _, _ => response

def requiredTokensPresent (t : Option TokenResponse) : Bool :=
  t.elim false fun t => !cfg.hasAccessToken || t.accessToken.isSome

def requiredTokensExpired (now : Int) (t : TokenResponse) : Bool :=
  if t.getIDTokenExpiry < now then true
  else cfg.hasAccessToken && t.getAccessTokenExpiry.elim false (· < now)

def matchesLogoutRequest (request : CheckRequest) : Bool :=
  cfg.hasLogout && requestPath request == cfg.logout.path

/-- Parsing the configured URI may throw. -/
def matchesCallbackRequest (request : CheckRequest) : Except Bytes Bool :=
  match Uri.parse cfg.callbackUri with
  | .error what => .error what
  | .ok uri =>
    let hostWithPort := uri.host ++ text ":" ++ decimal uri.port
    let pathMatches := (PathQueryFragment.parse request.http.path).path == uri.pathQueryFragmentString
    let hostMatches := request.http.host == hostWithPort ||
      (uri.scheme == text "https" && uri.port == 443 && request.http.host == uri.host)
    .ok (hostMatches && pathMatches)

def authorizationParams (state nonce : Bytes) : Multimap Bytes Bytes :=
  .ofList [(text "response_type", text "code"),
    (text "scope", (text " ").intercalate (setOf (text "openid" :: cfg.scopes))),
    (text "client_id", cfg.clientId),
    (text "nonce", nonce),
    (text "state", state),
    (text "redirect_uri", cfg.callbackUri)]

def redirectLocation (state nonce : Bytes) : Bytes :=
  cfg.authorizationUri ++ text "?" ++ encodeQueryData (authorizationParams cfg state nonce)

def redirectToIdp (response : CheckResponse) (http : HttpRequest) (oldSessionId : Option Bytes) : Proc Outcome := do
  match oldSessionId with
  | some old => SessionStore.removeSession old
  | none => pure ()
  let sessionId ← SessionStringGenerator.generateSessionId
  let state ← SessionStringGenerator.generateState
  let nonce ← SessionStringGenerator.generateNonce
  let response := setStandardResponseHeaders response
  let response := setRedirectHeaders (redirectLocation cfg state.val nonce.val) response
  SessionStore.setAuthorizationState (cStr sessionId.val)
    (.create state.val nonce.val (getRequestUrl http))
  pure (.returned .unauthenticated (setSessionIdCookie cfg (cStr sessionId.val) response))

def refreshTokenRequest (refreshToken : Bytes) : PostRequest where
  uri := cfg.tokenUri
  headers := [(Headers.contentType, Headers.formUrlEncoded)]
  body := encodeFormData (.ofList [(text "client_id", cfg.clientId),
    (text "client_secret", cfg.clientSecret),
    (text "grant_type", text "refresh_token"),
    (text "refresh_token", refreshToken)])
  caCert := cfg.trustedCertificateAuthority
  proxyUri := cfg.proxyUri

def refreshToken (lib : Libraries) (existing : TokenResponse) (refreshToken : Bytes) :
    Proc (Except Exn (Option TokenResponse)) := do
  match ← post (refreshTokenRequest cfg refreshToken) with
  | .thrown => pure (.error .errorCode)
  | .null => pure (.ok none)
  | .response status body =>
    if status ≠ 200 then pure (.ok none)
    else
      let now ← Program.env
      pure (TokenResponseParserImpl.parseRefreshTokenResponse lib existing body now)

def retrieveTokenRequest (code : Bytes) : PostRequest where
  uri := cfg.tokenUri
  headers := [(Headers.authorization, encodeBasicAuth cfg.clientId cfg.clientSecret),
    (Headers.contentType, Headers.formUrlEncoded)]
  body := encodeFormData (.ofList [(text "code", code),
    (text "redirect_uri", cfg.callbackUri),
    (text "grant_type", text "authorization_code")])
  caCert := cfg.trustedCertificateAuthority
  proxyUri := cfg.proxyUri

/-- The answer to a callback whose authorization state is gone. -/
def sessionExpired (response : CheckResponse) : CheckResponse :=
  response.mutableDeniedResponse fun d =>
    { d with status := .badRequest, body := text "Oops, your session has expired. Please try again." }

def retrieveToken (lib : Libraries) (request : CheckRequest) (response : CheckResponse) (sessionId : Bytes) :
    Proc Outcome := do
  let response := setStandardResponseHeaders response
  match decodeQueryData (requestQueryString request) with
  | none => pure (.returned .invalidArgument response)
  | some queryData =>
    match queryData.find (text "state"), queryData.find (text "code") with
    | some state, some code =>
      match ← SessionStore.getAuthorizationState sessionId with
      | none => pure (.returned .unauthenticated (sessionExpired response))
      | some authorizationState =>
        if state ≠ authorizationState.state then pure (.returned .invalidArgument response)
        else match ← post (retrieveTokenRequest cfg code) with
          | .thrown => pure (.thrown .errorCode response)
          | .null => pure (.returned .internal response)
          | .response status body =>
            if status ≠ 200 then pure (.returned .unknown response)
            else
              let now ← Program.env
              match TokenResponseParserImpl.parse lib cfg.jwks cfg.clientId authorizationState.nonce body now with
              | none => pure (.returned .invalidArgument response)
              | some tokenResponse =>
                if cfg.hasAccessToken && tokenResponse.accessToken.isNone then
                  pure (.returned .invalidArgument response)
                else
                  SessionStore.clearAuthorizationState sessionId
                  SessionStore.setTokenResponse sessionId tokenResponse
                  pure (.returned .unauthenticated (setRedirectHeaders authorizationState.requestedUrl response))
    | _, _ => pure (.returned .invalidArgument response)

/-- The part of `Process` for a request with a session id that is not a callback. -/
def processSession (lib : Libraries) (http : HttpRequest) (response : CheckResponse) (sessionId : Bytes) :
    Proc Outcome := do
  let stored ← SessionStore.getTokenResponse sessionId
  match stored, requiredTokensPresent cfg stored with
  | some tokenResponse, true =>
    let now ← Program.env
    if !requiredTokensExpired cfg now tokenResponse then
      pure (.returned .ok (addTokensToRequestHeaders cfg response tokenResponse))
    else match tokenResponse.refreshToken with
      | none => redirectToIdp cfg response http (some sessionId)
      | some token =>
        match ← refreshToken cfg lib tokenResponse token with
        | .error exn => pure (.thrown exn response)
        | .ok (some refreshed) =>
          SessionStore.setTokenResponse sessionId refreshed
          pure (.returned .ok (addTokensToRequestHeaders cfg response refreshed))
        | .ok none => redirectToIdp cfg response http (some sessionId)
  | _, _ => redirectToIdp cfg response http (some sessionId)

def process (lib : Libraries) (request : CheckRequest) (response : CheckResponse) : Proc Outcome :=
  match request.http? with
  | none => pure (.returned .invalidArgument (setStandardResponseHeaders response))
  | some http =>
    let sessionId? := getSessionIdFromCookie cfg http.headers
    if matchesLogoutRequest cfg request then do
      match sessionId? with
      | some sessionId => SessionStore.removeSession sessionId
      | none => pure ()
      pure (.returned .unauthenticated (setLogoutHeaders cfg response))
    else if (http.headers.lookup cfg.idToken.header).isSome then pure (.returned .ok response)
    else match sessionId? with
      | none => redirectToIdp cfg response http none
      | some sessionId =>
        match matchesCallbackRequest cfg request with
        | .error what => pure (.thrown (.runtimeError what) response)
        | .ok true => retrieveToken cfg lib request response sessionId
        | .ok false => processSession cfg lib http response sessionId

end Configured
end OidcFilter
end AuthService.Filters.Oidc
