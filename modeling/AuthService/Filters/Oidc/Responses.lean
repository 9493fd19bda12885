import AuthService.Filters.Oidc.Exceptions
import AuthService.Filters.Oidc.Isolation

/-! The responses with which requests end: their status and their headers, exit by exit. -/
namespace AuthService.Filters.Oidc
open Lib Common.Http Config OidcFilter

/-- The headers of one name. -/
def namedHeaders (name : Bytes) (headers : List HeaderValue) : List HeaderValue := headers.filter (·.key = name)

/-- A denial that is not cached, redirects exactly when its status says so, and sets at most one cookie. -/
structure WellFormedDenial (d : DeniedHttpResponse) : Prop where
  cacheControl : namedHeaders Headers.cacheControl d.headers = [⟨Headers.cacheControl, Headers.noCache⟩]
  pragma : namedHeaders Headers.pragma d.headers = [⟨Headers.pragma, Headers.noCache⟩]
  setCookie : (namedHeaders Headers.setCookie d.headers).length ≤ 1
  location : (namedHeaders Headers.location d.headers).length = if d.status = .found then 1 else 0

/-- The responses with which `Process` is to end; `cookie` says whether the exit sets one. An exception, too, is to
leave a denial behind. -/
inductive Answered (cookie : Prop) : Outcome → Prop
  | allowed {r : CheckResponse} : r.deniedResponse = none → Answered cookie (.returned .ok r)
  | denied {code : Code} {r : CheckResponse} {d : DeniedHttpResponse} : code ≠ .ok → r.okResponse = none →
      r.deniedResponse = some d → WellFormedDenial d →
      (code = .unauthenticated → (d.status = .found ∨ d.status = .badRequest) ∧
        (namedHeaders Headers.setCookie d.headers ≠ [] ↔ cookie)) → Answered cookie (.returned code r)
  | thrown {exn : Exn} {r : CheckResponse} {d : DeniedHttpResponse} : r.okResponse = none →
      r.deniedResponse = some d → WellFormedDenial d → Answered cookie (.thrown exn r)

section Shapes
variable {cookie : Prop}

private def standardHeaders : List HeaderValue :=
  [⟨Headers.cacheControl, Headers.noCache⟩, ⟨Headers.pragma, Headers.noCache⟩]

private theorem wellFormed_standard {status : StatusCode} (hs : status ≠ .found) (body : Bytes) :
    WellFormedDenial ⟨status, standardHeaders, body⟩ :=
  ⟨rfl, rfl, Nat.zero_le _, by rw [if_neg hs]; rfl⟩

private theorem answered_refused {code : Code} (hok : code ≠ .ok) (hu : code ≠ .unauthenticated) :
    Answered cookie (.returned code (setStandardResponseHeaders .empty)) :=
  .denied hok rfl rfl (wellFormed_standard (by decide) []) fun h => absurd h hu

private theorem answered_expired (hc : ¬ cookie) :
    Answered cookie (.returned .unauthenticated (sessionExpired (setStandardResponseHeaders .empty))) :=
  .denied (by decide) rfl rfl (wellFormed_standard (by decide) _)
    fun _ => ⟨.inr rfl, iff_of_false (fun h => h rfl) hc⟩

private theorem answered_redirect (url : Bytes) (hc : ¬ cookie) :
    Answered cookie (.returned .unauthenticated (setRedirectHeaders url (setStandardResponseHeaders .empty))) :=
  .denied (by decide) rfl rfl ⟨rfl, rfl, Nat.zero_le _, rfl⟩ fun _ => ⟨.inl rfl, iff_of_false (fun h => h rfl) hc⟩

private theorem answered_login (cfg : OIDCConfig) (url sessionId : Bytes) (hc : cookie) :
    Answered cookie (.returned .unauthenticated
      (setSessionIdCookie cfg sessionId (setRedirectHeaders url (setStandardResponseHeaders .empty)))) :=
  .denied (by decide) rfl rfl ⟨rfl, rfl, Nat.le_refl _, rfl⟩
    fun _ => ⟨.inl rfl, iff_of_true (List.cons_ne_nil _ _) hc⟩

private theorem answered_logout (cfg : OIDCConfig) (hc : cookie) :
    Answered cookie (.returned .unauthenticated (setLogoutHeaders cfg .empty)) :=
  .denied (by decide) rfl rfl ⟨rfl, rfl, Nat.le_refl _, rfl⟩
    fun _ => ⟨.inl rfl, iff_of_true (List.cons_ne_nil _ _) hc⟩

private theorem answered_tokens (cfg : OIDCConfig) (t : TokenResponse) :
    Answered cookie (.returned .ok (addTokensToRequestHeaders cfg .empty t)) := by
  refine .allowed ?_
  unfold addTokensToRequestHeaders
  dsimp only
  split <;> rfl

end Shapes

section Exits
variable {lib : Libraries} {cfg : OIDCConfig} {request : CheckRequest} {e : Int} {log : Log} {outcome : Outcome}

/-- The exits that set a cookie: logouts, and redirects to the identity provider, which draw a session id. -/
private def SetsCookie (cfg : OIDCConfig) (request : CheckRequest) (log : Log) : Prop :=
  matchesLogoutRequest cfg request = true ∨ ∃ c ∈ log, c.op = .generateSessionId

private theorem not_setsCookie {s : Bytes} (hs : Enters cfg request s true)
    (hlog : ∀ c ∈ log, c.op ≠ .generateSessionId) : ¬ SetsCookie cfg request log := by
  rintro (hlogout | ⟨c, hc, ho⟩)
  · rw [hs.no_logout] at hlogout
    cases hlogout
  · exact hlog c hc ho

private theorem ne_generateSessionId {s : Bytes} {o : Op} (h : BeforeWriting s o) : o ≠ .generateSessionId := by
  cases h <;> exact Op.noConfusion

private theorem answered_of_callback {s : Bytes} (hs : Enters cfg request s true)
    (h : CallbackExits cfg request .empty s log outcome) : Answered (SetsCookie cfg request log) outcome := by
  cases h with
  | refused _ hok hu => exact answered_refused hok hu
  | expired => exact answered_expired (not_setsCookie hs (by simp))
  | thrown => exact .thrown rfl rfl (wellFormed_standard (by decide) [])
  | redirected hlog =>
    refine answered_redirect _ (not_setsCookie hs ?_)
    simpa using fun c hc => ne_generateSessionId (hlog c hc)

private theorem answered_of_exits (h : Exits lib cfg request e log outcome) (hn : ∀ exn, outcome ≠ .thrown exn .empty) :
    Answered (SetsCookie cfg request log) outcome := by
  cases h with
  | noHttp => exact answered_refused (by decide) (by decide)
  | logout hl => exact answered_logout cfg (.inl hl)
  | passed => exact .allowed rfl
  | callback hs hc => exact answered_of_callback hs hc
  | @throws _ exn _ => exact absurd rfl (hn exn)
  | login hd =>
    obtain ⟨e', hd⟩ := hd
    exact answered_login cfg _ _ (.inr ⟨_, hd, rfl⟩)
  | forwards hf =>
    cases hf with
    | stored => exact answered_tokens cfg _
    | refreshed => exact answered_tokens cfg _

end Exits

section Runs
variable {lib : Libraries} {cfg : OIDCConfig} {now : Int} {x : External} {request : CheckRequest}
  {store : InMemorySessionStore}

private theorem draws_iff :
    (∃ c ∈ (process cfg lib request .empty).calls now (Op.exec now x) store [], c.op = .generateSessionId) ↔
      Draws lib cfg now x request store := by
  constructor
  · rintro ⟨⟨o, res, env⟩, hc, rfl⟩
    rcases Program.result_of_mem_calls hc with hc' | ⟨s', hres, henv⟩
    · cases hc'
    · obtain rfl : res = x.sessionId := hres
      obtain rfl : env = now := henv
      exact hc
  · exact fun hd => ⟨_, hd, rfl⟩

private theorem unanswered_of_empty {exn : Exn} (h : (runProcess lib cfg now x request store).1 = .thrown exn .empty) :
    Unanswered cfg now x request store := by
  rcases unanswered_of_thrown h with hn | hn
  · exact hn
  · have hresponse := (Outcome.thrown.inj ((run_of_exchangeThrows lib hn).symm.trans h)).2
    have hdenied := congrArg CheckResponse.deniedResponse hresponse
    cases hdenied

private theorem answered_of_not_unanswered (hn : ¬ Unanswered cfg now x request store) :
    Answered (matchesLogoutRequest cfg request = true ∨ Draws lib cfg now x request store)
      (runProcess lib cfg now x request store).1 := by
  have hends : Answered
      (SetsCookie cfg request ((process cfg lib request .empty).calls now (Op.exec now x) store []))
      (runProcess lib cfg now x request store).1 :=
    answered_of_exits (process_exits lib cfg request now).run_ends fun exn h => hn (unanswered_of_empty h)
  unfold SetsCookie at hends
  rwa [draws_iff] at hends

/-- An exit leaves a well-formed response, with a cookie when it is a logout or a redirect to the identity provider,
exactly when no exception comes before a response has been prepared. The exceptions that leave `Process` are these
and that of a code exchange, which finds a denial prepared. -/
theorem responses_well_formed_iff (lib : Libraries) (cfg : OIDCConfig) (now : Int) (x : External)
    (request : CheckRequest) (store : InMemorySessionStore) :
    (Answered (matchesLogoutRequest cfg request = true ∨ Draws lib cfg now x request store)
      (runProcess lib cfg now x request store).1 ↔ ¬ Unanswered cfg now x request store) ∧
    ((∃ exn response, (runProcess lib cfg now x request store).1 = .thrown exn response) ↔
      Unanswered cfg now x request store ∨ ExchangeThrows cfg x request store) := by
  refine ⟨⟨fun ha hn => ?_, answered_of_not_unanswered⟩, fun ⟨exn, response, h⟩ => unanswered_of_thrown h, ?_⟩
  · obtain ⟨exn, hrun⟩ := run_of_unanswered lib hn
    rw [hrun] at ha
    cases ha with
    | thrown _ hd _ => cases hd
  · rintro (hn | hn)
    · obtain ⟨exn, hrun⟩ := run_of_unanswered lib hn
      exact ⟨exn, .empty, hrun⟩
    · exact ⟨_, _, run_of_exchangeThrows lib hn⟩

end Runs

section Sample

/-- The session of `sampleCookie`, with a refresh token. -/
private def refreshableStore : InMemorySessionStore :=
  (InMemorySessionStore.create 0 0).setTokenResponse 1901001001 (text "session123")
    ⟨sampleJwt, text "access_token_value", text "refresh_token_value", 1901004596⟩

private def schemelessConfig : OIDCConfig := { sampleConfig with callbackUri := text "me.tld/callback" }

/-- A refresh whose POST throws leaves no response, and neither does a callback URI that does not parse. -/
theorem thrown_leaves_nothing :
    ¬ Answered (matchesLogoutRequest sampleConfig (visit [sampleCookie]).request = true ∨
        Draws sampleLibraries sampleConfig 2001001002 (answering .thrown) (visit [sampleCookie]).request
          refreshableStore)
      (runProcess sampleLibraries sampleConfig 2001001002 (answering .thrown) (visit [sampleCookie]).request
        refreshableStore).1 ∧
    ¬ Answered (matchesLogoutRequest schemelessConfig (visit [sampleCookie]).request = true ∨
        Draws sampleLibraries schemelessConfig 1901001002 (answering .null) (visit [sampleCookie]).request
          (.create 0 0))
      (runProcess sampleLibraries schemelessConfig 1901001002 (answering .null) (visit [sampleCookie]).request
        (.create 0 0)).1 := by
  have hempty {cookie : Prop} {exn : Exn} : ¬ Answered cookie (.thrown exn .empty) := by
    rintro (_ | _ | ⟨_, hd, _⟩)
    cases hd
  have hrefresh : (runProcess sampleLibraries sampleConfig 2001001002 (answering .thrown) (visit [sampleCookie]).request
      refreshableStore).1 = .thrown .errorCode .empty := by decide +kernel
  have hcallback : (runProcess sampleLibraries schemelessConfig 1901001002 (answering .null)
      (visit [sampleCookie]).request (.create 0 0)).1 =
      .thrown (.runtimeError (text "uri must be http or https scheme: me.tld/callback")) .empty := by decide +kernel
  rw [hrefresh, hcallback]
  exact ⟨hempty, hempty⟩

end Sample
end AuthService.Filters.Oidc
