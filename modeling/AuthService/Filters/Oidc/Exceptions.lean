import AuthService.Filters.Oidc.Protocol

/-! The exceptions that leave `Process`: that of a callback URI that does not parse, and those of its one POST. -/
namespace AuthService.Filters.Oidc
open Lib Common.Http Config OidcFilter

/-- What makes `Process` throw before it has prepared a response: a request of a session comes to the callback test
and the callback URI does not parse, or the POST of a refresh throws. -/
inductive Unanswered (cfg : OIDCConfig) (now : Int) (x : External) (request : CheckRequest)
    (store : InMemorySessionStore) : Prop
  | callbackUri {s what} : sessionCookie cfg request = some s → matchesLogoutRequest cfg request = false →
      (request.http.headers.lookup cfg.idToken.header).isSome = false → Uri.parse cfg.callbackUri = .error what →
      Unanswered cfg now x request store
  | refresh {s t token} : Refreshes cfg request s t now token → store.tokens (cStr s) = some t →
      x.idp (refreshTokenRequest cfg token) = .thrown → Unanswered cfg now x request store

/-- The POST of a code exchange throws, when a denial has been prepared. -/
inductive ExchangeThrows (cfg : OIDCConfig) (x : External) (request : CheckRequest) (store : InMemorySessionStore) :
    Prop
  | exchange {s code a} : Enters cfg request s true → CallbackQuery request a.state code →
      store.pending (cStr s) = some a → x.idp (retrieveTokenRequest cfg code) = .thrown →
      ExchangeThrows cfg x request store

/-- Requests that make `Process` call the token endpoint: callbacks that present the stored state,
and requests whose stored tokens have to be refreshed. -/
inductive Posts (cfg : OIDCConfig) (now : Int) (request : CheckRequest) (store : InMemorySessionStore) : Prop
  | exchange {s code a} : Enters cfg request s true → CallbackQuery request a.state code →
      store.pending (cStr s) = some a → Posts cfg now request store
  | refresh {s t token} : Refreshes cfg request s t now token → store.tokens (cStr s) = some t →
      Posts cfg now request store

/-- A POST to the token endpoint throws: the trusted authority is usable and the server name is
refused. -/
structure PostRefused (network : Network) (cfg : OIDCConfig) : Prop where
  authority : cfg.trustedCertificateAuthority.isEmpty ∨ network.addCertificateAuthority cfg.trustedCertificateAuthority
  name : ∃ target, Uri.parse cfg.tokenUri = .ok target ∧ network.setTlsextHostName (cStr target.host) = false

variable {lib : Libraries} {cfg : OIDCConfig} {now : Int} {x : External} {request : CheckRequest}
  {store : InMemorySessionStore} {network : Network}

private theorem postRefused_iff {q : PostRequest} (hu : q.uri = cfg.tokenUri)
    (hc : q.caCert = cfg.trustedCertificateAuthority) :
    HttpImpl.post network q = .thrown ↔ PostRefused network cfg := by
  rw [HttpImpl.post_thrown_iff, hu, hc]
  exact ⟨fun ⟨ha, hn⟩ => ⟨ha, hn⟩, fun h => ⟨h.authority, h.name⟩⟩

theorem parse_of_matchesCallbackRequest {what : Bytes} (h : matchesCallbackRequest cfg request = .error what) :
    Uri.parse cfg.callbackUri = .error what := by
  unfold matchesCallbackRequest at h
  split at h
  · rename_i what' hu
    obtain rfl : what' = what := by simpa using h
    exact hu
  · cases h

theorem run_of_unanswered (lib : Libraries) (hn : Unanswered cfg now x request store) :
    ∃ exn, (runProcess lib cfg now x request store).1 = .thrown exn .empty := by
  cases hn with
  | @callbackUri s what hs hl hi hu =>
    obtain ⟨http, hh, hc⟩ := Option.bind_eq_some_iff.mp hs
    simp only [CheckRequest.http, hh, Option.getD_some] at hi
    refine ⟨.runtimeError what, ?_⟩
    simp [runProcess, process, hh, hl, hi, hc, matchesCallbackRequest, hu]
  | @refresh s t token hr ht hpost =>
    obtain ⟨http, _, hprocess⟩ := process_eq_processSession lib hr.enters
    refine ⟨.errorCode, ?_⟩
    unfold runProcess
    rw [hprocess, processSession, Program.perform_bind, Program.run_call, Op.exec_getTokenResponse, ht]
    simp [hr.complete, hr.expired, hr.token, refreshToken, Op.exec, hpost]

theorem run_of_exchangeThrows (lib : Libraries) (hn : ExchangeThrows cfg x request store) :
    (runProcess lib cfg now x request store).1 = .thrown .errorCode (setStandardResponseHeaders .empty) := by
  cases hn with
  | @exchange s code a hs hq ha hpost =>
    obtain ⟨data, hd, hstate, hcode⟩ := hq.decodes
    unfold runProcess
    rw [process_eq_retrieveToken lib hs]
    simp only [retrieveToken, hd, hstate, hcode]
    rw [Program.perform_bind, Program.run_call, Op.exec_getAuthorizationState, ha]
    simp [Op.exec, hpost]

theorem unanswered_of_thrown {exn : Exn} {response : CheckResponse}
    (h : (runProcess lib cfg now x request store).1 = .thrown exn response) :
    Unanswered cfg now x request store ∨ ExchangeThrows cfg x request store := by
  obtain ⟨log, hexec, hends⟩ := runProcess_ends lib cfg now x request store
  rw [h] at hends
  cases hends with
  | forwards hf => cases hf
  | throws ht =>
    cases ht with
    | callbackUri hs hl hi hm => exact .inl (.callbackUri hs hl hi (parse_of_matchesCallbackRequest hm))
    | exchange hs hq =>
      simp only [Program.executes_cons, Program.executes_nil] at hexec
      obtain ⟨_, ⟨_, rfl, ha, rfl, rfl⟩, hp, _⟩ := hexec
      rw [Op.exec_getAuthorizationState] at ha
      exact .inr (.exchange hs hq ha.symm hp.symm)
    | refresh hr =>
      simp only [Program.executes_cons, Program.executes_nil] at hexec
      obtain ⟨_, ⟨_, rfl, ht, rfl, rfl⟩, hp, _⟩ := hexec
      rw [Op.exec_getTokenResponse] at ht
      exact .inl (.refresh hr ht.symm hp.symm)

/-- With a callback URI that parses and the POST of a network, an exception is that of a refused POST. -/
theorem posts_of_thrown {exn : Exn} {response : CheckResponse} (hx : x.idp = HttpImpl.post network)
    (hu : ∀ what, matchesCallbackRequest cfg request ≠ .error what)
    (h : (runProcess lib cfg now x request store).1 = .thrown exn response) :
    Posts cfg now request store ∧ PostRefused network cfg := by
  rcases unanswered_of_thrown h with hn | hn
  · cases hn with
    | callbackUri _ _ _ hc => exact absurd (by rw [matchesCallbackRequest, hc]) (hu _)
    | refresh hr ht hp => exact ⟨.refresh hr ht, (postRefused_iff rfl rfl).mp ((congrFun hx _).symm.trans hp)⟩
  · cases hn with
    | exchange hs hq ha hp => exact ⟨.exchange hs hq ha, (postRefused_iff rfl rfl).mp ((congrFun hx _).symm.trans hp)⟩

/-- The exception leaves a response without a status. -/
theorem thrown_of_posts (lib : Libraries) (hx : x.idp = HttpImpl.post network) (hp : Posts cfg now request store)
    (hr : PostRefused network cfg) :
    ∃ exn response, (runProcess lib cfg now x request store).1 = .thrown exn response ∧ response.statusCode = 0 := by
  have hpost {q : PostRequest} (hu : q.uri = cfg.tokenUri) (hc : q.caCert = cfg.trustedCertificateAuthority) :
      x.idp q = .thrown := by
    rw [hx]
    exact (postRefused_iff hu hc).mpr hr
  cases hp with
  | exchange hs hq ha => exact ⟨_, _, run_of_exchangeThrows lib (.exchange hs hq ha (hpost rfl rfl)), rfl⟩
  | refresh hr' ht =>
    obtain ⟨exn, hrun⟩ := run_of_unanswered lib (.refresh hr' ht (hpost rfl rfl))
    exact ⟨exn, _, hrun, rfl⟩

end AuthService.Filters.Oidc
