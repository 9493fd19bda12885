import AuthService.Filters.Oidc.RoundTrip

/-! A callback that fails: what it leaves in the store, and why it can be tried again. -/
namespace AuthService.Filters.Oidc
open Lib Common.Http Config OidcFilter

/-- The response that an outcome leaves. -/
def Outcome.response : Outcome → CheckResponse
  | .returned _ r => r
  | .thrown _ r => r

variable {lib : Libraries} {cfg : OIDCConfig} {now : Int} {x : External} {request : CheckRequest}
  {response : CheckResponse} {s : Bytes} {store : InMemorySessionStore}

/-- The exit of `RetrieveToken` that has exchanged the code: a redirect. -/
inductive Outcome.IsRedirect : Outcome → Prop
  | intro {r : CheckResponse} {d : DeniedHttpResponse} : r.deniedResponse = some d → d.status = .found →
      IsRedirect (.returned .unauthenticated r)

/-- The exits of `RetrieveToken` that have not. -/
inductive CallbackFailure (response : CheckResponse) : Outcome → Prop
  | refused {code : Code} : CallbackFailure response (.returned code (setStandardResponseHeaders response))
  | expired : CallbackFailure response
      (.returned .unauthenticated (sessionExpired (setStandardResponseHeaders response)))
  | thrown {exn : Exn} : CallbackFailure response (.thrown exn (setStandardResponseHeaders response))

theorem CallbackFailure.okResponse {outcome : Outcome} (h : CallbackFailure response outcome) :
    outcome.response.okResponse = none := by
  cases h <;> rfl

/-- A store before and after, when nothing but the access time of one session may have changed. -/
structure OnlyAccessed (s : Bytes) (store store' : InMemorySessionStore) : Prop where
  keys : ∀ key, store'.HasKey key ↔ store.HasKey key
  others : ∀ key, key ≠ cStr s → store'.entry key = store.entry key
  session : ∀ session, store.entry (cStr s) = some session → ∃ session', store'.entry (cStr s) = some session' ∧
    session'.tokenResponse = session.tokenResponse ∧ session'.authorizationState = session.authorizationState ∧
    session'.timeAdded = session.timeAdded

namespace OnlyAccessed
variable {store' : InMemorySessionStore}

theorem refl (s : Bytes) (store : InMemorySessionStore) : OnlyAccessed s store store :=
  ⟨fun _ => Iff.rfl, fun _ _ => rfl, fun session h => ⟨session, h, rfl, rfl, rfl⟩⟩

/-- Reading the authorization state of the session once more. -/
theorem getAuthorizationState (h : OnlyAccessed s store store') (now : Int) :
    OnlyAccessed s store (store'.getAuthorizationState now s).2 where
  keys key := by
    rw [← h.keys key, InMemorySessionStore.HasKey, InMemorySessionStore.HasKey,
      InMemorySessionStore.entry_getAuthorizationState]
    split <;> simp
  others key hk := by rw [InMemorySessionStore.entry_getAuthorizationState, if_neg hk, h.others key hk]
  session session hs := by
    obtain ⟨session', hs', htokens, hstate, hadded⟩ := h.session session hs
    refine ⟨session'.setTimeMostRecentlyAccessed now, ?_, htokens, hstate, hadded⟩
    rw [InMemorySessionStore.entry_getAuthorizationState, if_pos rfl, hs', Option.map_some]

theorem pending (h : OnlyAccessed s store store') {a : AuthorizationState} (ha : store.pending (cStr s) = some a) :
    store'.pending (cStr s) = some a := by
  obtain ⟨session, hs, ha⟩ := Option.bind_eq_some_iff.mp ha
  obtain ⟨session', hs', -, hstate, -⟩ := h.session session hs
  exact Option.bind_eq_some_iff.mpr ⟨session', hs', hstate.trans ha⟩

end OnlyAccessed

private theorem onlyAccessed_of_executes {log : Log} {store' : InMemorySessionStore}
    (h : Program.Executes now (Op.exec now x) store log store') (hlog : ∀ c ∈ log, BeforeWriting s c.op) :
    OnlyAccessed s store store' := by
  induction log generalizing store' with
  | nil =>
    rw [Program.executes_nil] at h
    exact h ▸ .refl s store
  | cons c log ih =>
    obtain ⟨store₁, hx, -, -, rfl⟩ := h
    obtain ⟨hc, hlog⟩ := List.forall_mem_cons.mp hlog
    have hbefore := ih hx hlog
    obtain ⟨o, res, e⟩ := c
    cases hc with
    | read => exact hbefore.getAuthorizationState now
    | post => exact hbefore

/-- A redirect, or a failure before the first write. -/
private def Attempted (response : CheckResponse) (s : Bytes) (_ : Int) (log : Log) (outcome : Outcome) : Prop :=
  outcome.IsRedirect ∨ CallbackFailure response outcome ∧ ∀ c ∈ log, BeforeWriting s c.op

private theorem retrieveToken_attempts (e : Int) :
    (retrieveToken cfg lib request response s).Follows (fun _ _ => True) (Attempted response s) e [] := by
  refine retrieveToken_follows (fun _ => trivial) (fun _ => trivial) (fun _ _ _ => trivial) (fun _ _ _ => trivial) ?_
  intro e log outcome h
  cases h with
  | refused hlog => exact .inr ⟨.refused, hlog⟩
  | expired => exact .inr ⟨.expired, by simpa using .read⟩
  | thrown => exact .inr ⟨.thrown, by simpa using ⟨.post, .read⟩⟩
  | redirected => exact .inl (.intro rfl rfl)

/-- What is left after a failed callback: only the session's access time has changed, nothing is allowed, and a
later callback with the stored state and an acceptable reply for the stored nonce is redirected and saves its tokens,
also after requests of other sessions. -/
structure CallbackUnspent (lib : Libraries) (cfg : OIDCConfig) (s : Bytes) (store : InMemorySessionStore)
    (outcome : Outcome) (store' : InMemorySessionStore) : Prop where
  accessed : OnlyAccessed s store store'
  noOk : outcome.response.okResponse = none
  retry : ∀ a, store.pending (cStr s) = some a →
    ∀ (others : List Visit) (now : Int) (x : External) (request : CheckRequest) (response : CheckResponse)
      (code body : Bytes) (t : TokenResponse),
      (∀ v ∈ others, v.Elsewhere cfg (cStr s)) → CallbackQuery request a.state code →
      x.idp (retrieveTokenRequest cfg code) = .response 200 body →
      TokenResponseParserImpl.parse lib cfg.jwks cfg.clientId a.nonce body now = some t →
      requiredTokensPresent cfg (some t) = true →
      let again := (retrieveToken cfg lib request response s).run now (Op.exec now x) (processAll lib cfg others store')
      again.1 = .returned .unauthenticated
        (setRedirectHeaders a.requestedUrl (setStandardResponseHeaders response)) ∧
        again.1.IsRedirect ∧ again.2.tokens (cStr s) = some t

/-- Failed callbacks are atomic. -/
theorem failed_callback_unspent (lib : Libraries) (cfg : OIDCConfig) (now : Int) (x : External)
    (request : CheckRequest) (response : CheckResponse) (s : Bytes) (store : InMemorySessionStore)
    (hf : ¬ ((retrieveToken cfg lib request response s).run now (Op.exec now x) store).1.IsRedirect) :
    CallbackUnspent lib cfg s store ((retrieveToken cfg lib request response s).run now (Op.exec now x) store).1
      ((retrieveToken cfg lib request response s).run now (Op.exec now x) store).2 := by
  have hfollows : (retrieveToken cfg lib request response s).Follows (fun _ _ => True) (Attempted response s)
      now [] := retrieveToken_attempts now
  obtain ⟨log, hexec, hend⟩ : ∃ log, Program.Executes now (Op.exec now x) store log _ ∧
      Attempted response s now log _ := hfollows.run rfl
  obtain ⟨hfailure, hlog⟩ := hend.resolve_left hf
  have haccessed := onlyAccessed_of_executes hexec hlog
  refine ⟨haccessed, ?_, ?_⟩
  · exact hfailure.okResponse
  · intro a ha others now' x' request' response' code body t ho hq hidp hparse hcomplete
    have hpending := haccessed.pending ha
    rw [InMemorySessionStore.pending, ← entry_processAll ho] at hpending
    obtain ⟨houtcome, htokens⟩ := retrieveToken_succeeds response' hpending hq hidp hparse hcomplete
    refine ⟨houtcome, ?_, htokens⟩
    rw [houtcome]
    exact .intro rfl rfl

private def begunAuthorization : AuthorizationState :=
  ⟨text "some-state", text "random", text "https://example.com/summary"⟩

private def begunStore : InMemorySessionStore :=
  (InMemorySessionStore.create 0 0).setAuthorizationState 1901001001 (text "session123") begunAuthorization

/-- The callback of the sample login when the identity provider cannot be reached. -/
private def unreached : Outcome × InMemorySessionStore :=
  (retrieveToken sampleConfig sampleLibraries callback.request .empty (text "session123")).run 1901001002
    (Op.exec 1901001002 (answering .null)) begunStore

private theorem unreached_fst : unreached.1 = .returned .internal (setStandardResponseHeaders .empty) := by
  decide +kernel

private theorem unreached_failed : ¬ unreached.1.IsRedirect := by
  rw [unreached_fst]
  intro h
  cases h

private theorem loginReply_parses : TokenResponseParserImpl.parse sampleLibraries sampleConfig.jwks
    sampleConfig.clientId begunAuthorization.nonce loginReply 1901001003 =
      some ⟨sampleJwt, text "access_token_value", text "refresh_token_value", 1901004598⟩ := by
  decide +kernel

private theorem begunStore_pending : begunStore.pending (cStr (text "session123")) = some begunAuthorization := by
  decide +kernel

private theorem callback_query : CallbackQuery callback.request begunAuthorization.state (text "value") :=
  ⟨.ofList [(text "code", text "value"), (text "state", text "some-state")],
    by decide +kernel, by decide +kernel, by decide +kernel⟩

/-- The connection fails at first; the same callback succeeds a second later. -/
theorem failed_callback_tried_again :
    unreached.1 = .returned .internal (setStandardResponseHeaders .empty) ∧
      ((retrieveToken sampleConfig sampleLibraries callback.request .empty (text "session123")).run 1901001003
        (Op.exec 1901001003 (answering (.response 200 loginReply))) unreached.2).1.IsRedirect := by
  have hunspent : CallbackUnspent sampleLibraries sampleConfig (text "session123") begunStore unreached.1
      unreached.2 :=
    failed_callback_unspent _ _ _ _ _ _ _ _ unreached_failed
  obtain ⟨-, hredirect, -⟩ := hunspent.retry begunAuthorization begunStore_pending [] 1901001003
    (answering (.response 200 loginReply)) callback.request .empty (text "value") loginReply _ (by simp)
    callback_query rfl loginReply_parses (by decide)
  exact ⟨unreached_fst, hredirect⟩

end AuthService.Filters.Oidc
