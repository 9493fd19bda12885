import AuthService.Filters.Oidc.Runs

/-! Where sessions come from: every stored session was begun by a redirect, and every stored
token response by a callback that answered that redirect. -/
namespace AuthService.Filters.Oidc
open Lib Common.Http Config OidcFilter

theorem nulFree_sessionString (s : SessionString) : NulFree s.val := by
  intro h
  have hs := List.all_eq_true.mp s.property 0 h
  revert hs
  decide

@[simp] theorem cStr_sessionString (s : SessionString) : cStr s.val = s.val :=
  cStr_of_nulFree (nulFree_sessionString s)

/-- Header values as HTTP allows them. -/
def NulFreeHeaders (request : CheckRequest) : Prop := ∀ header ∈ request.http.headers, NulFree header.2

instance : DecidablePred NulFreeHeaders :=
  fun request => inferInstanceAs (Decidable (∀ header ∈ request.http.headers, NulFree header.2))

theorem nulFree_sessionCookie {cfg : OIDCConfig} {request : CheckRequest} {s : Bytes} (hn : NulFreeHeaders request)
    (hs : sessionCookie cfg request = some s) : NulFree s := by
  obtain ⟨http, hh, hc⟩ := Option.bind_eq_some_iff.mp hs
  unfold getSessionIdFromCookie cookieFromHeaders at hc
  split at hc
  · cases hc
  · rename_i value hv
    obtain ⟨l₁, l₂, he, _⟩ := List.lookup_eq_some_iff.mp hv
    have hval : NulFree value := by
      refine hn (Headers.cookie, value) ?_
      simp [CheckRequest.http, hh, he]
    exact fun hz => hval (decodeCookies_subset hc hz)

section Login
variable {C : Type}

/-- A login begun by a redirect: the three strings one request drew and stored. -/
structure Login (C : Type) where
  thread : Nat
  job : Job C
  sessionId : SessionString
  state : SessionString
  nonce : SessionString
  sessionIdAt : Int
  stateAt : Int
  nonceAt : Int
  storedAt : Int

namespace Login

def authorizationState (l : Login C) : AuthorizationState :=
  .create l.state.val l.nonce.val (getRequestUrl l.job.request.http)

def events (l : Login C) : History C :=
  [.call l.thread l.job (.setAuthorizationState (cStr l.sessionId.val) l.authorizationState) () l.storedAt,
    .call l.thread l.job .generateNonce l.nonce l.nonceAt,
    .call l.thread l.job .generateState l.state l.stateAt,
    .call l.thread l.job .generateSessionId l.sessionId l.sessionIdAt]

/-- The login happened, in this chain and under this session id. -/
structure Begun (l : Login C) (h : History C) (c : C) (key : Bytes) : Prop where
  chain : l.job.chain = c
  sessionId : l.sessionId.val = key
  events : l.events.Sublist h

end Login

/-- A callback that answers a login: its reading of the authorization state and its POST. -/
structure Callback (C : Type) where
  login : Login C
  thread : Nat
  job : Job C
  sessionId : Bytes
  code : Bytes
  body : Bytes
  readAt : Int
  answeredAt : Int

namespace Callback

def events (cfg : C → OIDCConfig) (b : Callback C) : History C :=
  .call b.thread b.job (.post (retrieveTokenRequest (cfg b.job.chain) b.code)) (.response 200 b.body) b.answeredAt ::
    .call b.thread b.job (.getAuthorizationState b.sessionId) (some b.login.authorizationState) b.readAt ::
      b.login.events

/-- The callback happened after its login, in this chain, and its reply was accepted for the
login's state and nonce. -/
structure Accepted (lib : Libraries) (cfg : C → OIDCConfig) (b : Callback C) (h : History C) (c : C) (key : Bytes) :
    Prop where
  chain : b.job.chain = c
  loginChain : b.login.job.chain = c
  sessionId : b.login.sessionId.val = key
  cookie : cStr b.sessionId = key
  exchanged : ∃ t, Exchanged lib (cfg c) b.job.request b.sessionId b.code b.login.authorizationState b.body
    b.answeredAt t
  events : (b.events cfg).Sublist h

theorem Accepted.begun {lib : Libraries} {cfg : C → OIDCConfig} {b : Callback C} {h : History C} {c : C} {key : Bytes}
    (ha : b.Accepted lib cfg h c key) : b.login.Begun h c key :=
  ⟨ha.loginChain, ha.sessionId, ((List.sublist_cons_self _ _).trans (List.sublist_cons_self _ _)).trans ha.events⟩

end Callback
end Login

section Runs
variable {C : Type} [DecidableEq C] {lib : Libraries} {cfg : C → OIDCConfig} {h : History C} {p : Requests C}
variable {cond : History C → Stores C → Moment C → Prop}

omit [DecidableEq C] in
private theorem begun_of_issues {i : Nat} {j : Job C} {s : Bytes} {a : AuthorizationState} {e : Int}
    (hw : System.Owns h i j)
    (hi : Issues lib (cfg j.chain) j.request (System.log i h) (.setAuthorizationState s a)) :
    ∃ l : Login C, a = l.authorizationState ∧ l.thread = i ∧ l.job = j ∧
      l.Begun (.call i j (.setAuthorizationState s a) () e :: h) j.chain (cStr s) := by
  have hl := System.log_sublist hw.own
  generalize hlog : System.log i h = log at hi hl
  cases hi with
  | @beginLogin log sid st n e₁ e₂ e₃ hr =>
    refine ⟨⟨i, j, sid, st, n, e₁, e₂, e₃, e⟩, rfl, rfl, rfl, rfl, by simp, ?_⟩
    refine List.Sublist.cons_cons _ (List.Sublist.trans ?_ hl)
    simp [System.event]

omit [DecidableEq C] in
private theorem accepted_of_issues {i : Nat} {j : Job C} {s : Bytes} {t : TokenResponse} {stores : Stores C}
    (hk : Kept (fun h c key _ => ∃ b : Callback C, b.Accepted lib cfg h c key)
      (fun h c key a => ∃ l : Login C, a = l.authorizationState ∧ l.Begun h c key) h stores)
    (hw : System.Owns h i j)
    (hi : Issues lib (cfg j.chain) j.request (System.log i h) (.setTokenResponse s t)) :
    ∃ b : Callback C, b.Accepted lib cfg h j.chain (cStr s) := by
  generalize hlog : System.log i h = log at hi
  cases hi with
  | @save s code a body e₁ e₂ e₃ t hx =>
    obtain ⟨h₂, h₁, rfl, hnewer⟩ := hw.split [_, _] hlog
    obtain ⟨l, rfl, hl⟩ := hk.readState _ _ _ _ _ _ _ rfl
    refine ⟨⟨l, i, j, s, code, body, e₁, e₂⟩, rfl, hl.chain, hl.sessionId, rfl, ⟨t, hx⟩, ?_⟩
    have hpost := (List.sublist_cons_self _ _).trans hnewer
    exact hpost.append (hl.events.cons_cons _)
  | @saveRefreshed s t e token answer e' t' hr hres =>
    obtain ⟨h₂, h₁, rfl, _⟩ := hw.split [_] hlog
    obtain ⟨b, hb⟩ := hk.readTokens _ _ _ _ _ _ _ rfl
    exact ⟨b, { hb with events := (hb.events.cons _).trans (List.sublist_append_right _ _) }⟩

/-- What the stores hold comes from logins begun and answered in the same chain. -/
theorem kept_logins (hr : (service lib cfg).Run cond h p) :
    Kept (fun h c key _ => ∃ b : Callback C, b.Accepted lib cfg h c key)
      (fun h c key a => ∃ l : Login C, a = l.authorizationState ∧ l.Begun h c key) h p.shared := by
  refine Run.kept ?_ ?_ ?_ ?_ hr
  · rintro ev h c key t ⟨b, hb⟩
    exact ⟨b, { hb with events := hb.events.cons _ }⟩
  · rintro ev h c key a ⟨l, ha, hl⟩
    exact ⟨l, ha, { hl with events := hl.events.cons _ }⟩
  · intro i j s t e h stores hk hw hi _
    obtain ⟨b, hb⟩ := accepted_of_issues hk hw hi
    exact ⟨b, { hb with events := hb.events.cons _ }⟩
  · intro i j s a e h stores hk hw hi
    obtain ⟨l, ha, _, _, hl⟩ := begun_of_issues hw hi
    exact ⟨l, ha, hl⟩

/-- Every key of a store was drawn by a request that began a login there. -/
theorem exists_login (hr : (service lib cfg).Run cond h p) {c : C} {key : Bytes} (hk : (p.shared c).HasKey key) :
    ∃ l : Login C, l.Begun h c key := by
  rcases (kept_logins hr).keys c key hk with ⟨_, b, hb⟩ | ⟨_, l, _, hl⟩
  · exact ⟨b.login, hb.begun⟩
  · exact ⟨l, hl⟩

private theorem accepted_of_forwards {i : Nat} {j : Job C} {outcome : Outcome}
    (hr : (service lib cfg).Run cond h p) (ht : p.answer? i = some (j, outcome))
    (hf : outcome.forwardsTokens = true) :
    ∃ s t e h₂ h₁, sessionCookie (cfg j.chain) j.request = some s ∧
      h = h₂ ++ .call i j (.getTokenResponse s) (some t) e :: h₁ ∧
      ∃ b : Callback C, b.Accepted lib cfg h₁ j.chain (cStr s) := by
  obtain ⟨hw, e, hends⟩ := ends_of_answered hr ht
  generalize hlog : System.log i h = log at hends
  cases hends.of_forwardsTokens hf with
  | @stored s t e hs _ _ =>
    obtain ⟨h₂, h₁, rfl, _⟩ := hw.split [] hlog
    exact ⟨s, t, e, h₂, h₁, hs.cookie, rfl, (kept_logins hr).readTokens _ _ _ _ _ _ _ rfl⟩
  | @refreshed s t e token answer e' t' e'' hs _ =>
    obtain ⟨h₂, h₁, rfl, _⟩ := hw.split [_, _] hlog
    exact ⟨s, t, e, h₂, h₁, hs.enters.cookie, rfl, (kept_logins hr).readTokens _ _ _ _ _ _ _ rfl⟩

private theorem cStr_cookie {i : Nat} {j : Job C} {o : Op} {r : o.Res} {e : Int} {s : Bytes}
    (hr : (service lib cfg).Run cond h p) (hn : ∀ i j e, .spawn i j e ∈ h → NulFreeHeaders j.request)
    (hc : .call i j o r e ∈ h) (hs : sessionCookie (cfg j.chain) j.request = some s) : cStr s = s := by
  obtain ⟨e', hm⟩ := hr.spawned (service_follows lib cfg) hc
  exact cStr_of_nulFree (nulFree_sessionCookie (hn i j e' hm) hs)

/-- Login soundness. In every run of requests with NUL-free headers, a request of session `s` that
is let through with tokens read them after a redirect of the same chain had drawn `s`, a state and
a nonce, and a callback with cookie `s` had then presented that state and had a reply accepted for
that nonce; and every key of a store was drawn by the generator in its chain. -/
theorem login_sound (hr : (service lib cfg).Run (fun _ _ _ => True) h p)
    (hn : ∀ i j e, .spawn i j e ∈ h → NulFreeHeaders j.request) :
    (∀ i j outcome s, p.answer? i = some (j, outcome) → outcome.forwardsTokens = true →
      sessionCookie (cfg j.chain) j.request = some s →
      ∃ (b : Callback C) (t : TokenResponse) (e : Int),
        (.call i j (.getTokenResponse s) (some t) e :: b.events cfg).Sublist h ∧
        b.login.job.chain = j.chain ∧ b.login.sessionId.val = s ∧ b.job.chain = j.chain ∧
        sessionCookie (cfg j.chain) b.job.request = some s ∧
        matchesCallbackRequest (cfg j.chain) b.job.request = .ok true ∧
        CallbackQuery b.job.request b.login.state.val b.code ∧
        ∃ t', TokenResponseParserImpl.parse lib (cfg j.chain).jwks (cfg j.chain).clientId b.login.nonce.val
          b.body b.answeredAt = some t') ∧
    ∀ c key, (p.shared c).HasKey key →
      ∃ i j sid e, j.chain = c ∧ sid.val = key ∧ .call i j .generateSessionId sid e ∈ h := by
  constructor
  · intro i j outcome s ht hf hs
    obtain ⟨s', t, e, h₂, h₁, hs', hh, b, hb⟩ := accepted_of_forwards hr ht hf
    obtain rfl : s = s' := by simpa [hs] using hs'
    obtain ⟨t', hx⟩ := hb.exchanged
    have hevents : (.call i j (.getTokenResponse s) (some t) e :: b.events cfg).Sublist h :=
      hh ▸ (hb.events.cons_cons _).trans (List.sublist_append_right _ _)
    have hcookie : sessionCookie (cfg b.job.chain) b.job.request = some b.sessionId :=
      hb.chain ▸ hx.enters.cookie
    have hread : cStr s = s := cStr_cookie hr hn (hevents.subset List.mem_cons_self) hs
    have hanswer : cStr b.sessionId = b.sessionId :=
      cStr_cookie hr hn (hevents.subset (List.mem_cons_of_mem _ List.mem_cons_self)) hcookie
    have hsame : b.sessionId = s := hanswer.symm.trans (hb.cookie.trans hread)
    refine ⟨b, t, e, hevents, hb.loginChain, hb.sessionId.trans hread, hb.chain, hsame ▸ hx.enters.cookie,
      hx.enters.callback_eq, ?_, t', ?_⟩
    · simpa [Login.authorizationState, AuthorizationState.create] using hx.query
    · simpa [Login.authorizationState, AuthorizationState.create] using hx.parses
  · intro c key hk
    obtain ⟨l, hl⟩ := exists_login hr hk
    refine ⟨l.thread, l.job, l.sessionId, l.sessionIdAt, hl.chain, hl.sessionId, hl.events.subset ?_⟩
    simp [Login.events]

end Runs
section Sample

/-- An ID token for `client1` and the nonce `random` that expires at 2001001001, signed with
HS256 under the key below. -/
def sampleIdToken : Bytes :=
  text "eyJhbGciOiJIUzI1NiIsInR5cCI6IkpXVCJ9.eyJhdWQiOiJjbGllbnQxIiwiZXhwIjoyMDAxMDAxMDAxLCJub25jZSI6" ++
  text "InJhbmRvbSJ9.WjhsxejAdiW6rBAgFF4_xlE5HFnGLPaEdiKMD0p86b0"

/-- The ID token of the filter's tests, signed with another key and for no audience. -/
def foreignIdToken : Bytes :=
  text "eyJhbGciOiJIUzI1NiIsInR5cCI6IkpXVCJ9.eyJzdWIiOiIxMjM0NTY3ODkwIiwibmFtZSI6IkpvaG4gRG9lIiwiaWF0IjoxNTA" ++
  text "2MTI5MDIyLCJleHAiOjI5MDYxMzkwMjJ9.jV2_EH7JB30wgg248x2AlCkZnIUH417I_7FPw3nr5BQ"

def sampleJwks : Bytes :=
  text "\x7b\"keys\":[\x7b\"kty\":\"oct\",\"alg\":\"HS256\",\"k\":\"c2VjcmV0\"\x7d]\x7d"

def sampleJwt : Jwt := ⟨sampleIdToken, 2001001001, some (text "random")⟩

def foreignJwt : Jwt := ⟨foreignIdToken, 2906139022, none⟩

def loginReply : Bytes :=
  text "\x7b\"token_type\":\"bearer\",\"access_token\":\"access_token_value\"," ++
  text "\"refresh_token\":\"refresh_token_value\",\"expires_in\":3600,\"id_token\":\"" ++ sampleIdToken ++
  text "\"\x7d"

def refreshReply : Bytes :=
  text "\x7b\"token_type\":\"bearer\",\"access_token\":\"refreshed_access_token_value\"," ++
  text "\"refresh_token\":\"refreshed_refresh_token_value\",\"expires_in\":3700\x7d"

/-- A reply that a refresh accepts although it brings no token at all. -/
def bareReply : Bytes := text "\x7b\"token_type\":\"bearer\"\x7d"

/-- A reply with an ID token that verification rejects. -/
def foreignReply : Bytes :=
  text "\x7b\"token_type\":\"bearer\",\"access_token\":\"refreshed_access_token_value\",\"id_token\":\"" ++
  foreignIdToken ++ text "\"\x7d"

/-- The library calls, on the replies above. -/
def sampleLibraries : Libraries where
  jsonStringToMessage raw :=
    [(loginReply, [(text "token_type", .string (text "bearer")),
        (text "access_token", .string (text "access_token_value")),
        (text "refresh_token", .string (text "refresh_token_value")),
        (text "expires_in", .number (.ofInt 3600 (by decide))), (text "id_token", .string sampleIdToken)]),
      (refreshReply, [(text "token_type", .string (text "bearer")),
        (text "access_token", .string (text "refreshed_access_token_value")),
        (text "refresh_token", .string (text "refreshed_refresh_token_value")),
        (text "expires_in", .number (.ofInt 3700 (by decide)))]),
      (bareReply, [(text "token_type", .string (text "bearer"))]),
      (foreignReply, [(text "token_type", .string (text "bearer")),
        (text "access_token", .string (text "refreshed_access_token_value")),
        (text "id_token", .string foreignIdToken)])].lookup raw
  parseFromString raw := [(sampleIdToken, sampleJwt), (foreignIdToken, foreignJwt)].lookup raw
  verifyJwt idToken jwks audiences now :=
    idToken == sampleJwt && jwks == sampleJwks && audiences.contains (text "client1") && now ≤ 2001001001

def sampleConfig : OIDCConfig where
  authorizationUri := text "https://acme-idp.tld/authorization"
  tokenUri := text "https://acme-idp.tld/token"
  callbackUri := text "https://me.tld/callback"
  jwks := sampleJwks
  clientId := text "client1"
  clientSecret := text "ZXhhbXBsZS1hcHAtc2VjcmV0"
  scopes := []
  cookieNamePrefix := text "cookie-prefix"
  idToken? := some ⟨text "authorization", text "Bearer"⟩
  accessToken? := some ⟨text "x-access-token", []⟩
  logout? := some ⟨text "/logout", text "https://redirect-uri"⟩
  absoluteSessionTimeout := 0
  idleSessionTimeout := 0
  trustedCertificateAuthority := text "some-ca"
  proxyUri := text "http://some-proxy-uri.com"

def sampleCookie : Bytes × Bytes :=
  (text "cookie", text "__Host-cookie-prefix-authservice-session-id-cookie=session123")

def visit (headers : HeaderMap) : Job Unit :=
  ⟨(), ⟨some ⟨text "https", text "example.com", text "/summary", text "foo=bar", headers⟩⟩⟩

def callback : Job Unit :=
  ⟨(), ⟨some ⟨text "https", text "me.tld:443", text "/callback?code=value&state=some-state", [], [sampleCookie]⟩⟩⟩

def logout : Job Unit := ⟨(), ⟨some ⟨text "https", text "example.com", text "/logout", [], [sampleCookie]⟩⟩⟩

/-- The generator's draws, and an identity provider that gives one answer. -/
def answering (answer : PostResult) : External where
  sessionId := ⟨text "session123", by decide⟩
  state := ⟨text "some-state", by decide⟩
  nonce := ⟨text "random", by decide⟩
  idp _ := answer

abbrev Schedule := List (Action Nat (Job Unit) (Cleanup Unit) Int External)

/-- A visitor is sent to the identity provider and comes back. -/
def logIn (now : Int) : Schedule :=
  .spawn 0 (visit []) now :: List.replicate 4 (.call 0 (answering .null) now) ++
    .spawn 1 callback now :: List.replicate 4 (.call 1 (answering (.response 200 loginReply)) now)

abbrev sampleService : System Nat (Job Unit) (Cleanup Unit) Int External Op.Res (Stores Unit) Outcome :=
  service sampleLibraries fun _ => sampleConfig

private def spawnsNulFree : Moment Unit → Bool
  | .spawn _ j _ => decide (NulFreeHeaders j.request)
  | _ => true

/-- A visit with the cookie of a finished login. -/
theorem login_sound_visit : ∃ (h : History Unit) (p : Requests Unit) (j : Job Unit) (outcome : Outcome),
    sampleService.Run (fun _ _ _ => True) h p ∧ p.answer? 2 = some (j, outcome) ∧
      outcome.forwardsTokens = true ∧ ∃ b : Callback Unit, (b.events fun _ => sampleConfig).Sublist h ∧
        b.login.sessionId.val = text "session123" ∧ CallbackQuery b.job.request b.login.state.val b.code := by
  obtain ⟨h, p, hr, hc⟩ := System.exists_any_run (show (sampleService.replay (fun _ _ _ => true)
    (logIn 1901001001 ++ [.spawn 2 (visit [sampleCookie]) 1901001002, .call 2 (answering .null) 1901001002])
    ([], sampleService.start)).any (fun c =>
      c.1.all spawnsNulFree &&
      (c.2.answer? 2).any fun x => x.2.forwardsTokens &&
        sessionCookie sampleConfig x.1.request == some (text "session123")) = true by decide +kernel)
  simp only [Bool.and_eq_true, Option.any_eq_true, beq_iff_eq, List.all_eq_true] at hc
  obtain ⟨hn, ⟨j, outcome⟩, ha, hf, hs⟩ := hc
  have hnul (i : Nat) (j : Job Unit) (e : Int) (hm : .spawn i j e ∈ h) : NulFreeHeaders j.request :=
    of_decide_eq_true (hn (.spawn i j e) hm)
  obtain ⟨b, t, e, hb, _, hid, _, _, _, hq, _⟩ := (login_sound hr hnul).1 2 j outcome _ ha hf hs
  exact ⟨h, p, j, outcome, hr, ha, hf, b, (List.sublist_cons_self _ _).trans hb, hid, hq⟩

end Sample

end AuthService.Filters.Oidc
