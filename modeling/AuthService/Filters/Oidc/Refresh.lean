import AuthService.Filters.Oidc.Login

/-! What a refresh may store and forward: the merge of a reply with the response it refreshes, and
when the result is unexpired, complete and verified. -/
namespace AuthService.Filters.Oidc
open Lib Common.Http Config OidcFilter TokenResponseParserImpl

section Merge
variable {lib : Libraries} {existing t : TokenResponse} {token body : Bytes} {fields : Fields} {now : Int}
  {answer : PostResult}

theorem accepted_of_refreshResult (hr : existing.refreshToken = some token)
    (ht : refreshResult lib existing answer now = .ok (some t)) :
    ∃ body fields, answer = .response 200 body ∧ lib.jsonStringToMessage (cStr body) = some fields ∧
      isInvalid fields = false ∧ t = merged lib existing token fields now := by
  unfold refreshResult at ht
  split at ht
  · cases ht
  · cases ht
  · rename_i status body
    split at ht
    · cases ht
    · rename_i hst
      have hst : status = 200 := by simpa using hst
      subst hst
      cases hj : lib.jsonStringToMessage (cStr body) with
      | none => simp [parseRefreshTokenResponse, hj] at ht
      | some fields =>
        rw [parseRefreshTokenResponse_of_fields hr hj] at ht
        refine ⟨body, fields, rfl, hj, ?_⟩
        cases hv : isInvalid fields with
        | true => simp [hv] at ht
        | false => simpa [hv, eq_comm] using ht

end Merge

section Unexpired
variable (lib : Libraries) (cfg : OIDCConfig) (now : Int) (x : External) (request : CheckRequest)
  (store : InMemorySessionStore)

/-- An allow with tokens forwards those of one stored token response, unexpired at `now`. -/
def ForwardsUnexpired : Prop :=
  (runProcess lib cfg now x request store).1.forwardsTokens = true →
    ∃ s t, sessionCookie cfg request = some s ∧
      (runProcess lib cfg now x request store).2.tokens (cStr s) = some t ∧
      (runProcess lib cfg now x request store).1 = .returned .ok (addTokensToRequestHeaders cfg .empty t) ∧
      requiredTokensExpired cfg now t = false

/-- When the stored tokens are refreshed with an accepted reply, the ID token then in force, the
reply's or else the stored one, is unexpired, and so is the expiry the reply gives to a required
access token. -/
def RefreshBringsUnexpired : Prop :=
  ∀ s t token body fields, Refreshes cfg request s t now token → store.tokens (cStr s) = some t →
    x.idp (refreshTokenRequest cfg token) = .response 200 body →
    lib.jsonStringToMessage (cStr body) = some fields → isInvalid fields = false →
    now ≤ ((parseIDToken lib fields).getD t.idToken).exp.toInt ∧
    (cfg.hasAccessToken = true → ∀ expiry, parseAccessTokenExpiry fields now = some expiry →
      expiry = 0 ∨ now ≤ expiry)

variable {lib cfg now x request store} {s token body : Bytes} {t : TokenResponse} {fields : Fields}

private theorem requiredTokensExpired_merged :
    requiredTokensExpired cfg now (merged lib t token fields now) = false ↔
      now ≤ ((parseIDToken lib fields).getD t.idToken).exp.toInt ∧
      (cfg.hasAccessToken = true → ∀ expiry, parseAccessTokenExpiry fields now = some expiry →
        expiry = 0 ∨ now ≤ expiry) := by
  unfold requiredTokensExpired TokenResponse.getIDTokenExpiry TokenResponse.getAccessTokenExpiry
  simp only [merged_idToken, merged_accessTokenExpiry]
  cases parseAccessTokenExpiry fields now with
  | none => simp
  | some expiry =>
    cases cfg.hasAccessToken <;> by_cases he : expiry = 0 <;> simp [he]

private theorem runProcess_refresh (hr : Refreshes cfg request s t now token) (ht : store.tokens (cStr s) = some t)
    (ha : x.idp (refreshTokenRequest cfg token) = .response 200 body)
    (hj : lib.jsonStringToMessage (cStr body) = some fields) (hv : isInvalid fields = false) :
    (runProcess lib cfg now x request store).1 =
      .returned .ok (addTokensToRequestHeaders cfg .empty (merged lib t token fields now)) ∧
    (runProcess lib cfg now x request store).2.tokens (cStr s) = some (merged lib t token fields now) := by
  obtain ⟨http, _, hp⟩ := process_eq_processSession lib hr.enters
  unfold runProcess
  rw [hp, processSession, Program.perform_bind, Program.run_call, Op.exec_getTokenResponse, ht]
  simp only [hr.complete, Program.env_bind, Program.run_read, hr.expired, Bool.not_true, Bool.false_eq_true,
    if_false, hr.token]
  rw [refreshToken, Program.perform_bind, Program.call_bind, Program.run_call]
  simp [Op.exec, ha, parseRefreshTokenResponse_of_fields hr.token hj, hv]

/-- `Process` forwards only unexpired tokens exactly when the refresh it makes, if it makes one,
brings unexpired tokens. -/
theorem forwardsUnexpired_iff :
    ForwardsUnexpired lib cfg now x request store ↔ RefreshBringsUnexpired lib cfg now x request store := by
  constructor
  · intro hf s t token body fields hr ht ha hj hv
    obtain ⟨hout, htok⟩ := runProcess_refresh hr ht ha hj hv
    obtain ⟨s', t', hs', ht', _, hx⟩ := hf (by rw [hout, forwardsTokens_addTokens])
    obtain rfl : s' = s := by simpa [hr.enters.cookie] using hs'.symm
    obtain rfl : t' = merged lib t token fields now := by simpa [htok] using ht'.symm
    exact requiredTokensExpired_merged.mp hx
  · intro hc hf
    obtain ⟨log, hx, hends⟩ := runProcess_ends lib cfg now x request store
    generalize hout : (runProcess lib cfg now x request store).1 = outcome at hends hf
    cases hends.of_forwardsTokens hf with
    | @stored s t e hs hp hexp =>
      simp only [Program.executes_cons, Program.executes_nil] at hx
      obtain ⟨_, rfl, ht, _, hstore⟩ := hx
      rw [Op.exec_getTokenResponse] at ht
      refine ⟨s, t, hs.cookie, ?_, rfl, hexp⟩
      rw [hstore, Op.tokens_getTokenResponse, ht]
    | @refreshed s t e token answer e' t' e'' hr hres =>
      simp only [Program.executes_cons, Program.executes_nil] at hx
      obtain ⟨_, ⟨_, ⟨_, rfl, ht, rfl, rfl⟩, ha, rfl, rfl⟩, _, _, hstore⟩ := hx
      rw [Op.exec_getTokenResponse] at ht
      obtain ⟨body, fields, rfl, hj, hv, rfl⟩ := accepted_of_refreshResult hr.token hres
      refine ⟨s, _, hr.enters.cookie, ?_, rfl, ?_⟩
      · rw [hstore]
        exact InMemorySessionStore.tokens_setTokenResponse _ _ _
      · exact requiredTokensExpired_merged.mpr (hc s t token body fields hr ht.symm ha.symm hj hv)

/-- A refresh that brings no ID token keeps the expired one, and forwards it. -/
theorem expired_token_forwarded :
    ¬ ForwardsUnexpired sampleLibraries sampleConfig 2001001002 (answering (.response 200 refreshReply))
      (visit [sampleCookie]).request ((InMemorySessionStore.create 0 0).setTokenResponse 1901001001
        (text "session123") ⟨sampleJwt, text "access_token_value", text "refresh_token_value", 1901004596⟩) := by
  intro hf
  obtain ⟨s, t, hs, ht, _, hx⟩ := hf (by decide +kernel)
  have hcookie : sessionCookie sampleConfig (visit [sampleCookie]).request = some (text "session123") := by
    decide +kernel
  obtain rfl : s = text "session123" := by simpa [hcookie] using hs.symm
  have hall : ((runProcess sampleLibraries sampleConfig 2001001002 (answering (.response 200 refreshReply))
      (visit [sampleCookie]).request ((InMemorySessionStore.create 0 0).setTokenResponse 1901001001
        (text "session123") ⟨sampleJwt, text "access_token_value", text "refresh_token_value",
          1901004596⟩)).2.tokens (cStr (text "session123"))).all
      (requiredTokensExpired sampleConfig 2001001002) = true := by decide +kernel
  rw [ht] at hall
  simp [hx] at hall

end Unexpired
section Stored
variable {C : Type} [DecidableEq C] {lib : Libraries} {cfg : C → OIDCConfig} {h : History C} {p : Requests C}

/-- A refresh reply that is accepted, in a chain that forwards access tokens, brings one. -/
def BringsAccessToken (lib : Libraries) (cfg : C → OIDCConfig) (ev : Moment C) : Prop :=
  ∀ i j token body e fields, ev = .call i j (.post (refreshTokenRequest (cfg j.chain) token)) (.response 200 body) e →
    lib.jsonStringToMessage (cStr body) = some fields → isInvalid fields = false →
    (cfg j.chain).hasAccessToken = true → ∃ v, fields.lookup accessTokenKey = some v ∧ v.stringValue ≠ []

/-- A refresh reply that is accepted brings no ID token, or one that verification accepts. -/
def BringsVerifiedIdToken (lib : Libraries) (cfg : C → OIDCConfig) (ev : Moment C) : Prop :=
  ∀ i j token body e fields idToken,
    ev = .call i j (.post (refreshTokenRequest (cfg j.chain) token)) (.response 200 body) e →
    lib.jsonStringToMessage (cStr body) = some fields → isInvalid fields = false →
    parseIDToken lib fields = some idToken →
    lib.verifyJwt idToken (cfg j.chain).jwks [(cfg j.chain).clientId] e = true

private theorem Run.kept_tokens {P : OIDCConfig → TokenResponse → Prop} {G : Moment C → Prop}
    (hparse : ∀ cfg nonce body now t, TokenResponseParserImpl.parse lib cfg.jwks cfg.clientId nonce body now = some t →
      requiredTokensPresent cfg (some t) = true → P cfg t)
    (hmerge : ∀ i (j : Job C) token body e fields t,
      G (.call i j (.post (refreshTokenRequest (cfg j.chain) token)) (.response 200 body) e) →
      lib.jsonStringToMessage (cStr body) = some fields → isInvalid fields = false → P (cfg j.chain) t →
      P (cfg j.chain) (merged lib t token fields e))
    (hr : (service lib cfg).Run (fun _ _ _ => True) h p) (hg : ∀ ev ∈ h, G ev) :
    Kept (fun _ c _ t => P (cfg c) t) (fun _ _ _ _ => True) h p.shared := by
  have hr := hr.and_history (F := fun h => ∀ ev ∈ h, G ev) (fun _ _ hf ev hm => hf ev (List.mem_cons_of_mem _ hm)) hg
  refine Run.kept (fun _ _ _ _ _ hp => hp) (fun _ _ _ _ _ _ => trivial) ?_ (fun _ _ _ _ _ _ _ _ _ _ => trivial) hr
  rintro i j s t e h stores hk hw hi ⟨_, hg⟩
  generalize hlog : System.log i h = log at hi
  cases hi with
  | save hx => exact hparse _ _ _ _ _ hx.parses hx.complete
  | @saveRefreshed s t e token answer e' t' hr hres =>
    obtain ⟨body, fields, rfl, hj, hv, rfl⟩ := accepted_of_refreshResult hr.token hres
    obtain ⟨h₂, h₁, rfl, hpost⟩ := hw.split [_] hlog
    have hread := hk.readTokens _ _ _ _ _ _ _ rfl
    refine hmerge i j token body e' fields t (hg _ (List.mem_cons_of_mem _ (List.mem_append_left _ ?_))) hj hv hread
    exact hpost.subset List.mem_cons_self

private theorem requiredTokensPresent_merged {cfg : OIDCConfig} {t : TokenResponse} {token : Bytes} {fields : Fields}
    {now : Int} (hv : cfg.hasAccessToken = true → ∃ v, fields.lookup accessTokenKey = some v ∧ v.stringValue ≠ []) :
    requiredTokensPresent cfg (some (merged lib t token fields now)) = true := by
  cases ha : cfg.hasAccessToken with
  | false => simp [requiredTokensPresent, ha]
  | true =>
    obtain ⟨v, hl, hne⟩ := hv ha
    simp [requiredTokensPresent, TokenResponse.accessToken, hl, hne]

private theorem okResponse_addTokens {cfg : OIDCConfig} {t : TokenResponse} (ha : cfg.hasAccessToken = true)
    (hp : requiredTokensPresent cfg (some t) = true) :
    ∃ accessToken, t.accessToken = some accessToken ∧
      (addTokensToRequestHeaders cfg .empty t).okResponse = some
        ⟨[⟨cStr cfg.idToken.header, cStr (encodeHeaderValue cfg.idToken.preamble t.idToken.jwt)⟩,
          ⟨cStr cfg.accessToken.header, cStr (encodeHeaderValue cfg.accessToken.preamble accessToken)⟩]⟩ := by
  simp only [requiredTokensPresent, ha, Bool.not_true, Bool.false_or, Option.elim_some] at hp
  obtain ⟨accessToken, hat⟩ := Option.isSome_iff_exists.mp hp
  refine ⟨accessToken, hat, ?_⟩
  rw [okResponse_addTokensToRequestHeaders, forwardedHeaders, ha, hat]

/-- Configured tokens are complete in every run whose accepted refresh replies bring an access
token where one is forwarded: every token response written is complete, and every allow with
tokens carries both headers. -/
theorem tokens_complete (hr : (service lib cfg).Run (fun _ _ _ => True) h p)
    (hg : ∀ ev ∈ h, BringsAccessToken lib cfg ev) :
    (∀ i j s t e, .call i j (.setTokenResponse s t) () e ∈ h →
      requiredTokensPresent (cfg j.chain) (some t) = true) ∧
    ∀ i j outcome, p.answer? i = some (j, outcome) → outcome.forwardsTokens = true →
      (cfg j.chain).hasAccessToken = true →
      ∃ (response : CheckResponse) (t : TokenResponse) (accessToken : Bytes),
        outcome = .returned .ok response ∧ t.accessToken = some accessToken ∧
        response.okResponse = some
          ⟨[⟨cStr (cfg j.chain).idToken.header,
              cStr (encodeHeaderValue (cfg j.chain).idToken.preamble t.idToken.jwt)⟩,
            ⟨cStr (cfg j.chain).accessToken.header,
              cStr (encodeHeaderValue (cfg j.chain).accessToken.preamble accessToken)⟩]⟩ := by
  have hk : Kept (fun _ c _ t => requiredTokensPresent (cfg c) (some t) = true) (fun _ _ _ _ => True) h p.shared := by
    refine Run.kept_tokens (P := fun cfg t => requiredTokensPresent cfg (some t) = true) ?_ ?_ hr hg
    · exact fun _ _ _ _ _ _ hp => hp
    · intro i j token body e fields t hb hj hv _
      exact requiredTokensPresent_merged (hb i j token body e fields rfl hj hv)
  refine ⟨hk.written, ?_⟩
  intro i j outcome ha hf hacc
  obtain ⟨hw, e, hends⟩ := ends_of_answered hr ha
  have hlog := System.log_sublist hw.own
  generalize System.log i h = log at hends hlog
  cases hends.of_forwardsTokens hf with
  | @stored s t e _ hp _ =>
    obtain ⟨accessToken, hat, hresp⟩ := okResponse_addTokens hacc hp
    exact ⟨_, t, accessToken, rfl, hat, hresp⟩
  | @refreshed s t e token answer e' t' e'' _ _ =>
    have hp := hk.written i j s t' _ (hlog.subset List.mem_cons_self)
    obtain ⟨accessToken, hat, hresp⟩ := okResponse_addTokens hacc hp
    exact ⟨_, t', accessToken, rfl, hat, hresp⟩

/-- A login, and a visit whose expired tokens are refreshed with a given reply. -/
def refreshSchedule (reply : Bytes) : Schedule :=
  logIn 1901001001 ++ .spawn 2 (visit [sampleCookie]) 1901005000 ::
    List.replicate 3 (.call 2 (answering (.response 200 reply)) 1901005000)

private def bringsAccessToken : Moment Unit → Bool
  | .call _ _ (.post _) (.response 200 body) _ =>
    (sampleLibraries.jsonStringToMessage (cStr body)).all fun fields =>
      (fields.lookup accessTokenKey).any fun v => v.stringValue ≠ []
  | _ => true

/-- The reply of the parser's tests, with a new access token. -/
theorem tokens_complete_refresh : ∃ (h : History Unit) (p : Requests Unit) (j : Job Unit) (response : CheckResponse)
    (idToken accessToken : HeaderValue), sampleService.Run (fun _ _ _ => True) h p ∧
      p.answer? 2 = some (j, .returned .ok response) ∧ response.okResponse = some ⟨[idToken, accessToken]⟩ := by
  obtain ⟨h, p, hr, hc⟩ := System.exists_any_run (show (sampleService.replay (fun _ _ _ => true)
    (refreshSchedule refreshReply) ([], sampleService.start)).any (fun c => c.1.all bringsAccessToken &&
      (c.2.answer? 2).any fun x => x.2.forwardsTokens) = true by decide +kernel)
  simp only [Bool.and_eq_true, Option.any_eq_true, List.all_eq_true] at hc
  obtain ⟨hg, ⟨j, outcome⟩, ha, hf⟩ := hc
  have hg : ∀ ev ∈ h, BringsAccessToken sampleLibraries (fun _ => sampleConfig) ev := by
    rintro _ hm i j token body e fields rfl hj _ _
    simpa [bringsAccessToken, hj, Option.any_eq_true] using hg _ hm
  obtain ⟨response, t, accessToken, rfl, _, hresp⟩ := (tokens_complete hr hg).2 2 j outcome ha hf rfl
  exact ⟨h, p, j, response, _, _, hr, ha, hresp⟩

private def savesIncomplete (i : Nat) (j : Job Unit) : Moment Unit → Bool
  | .call i' j' (.setTokenResponse _ t) _ _ => i' == i && j' == j && !requiredTokensPresent sampleConfig (some t)
  | _ => false

/-- A refresh reply without an access token is stored and forwarded without one. -/
theorem access_token_lost : ∃ (h : History Unit) (p : Requests Unit) (j : Job Unit) (outcome : Outcome)
    (s : Bytes) (t : TokenResponse) (e : Int), sampleService.Run (fun _ _ _ => True) h p ∧
      sampleConfig.hasAccessToken = true ∧ .call 2 j (.setTokenResponse s t) () e ∈ h ∧
      requiredTokensPresent sampleConfig (some t) = false ∧ p.answer? 2 = some (j, outcome) ∧
      outcome.forwardsTokens = true ∧
      ∀ header ∈ outcome.addedHeaders, header.key ≠ sampleConfig.accessToken.header := by
  obtain ⟨h, p, hr, hc⟩ := System.exists_any_run (show (sampleService.replay (fun _ _ _ => true)
    (refreshSchedule bareReply) ([], sampleService.start)).any (fun c => (c.2.answer? 2).any fun x =>
      x.2.forwardsTokens && x.2.addedHeaders.all (fun header => header.key != sampleConfig.accessToken.header) &&
      c.1.any (savesIncomplete 2 x.1)) = true by decide +kernel)
  simp only [Bool.and_eq_true, Option.any_eq_true, List.any_eq_true, List.all_eq_true] at hc
  obtain ⟨⟨j, outcome⟩, ha, ⟨hf, hh⟩, ev, hm, hev⟩ := hc
  rcases ev with _ | ⟨i, j', ⟨⟩, r, e⟩ | _ <;> try cases hev
  rename_i s t
  simp only [savesIncomplete, Bool.and_eq_true, beq_iff_eq, Bool.not_eq_true'] at hev
  obtain ⟨⟨rfl, rfl⟩, hp⟩ := hev
  exact ⟨h, p, j', outcome, s, t, e, hr, rfl, hm, hp, ha, hf,
    fun header hin => by simpa using hh header hin⟩

/-- Every stored ID token was accepted by verification under the configured keys and client id,
in every run whose accepted refresh replies bring no ID token that verification rejects. -/
theorem stored_idToken_verified (hr : (service lib cfg).Run (fun _ _ _ => True) h p)
    (hg : ∀ ev ∈ h, BringsVerifiedIdToken lib cfg ev) :
    ∀ c key t, (p.shared c).tokens key = some t →
      ∃ now, lib.verifyJwt t.idToken (cfg c).jwks [(cfg c).clientId] now = true := by
  have hk : Kept (fun _ c _ t => ∃ now, lib.verifyJwt t.idToken (cfg c).jwks [(cfg c).clientId] now = true)
      (fun _ _ _ _ => True) h p.shared := by
    refine Run.kept_tokens
      (P := fun cfg t => ∃ now, lib.verifyJwt t.idToken cfg.jwks [cfg.clientId] now = true) ?_ ?_ hr hg
    · exact fun _ _ _ now _ hp _ => ⟨now, verifyJwt_of_parse hp⟩
    · intro i j token body e fields t hb hj hv hold
      rw [merged_idToken]
      cases hid : parseIDToken lib fields with
      | none => exact hold
      | some idToken => exact ⟨e, hb i j token body e fields idToken rfl hj hv hid⟩
  exact hk.tokens

private def bringsNoIdToken : Moment Unit → Bool
  | .call _ _ (.post q) (.response 200 body) _ => q.headers.length != 1 ||
    (sampleLibraries.jsonStringToMessage (cStr body)).all fun fields => (parseIDToken sampleLibraries fields).isNone
  | _ => true

/-- The ID token of the login is stored still after a refresh that brings none. -/
theorem stored_idToken_verified_refresh : ∃ (h : History Unit) (p : Requests Unit) (t : TokenResponse) (now : Int),
    sampleService.Run (fun _ _ _ => True) h p ∧ (p.shared ()).tokens (text "session123") = some t ∧
      sampleLibraries.verifyJwt t.idToken sampleConfig.jwks [sampleConfig.clientId] now = true := by
  obtain ⟨h, p, hr, hc⟩ := System.exists_any_run (show (sampleService.replay (fun _ _ _ => true)
    (refreshSchedule refreshReply) ([], sampleService.start)).any (fun c => c.1.all bringsNoIdToken &&
      ((c.2.shared ()).tokens (text "session123")).isSome) = true by decide +kernel)
  simp only [Bool.and_eq_true, List.all_eq_true] at hc
  obtain ⟨hg, hsome⟩ := hc
  obtain ⟨t, ht⟩ := Option.isSome_iff_exists.mp hsome
  have hg : ∀ ev ∈ h, BringsVerifiedIdToken sampleLibraries (fun _ => sampleConfig) ev := by
    rintro _ hm i j token body e fields idToken rfl hj _ hid
    have := hg _ hm
    simp [bringsNoIdToken, refreshTokenRequest, hj, hid] at this
  obtain ⟨now, hv⟩ := stored_idToken_verified hr hg () _ t ht
  exact ⟨h, p, t, now, hr, ht, hv⟩

/-- A refresh stores an ID token that verification never accepts. -/
theorem unverified_idToken_stored : ∃ (h : History Unit) (p : Requests Unit) (t : TokenResponse),
    sampleService.Run (fun _ _ _ => True) h p ∧ (p.shared ()).tokens (text "session123") = some t ∧
      ∀ now, sampleLibraries.verifyJwt t.idToken sampleConfig.jwks [sampleConfig.clientId] now = false := by
  obtain ⟨h, p, hr, hc⟩ := System.exists_any_run (show (sampleService.replay (fun _ _ _ => true)
    (refreshSchedule foreignReply) ([], sampleService.start)).any (fun c =>
      ((c.2.shared ()).tokens (text "session123")).any fun t => t.idToken != sampleJwt) = true by decide +kernel)
  simp only [Option.any_eq_true] at hc
  obtain ⟨t, ht, hne⟩ := hc
  refine ⟨h, p, t, hr, ht, fun now => ?_⟩
  have hne : (t.idToken == sampleJwt) = false := by simpa using hne
  simp [sampleLibraries, hne]

end Stored
end AuthService.Filters.Oidc
