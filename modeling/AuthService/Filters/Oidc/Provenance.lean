import AuthService.Filters.Oidc.Refresh

/-! Where tokens come from and where secrets go, in every interleaving of requests: what a session holds or
is forwarded came in replies to requests of that session, and what is posted is posted to the configured
token endpoint on such grounds. -/
namespace AuthService.Filters.Oidc
open Lib Common.Http Config OidcFilter TokenResponseParserImpl

section Fields
variable {lib : Libraries} {fields : Fields} {t : TokenResponse} {token : Bytes}

private theorem lookup_of_stringValue {key : Bytes} (ht : ((fields.lookup key).map (·.stringValue)).getD [] = token)
    (hn : token ≠ []) : fields.lookup key = some (.string token) := by
  cases hf : fields.lookup key with
  | none =>
    rw [hf] at ht
    exact absurd ht.symm hn
  | some value =>
    rw [hf] at ht
    cases value with
    | string s =>
      obtain rfl : s = token := ht
      rfl
    | _ => exact absurd ht.symm hn

private theorem merged_refreshTokenField {existing : TokenResponse} {now : Int} :
    (merged lib existing token fields now).refreshTokenField =
      ((fields.lookup refreshTokenKey).map (·.stringValue)).getD token := by
  unfold merged withAccessTokenExpiry
  split <;> rfl

/-- The parts that an accepted login reply gives to its token response. -/
theorem fields_of_parse {jwks clientId nonce raw : Bytes} {now : Int}
    (h : parse lib jwks clientId nonce raw now = some t) :
    ∃ fields, lib.jsonStringToMessage (cStr raw) = some fields ∧ parseIDToken lib fields = some t.idToken ∧
      t.accessTokenField = ((fields.lookup accessTokenKey).map (·.stringValue)).getD [] ∧
      t.refreshTokenField = ((fields.lookup refreshTokenKey).map (·.stringValue)).getD [] := by
  unfold parse at h
  split at h
  · cases h
  · rename_i fields hj
    split at h
    · cases h
    · rename_i idToken hid
      split at h
      · cases h
      · refine ⟨fields, hj, ?_⟩
        cases hv : isInvalid fields with
        | true => simp [hv] at h
        | false =>
          simp only [hv, Bool.false_eq_true, if_false, Option.some.injEq] at h
          subst h
          refine ⟨?_, ?_, ?_⟩
          all_goals
            unfold withAccessTokenExpiry withAccessToken
            cases parseAccessTokenExpiry fields now <;> cases fields.lookup refreshTokenKey <;>
              cases fields.lookup accessTokenKey <;> simp_all [TokenResponse.create, TokenResponse.setAccessToken,
                TokenResponse.setRefreshToken, TokenResponse.setAccessTokenExpiry]

end Fields

section Runs
variable {C : Type} [DecidableEq C] {lib : Libraries} {cfg : C → OIDCConfig} {h : History C} {p : Requests C}
variable {cond : History C → Stores C → Moment C → Prop} {c : C} {key : Bytes} {t : TokenResponse}

/-- The fields of a reply that a request of this chain and session accepted: the reply to the code exchange of a
callback, accepted by `Parse` for the nonce it had read, or the reply to the refresh of the tokens it had read,
accepted by `ParseRefreshTokenResponse`. -/
inductive Replied (lib : Libraries) (cfg : C → OIDCConfig) (h : History C) (c : C) (key : Bytes) (fields : Fields) :
    Prop
  | exchange {i j s code a body e e' t} : j.chain = c → cStr s = key →
      [.call i j (.post (retrieveTokenRequest (cfg c) code)) (.response 200 body) e,
        .call i j (.getAuthorizationState s) (some a) e'].Sublist h →
      Exchanged lib (cfg c) j.request s code a body e t → lib.jsonStringToMessage (cStr body) = some fields →
      Replied lib cfg h c key fields
  | refresh {i j s existing token body e e' t} : j.chain = c → cStr s = key →
      [.call i j (.post (refreshTokenRequest (cfg c) token)) (.response 200 body) e,
        .call i j (.getTokenResponse s) (some existing) e'].Sublist h →
      Refreshes (cfg c) j.request s existing e' token →
      parseRefreshTokenResponse lib existing body e = .ok (some t) → lib.jsonStringToMessage (cStr body) = some fields →
      Replied lib cfg h c key fields

/-- Every token of a token response came in such an answer. -/
structure Received (lib : Libraries) (cfg : C → OIDCConfig) (h : History C) (c : C) (key : Bytes) (t : TokenResponse) :
    Prop where
  idToken : ∃ fields, Replied lib cfg h c key fields ∧ parseIDToken lib fields = some t.idToken
  accessToken : ∀ token, t.accessToken = some token →
    ∃ fields, Replied lib cfg h c key fields ∧ fields.lookup accessTokenKey = some (.string token)
  refreshToken : ∀ token, t.refreshToken = some token →
    ∃ fields, Replied lib cfg h c key fields ∧ fields.lookup refreshTokenKey = some (.string token)

omit [DecidableEq C] in
private theorem Replied.mono {h' : History C} {fields : Fields} (hs : h.Sublist h')
    (hr : Replied lib cfg h c key fields) : Replied lib cfg h' c key fields := by
  cases hr with
  | exchange hc hk hm hx hj => exact .exchange hc hk (hm.trans hs) hx hj
  | refresh hc hk hm hx hp hj => exact .refresh hc hk (hm.trans hs) hx hp hj

omit [DecidableEq C] in
private theorem Received.mono {h' : History C} (hs : h.Sublist h') (hr : Received lib cfg h c key t) :
    Received lib cfg h' c key t where
  idToken := hr.idToken.imp fun _ ⟨hf, ht⟩ => ⟨hf.mono hs, ht⟩
  accessToken token ht := (hr.accessToken token ht).imp fun _ ⟨hf, ht⟩ => ⟨hf.mono hs, ht⟩
  refreshToken token ht := (hr.refreshToken token ht).imp fun _ ⟨hf, ht⟩ => ⟨hf.mono hs, ht⟩

private theorem accessToken_eq_some {token : Bytes} (ha : t.accessToken = some token) :
    t.accessTokenField = token ∧ token ≠ [] := by
  unfold TokenResponse.accessToken at ha
  split at ha
  · cases ha
  · rename_i hn
    obtain rfl := Option.some.inj ha
    exact ⟨rfl, hn⟩

private theorem refreshToken_field {token : Bytes} (ha : t.refreshToken = some token) :
    t.refreshTokenField = token ∧ token ≠ [] := by
  unfold TokenResponse.refreshToken at ha
  split at ha
  · cases ha
  · rename_i hn
    obtain rfl := Option.some.inj ha
    exact ⟨rfl, hn⟩

omit [DecidableEq C] in
private theorem received_of_parse {jwks clientId nonce body : Bytes} {now : Int} {fields : Fields}
    (hj : lib.jsonStringToMessage (cStr body) = some fields) (hf : Replied lib cfg h c key fields)
    (hp : parse lib jwks clientId nonce body now = some t) : Received lib cfg h c key t := by
  obtain ⟨fields', hj', hid, ha, hr⟩ := fields_of_parse hp
  obtain rfl : fields = fields' := Option.some.inj (hj.symm.trans hj')
  refine ⟨⟨fields, hf, hid⟩, fun token ht => ⟨fields, hf, ?_⟩, fun token ht => ⟨fields, hf, ?_⟩⟩
  · obtain ⟨htoken, hn⟩ := accessToken_eq_some ht
    exact lookup_of_stringValue (ha.symm.trans htoken) hn
  · obtain ⟨htoken, hn⟩ := refreshToken_field ht
    exact lookup_of_stringValue (hr.symm.trans htoken) hn

omit [DecidableEq C] in
private theorem received_merged {existing : TokenResponse} {token : Bytes} {fields : Fields} {now : Int}
    (hx : Received lib cfg h c key existing) (hr : existing.refreshToken = some token)
    (hf : Replied lib cfg h c key fields) : Received lib cfg h c key (merged lib existing token fields now) where
  idToken := by
    rw [merged_idToken]
    cases hid : parseIDToken lib fields with
    | none => exact hx.idToken
    | some idToken => exact ⟨fields, hf, hid⟩
  accessToken access ha := by
    obtain ⟨htoken, hn⟩ := accessToken_eq_some ha
    rw [merged_accessTokenField] at htoken
    exact ⟨fields, hf, lookup_of_stringValue htoken hn⟩
  refreshToken refresh ha := by
    obtain ⟨htoken, hn⟩ := refreshToken_field ha
    rw [merged_refreshTokenField] at htoken
    cases hl : fields.lookup refreshTokenKey with
    | none =>
      rw [hl] at htoken
      obtain rfl : token = refresh := htoken
      exact hx.refreshToken token hr
    | some value =>
      refine ⟨fields, hf, lookup_of_stringValue ?_ hn⟩
      rw [hl] at htoken ⊢
      exact htoken

omit [DecidableEq C] in
private theorem received_of_issues {i : Nat} {j : Job C} {s : Bytes} {stores : Stores C}
    (hk : Kept (Received lib cfg) (fun _ _ _ _ => True) h stores) (hw : System.Owns h i j)
    (hi : Issues lib (cfg j.chain) j.request (System.log i h) (.setTokenResponse s t)) :
    Received lib cfg h j.chain (cStr s) t := by
  have hl := System.log_sublist hw.own
  generalize hlog : System.log i h = log at hi hl
  cases hi with
  | @save s code a body e e' e'' t hx =>
    obtain ⟨fields, hj, _⟩ := fields_of_parse hx.parses
    exact received_of_parse hj (.exchange rfl rfl ((List.sublist_cons_self _ _).trans hl) hx hj) hx.parses
  | @saveRefreshed s t e token answer e' t' hr hres =>
    obtain ⟨body, fields, rfl, hj, _, rfl⟩ := accepted_of_refreshResult hr.token hres
    obtain ⟨h₂, h₁, hh, _⟩ := hw.split [_] hlog
    have hold : h₁.Sublist h := by
      rw [hh]
      exact (List.sublist_cons_self _ _).trans (List.sublist_append_right _ _)
    exact received_merged ((hk.readTokens h₂ h₁ i j s t e hh).mono hold) hr.token (.refresh rfl rfl hl hr hres hj)

private theorem kept_received (hr : (service lib cfg).Run cond h p) :
    Kept (Received lib cfg) (fun _ _ _ _ => True) h p.shared := by
  refine Run.kept ?_ (fun _ _ _ _ _ _ => trivial) ?_ (fun _ _ _ _ _ _ _ _ _ _ => trivial) hr
  · intro ev h c key t ht
    exact ht.mono (List.sublist_cons_self ev h)
  · intro i j s t e h stores hk hw hi _
    exact (received_of_issues hk hw hi).mono (List.sublist_cons_self _ h)

/-- No token crosses from one session to another. In every run, the tokens that a store holds for a session,
and those forwarded with a request of a session, all came in replies of the identity provider that requests of
the same chain with the same session id accepted. -/
theorem tokens_from_own_session (hr : (service lib cfg).Run (fun _ _ _ => True) h p) :
    (∀ c key t, (p.shared c).tokens key = some t → Received lib cfg h c key t) ∧
    ∀ i j outcome, p.answer? i = some (j, outcome) → outcome.forwardsTokens = true →
      ∃ s t, sessionCookie (cfg j.chain) j.request = some s ∧
        outcome = .returned .ok (addTokensToRequestHeaders (cfg j.chain) .empty t) ∧
        Received lib cfg h j.chain (cStr s) t := by
  have hk := kept_received hr
  refine ⟨hk.tokens, fun i j outcome ht hf => ?_⟩
  obtain ⟨hw, now, hends⟩ := ends_of_answered hr ht
  generalize hlog : System.log i h = log at hends
  cases hends.of_forwardsTokens hf with
  | @stored s t e hs _ _ =>
    obtain ⟨h₂, h₁, rfl, _⟩ := hw.split [] hlog
    refine ⟨s, t, hs.cookie, rfl, (hk.readTokens h₂ h₁ i j s t now rfl).mono ?_⟩
    exact (List.sublist_cons_self _ _).trans (List.sublist_append_right _ _)
  | @refreshed s t e token answer e' t' e'' hs _ =>
    obtain ⟨h₂, h₁, rfl, _⟩ := hw.split [] hlog
    refine ⟨s, t', hs.enters.cookie, rfl, hk.written i j s t' now ?_⟩
    exact List.mem_append_right _ List.mem_cons_self

/-- What a request posts: the code of a callback that answers a login of its session, or the refresh token that
came to its session. -/
inductive Grounds (lib : Libraries) (cfg : C → OIDCConfig) (h : History C) (j : Job C) : PostRequest → Prop
  | exchange {s code : Bytes} {l : Login C} : sessionCookie (cfg j.chain) j.request = some s →
      matchesCallbackRequest (cfg j.chain) j.request = .ok true → l.Begun h j.chain (cStr s) →
      CallbackQuery j.request l.state.val code → Grounds lib cfg h j (retrieveTokenRequest (cfg j.chain) code)
  | refresh {s token : Bytes} {t : TokenResponse} : sessionCookie (cfg j.chain) j.request = some s →
      t.refreshToken = some token → Received lib cfg h j.chain (cStr s) t →
      Grounds lib cfg h j (refreshTokenRequest (cfg j.chain) token)

/-- Secrets go to the configured token endpoint only. In every run, each POST goes to the token URI of its
request's chain, with that chain's authority and proxy, and carries the code that a callback presented with
the state of a login begun for its session, or a refresh token that the identity provider had sent to its
session. -/
theorem posts_grounded {i : Nat} {j : Job C} {q : PostRequest} {r : PostResult} {e : Int}
    (hr : (service lib cfg).Run (fun _ _ _ => True) h p) (hm : .call i j (.post q) r e ∈ h) :
    q.uri = (cfg j.chain).tokenUri ∧ q.caCert = (cfg j.chain).trustedCertificateAuthority ∧
      q.proxyUri = (cfg j.chain).proxyUri ∧ Grounds lib cfg h j q := by
  obtain ⟨h₂, h₁, rfl⟩ := List.append_of_mem hm
  obtain ⟨p₁, x, hr₁, hw, hi, _, _⟩ := hr.call_made (service_follows lib cfg) rfl
  have hold : ∀ {h₀ h₃ : History C} {ev : Moment C}, h₁ = h₃ ++ ev :: h₀ →
      h₀.Sublist (h₂ ++ .call i j (.post q) r e :: h₁) := by
    rintro h₀ h₃ ev rfl
    have hsub := (List.sublist_cons_self ev h₀).trans (List.sublist_append_right h₃ _)
    exact (hsub.cons _).trans (List.sublist_append_right h₂ _)
  generalize hlog : System.log i h₁ = log at hi
  cases hi with
  | @exchange s code a e' hs hq =>
    refine ⟨rfl, rfl, rfl, ?_⟩
    obtain ⟨h₃, h₀, hh, _⟩ := hw.split [] hlog
    obtain ⟨l, rfl, hl⟩ := (kept_logins hr₁).readState h₃ h₀ i j s a e' hh
    have hq : CallbackQuery j.request l.state.val code := by
      simpa [Login.authorizationState, AuthorizationState.create] using hq
    exact .exchange hs.cookie hs.callback_eq { hl with events := hl.events.trans (hold hh) } hq
  | @refresh s t e' token hs =>
    refine ⟨rfl, rfl, rfl, ?_⟩
    obtain ⟨h₃, h₀, hh, _⟩ := hw.split [] hlog
    have ht := (kept_received hr₁).readTokens h₃ h₀ i j s t e' hh
    exact .refresh hs.enters.cookie hs.token (ht.mono (hold hh))

end Runs

section Sample

/-- A visit with the cookie of a finished login is forwarded the tokens of the login's reply. -/
theorem tokens_from_own_session_visit : ∃ (h : History Unit) (p : Requests Unit) (j : Job Unit) (outcome : Outcome)
    (s : Bytes) (t : TokenResponse), sampleService.Run (fun _ _ _ => True) h p ∧ p.answer? 2 = some (j, outcome) ∧
      outcome.forwardsTokens = true ∧ Received sampleLibraries (fun _ => sampleConfig) h () (cStr s) t := by
  obtain ⟨h, p, hr, hc⟩ := System.exists_any_run (show (sampleService.replay (fun _ _ _ => true)
    (logIn 1901001001 ++ [.spawn 2 (visit [sampleCookie]) 1901001002, .call 2 (answering .null) 1901001002])
    ([], sampleService.start)).any (fun c => (c.2.answer? 2).any fun x => x.2.forwardsTokens) = true by decide +kernel)
  obtain ⟨⟨j, outcome⟩, ha, hf⟩ := (Option.any_eq_true _ _).mp hc
  obtain ⟨s, t, _, _, ht⟩ := (tokens_from_own_session hr).2 2 j outcome ha hf
  exact ⟨h, p, j, outcome, s, t, hr, ha, hf, ht⟩

private def isPost : Moment Unit → Bool
  | .call _ _ (.post _) _ _ => true
  | _ => false

private theorem exists_post {ev : Moment Unit} (h : isPost ev = true) :
    ∃ i j q r e, ev = .call i j (.post q) r e := by
  cases ev with
  | spawn i j e => cases h
  | tick u => cases h
  | call i j o r e =>
    cases o with
    | post q => exact ⟨i, j, q, r, e, rfl⟩
    | _ => cases h

/-- The code exchange of a login. -/
theorem posts_grounded_login : ∃ (h : History Unit) (p : Requests Unit) (i : Nat) (j : Job Unit) (q : PostRequest)
    (r : PostResult) (e : Int), sampleService.Run (fun _ _ _ => True) h p ∧ .call i j (.post q) r e ∈ h ∧
      q.uri = sampleConfig.tokenUri ∧ Grounds sampleLibraries (fun _ => sampleConfig) h j q := by
  obtain ⟨h, p, hr, hc⟩ := System.exists_any_run (show (sampleService.replay (fun _ _ _ => true) (logIn 1901001001)
    ([], sampleService.start)).any (fun c => c.1.any isPost) = true by decide +kernel)
  obtain ⟨ev, hm, hev⟩ := List.any_eq_true.mp hc
  obtain ⟨i, j, q, r, e, rfl⟩ := exists_post hev
  obtain ⟨hu, _, _, hg⟩ := posts_grounded hr hm
  exact ⟨h, p, i, j, q, r, e, hr, hm, hu, hg⟩

end Sample
end AuthService.Filters.Oidc
