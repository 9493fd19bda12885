import AuthService.Common.Http.Serialization
import AuthService.Common.Http.Uri
import AuthService.Filters.Oidc.Login

/-! The authorization request: what a redirect to the identity provider asks for, the cookie it
sets, and the state and nonce it leaves in the store. -/
namespace AuthService.Filters.Oidc
open Lib Common.Http Config OidcFilter

section Scopes
variable {x y : Bytes} {s : List Bytes}

private theorem mem_insertSet : y ∈ insertSet x s ↔ y = x ∨ y ∈ s := by
  induction s with
  | nil => simp [insertSet]
  | cons z s ih =>
    unfold insertSet
    split
    · exact List.mem_cons
    · split
      · rename_i h
        simp [h]
      · simp only [List.mem_cons, ih, or_left_comm]

private theorem pairwise_insertSet (h : s.Pairwise (· < ·)) : (insertSet x s).Pairwise (· < ·) := by
  induction s with
  | nil => exact List.pairwise_singleton _ _
  | cons z s ih =>
    obtain ⟨hz, hs⟩ := List.pairwise_cons.mp h
    unfold insertSet
    split
    · rename_i hlt
      refine List.pairwise_cons.mpr ⟨fun y hy => ?_, h⟩
      rcases List.mem_cons.mp hy with rfl | hy
      · exact hlt
      · exact List.lt_trans hlt (hz y hy)
    · split
      · exact h
      · rename_i hle hne
        refine List.pairwise_cons.mpr ⟨fun y hy => ?_, ih hs⟩
        rcases mem_insertSet.mp hy with rfl | hy
        · exact Std.lt_of_le_of_ne hle (Ne.symm hne)
        · exact hz y hy

private theorem foldl_insertSet (xs : List Bytes) (hs : s.Pairwise (· < ·)) :
    (∀ y, y ∈ xs.foldl (fun s x => insertSet x s) s ↔ y ∈ xs ∨ y ∈ s) ∧
      (xs.foldl (fun s x => insertSet x s) s).Pairwise (· < ·) := by
  -- the elements met so far are kept in strictly increasing order
  induction xs generalizing s with
  | nil => simpa using hs
  | cons x xs ih =>
    obtain ⟨hmem, hsorted⟩ := ih (pairwise_insertSet (x := x) hs)
    refine ⟨fun y => ?_, hsorted⟩
    rw [List.foldl_cons, hmem, mem_insertSet, List.mem_cons, or_left_comm, or_assoc]

/-- A set lists each of its elements once. -/
theorem count_setOf (xs : List Bytes) (y : Bytes) : (OidcFilter.setOf xs).count y = if y ∈ xs then 1 else 0 := by
  obtain ⟨hmem, hsorted⟩ := foldl_insertSet xs List.Pairwise.nil
  have hnodup : (OidcFilter.setOf xs).Nodup := by
    refine hsorted.imp fun {a b} hlt heq => ?_
    subst heq
    exact List.lt_irrefl a hlt
  have hiff : y ∈ OidcFilter.setOf xs ↔ y ∈ xs := (hmem y).trans (by simp)
  rw [hnodup.count, if_congr hiff rfl rfl]

end Scopes

/-- What an authorization request is built from. -/
structure Writable (cfg : OIDCConfig) : Prop where
  authorizationUri : NulFree cfg.authorizationUri
  plain : PathQueryFragment.Plain cfg.authorizationUri
  clientId : NulFree cfg.clientId
  callbackUri : NulFree cfg.callbackUri
  cookieNamePrefix : NulFree cfg.cookieNamePrefix
  scopes : ∀ scope ∈ cfg.scopes, NulFree scope ∧ ' '.toUInt8 ∉ scope

/-- A location that asks the configured identity provider for a code: the six parameters, and in
the scope each configured one and `openid` once. -/
structure AsksFor (cfg : OIDCConfig) (state nonce location : Bytes) : Prop where
  parameters : ∃ query data scope, PathQueryFragment.parse location = ⟨cfg.authorizationUri, query, []⟩ ∧
    decodeQueryData query = some data ∧
    data.entries.Perm [(text "response_type", text "code"), (text "scope", scope), (text "client_id", cfg.clientId),
      (text "nonce", nonce), (text "state", state), (text "redirect_uri", cfg.callbackUri)] ∧
    ∀ s, (scope.splitOn ' '.toUInt8).count s = if s ∈ text "openid" :: cfg.scopes then 1 else 0

section Location
variable {cfg : OIDCConfig}

private def requestedScopes (cfg : OIDCConfig) : List Bytes := OidcFilter.setOf (text "openid" :: cfg.scopes)

private theorem count_requestedScopes (s : Bytes) :
    (requestedScopes cfg).count s = if s ∈ text "openid" :: cfg.scopes then 1 else 0 :=
  count_setOf _ s

variable (hc : Writable cfg)
include hc

private theorem scope_free {s : Bytes} (hs : s ∈ requestedScopes cfg) : NulFree s ∧ ' '.toUInt8 ∉ s := by
  have hcount : 0 < (requestedScopes cfg).count s := List.count_pos_iff.mpr hs
  rw [count_requestedScopes] at hcount
  split at hcount
  · rename_i hin
    rcases List.mem_cons.mp hin with rfl | hin
    · exact ⟨by decide, by decide⟩
    · exact hc.scopes s hin
  · exact absurd hcount (Nat.lt_irrefl 0)

private theorem splitOn_scope :
    ((text " ").intercalate (requestedScopes cfg)).splitOn ' '.toUInt8 = requestedScopes cfg := by
  refine List.splitOn_intercalate _ (fun s hs => (scope_free hc hs).2) fun hnil => ?_
  have hopenid : (requestedScopes cfg).count (text "openid") = _ := count_requestedScopes _
  rw [hnil, if_pos List.mem_cons_self] at hopenid
  cases hopenid

private theorem nulFree_scope : NulFree ((text " ").intercalate (requestedScopes cfg)) := by
  intro h
  rcases mem_of_mem_intercalate h with hsep | ⟨s, hs, hin⟩
  · exact absurd hsep (by decide)
  · exact (scope_free hc hs).1 hin

private theorem nulFree_redirectLocation (state nonce : Bytes) : NulFree (redirectLocation cfg state nonce) := by
  refine nulFree_append.mpr ⟨nulFree_append.mpr ⟨hc.authorizationUri, by decide⟩, ?_⟩
  exact notMem_encodeQueryData (by decide) (by decide) (by decide) (by decide) _

private theorem asksFor_redirectLocation {state nonce : Bytes} (hs : NulFree state) (hn : NulFree nonce) :
    AsksFor cfg state nonce (redirectLocation cfg state nonce) := by
  have hentries : (authorizationParams cfg state nonce).entries.Perm [(text "response_type", text "code"),
      (text "scope", (text " ").intercalate (requestedScopes cfg)), (text "client_id", cfg.clientId),
      (text "nonce", nonce), (text "state", state), (text "redirect_uri", cfg.callbackUri)] :=
    Multimap.ofList_perm _
  have hquery : redirectLocation cfg state nonce =
      cfg.authorizationUri ++ '?'.toUInt8 :: encodeQueryData (authorizationParams cfg state nonce) := by
    rw [redirectLocation, List.append_assoc]
    rfl
  refine ⟨encodeQueryData (authorizationParams cfg state nonce), authorizationParams cfg state nonce,
    (text " ").intercalate (requestedScopes cfg), ?_, ?_, hentries, ?_⟩
  · have hhash := notMem_encodeQueryData (b := '#'.toUInt8) (by decide) (by decide) (by decide) (by decide)
      (authorizationParams cfg state nonce)
    have hnul := notMem_encodeQueryData (b := 0) (by decide) (by decide) (by decide) (by decide)
      (authorizationParams cfg state nonce)
    rw [hquery, PathQueryFragment.parse_query hc.plain hhash, cStr_of_nulFree hnul]
  · refine decodeQueryData_encodeQueryData (fun hnil => ?_) fun p hp => ?_
    · rw [hnil] at hentries
      cases hentries.length_eq
    · have hp := hentries.mem_iff.mp hp
      simp only [List.mem_cons, List.not_mem_nil, or_false] at hp
      rcases hp with rfl | rfl | rfl | rfl | rfl | rfl
      · exact ⟨by decide, by decide⟩
      · exact ⟨show NulFree (text "scope") by decide, nulFree_scope hc⟩
      · exact ⟨show NulFree (text "client_id") by decide, hc.clientId⟩
      · exact ⟨show NulFree (text "nonce") by decide, hn⟩
      · exact ⟨show NulFree (text "state") by decide, hs⟩
      · exact ⟨show NulFree (text "redirect_uri") by decide, hc.callbackUri⟩
  · intro s
    rw [splitOn_scope hc, count_requestedScopes]

end Location

section Headers
variable {cfg : OIDCConfig} {response : CheckResponse} {d : DeniedHttpResponse}

theorem deniedResponse_setRedirectHeaders {url : Bytes} (hu : NulFree url) (hd : response.deniedResponse = some d) :
    (setRedirectHeaders url response).deniedResponse =
      some { d with status := .found, headers := d.headers ++ [⟨Headers.location, url⟩] } := by
  have hlocation : cStr Headers.location = Headers.location := by decide
  rw [setRedirectHeaders, CheckResponse.deniedResponse_mutableDeniedResponse, hd, Option.getD_some, setHeader,
    hlocation, cStr_cStr, cStr_of_nulFree hu]

theorem notMem_getSessionIdCookieName {c : UInt8} (hc : c ∉ text "__Host-authservice-session-id-cookie")
    (hp : c ∉ cfg.cookieNamePrefix) : c ∉ getSessionIdCookieName cfg := by
  -- the fixed parts of the name are made of the bytes of the name without a configured part
  have hparts : ∀ part ∈ [text "__Host-authservice-", text "__Host-", text "-authservice-", text "session-id",
      text "-cookie"], part ⊆ text "__Host-authservice-session-id-cookie" := by decide
  simp only [List.forall_mem_cons] at hparts
  obtain ⟨hplain, hhost, hauth, hid, hcookie, -⟩ := hparts
  unfold getSessionIdCookieName getCookieName
  split <;> simp only [List.mem_append, not_or]
  · exact ⟨⟨fun h => hc (hplain h), fun h => hc (hid h)⟩, fun h => hc (hcookie h)⟩
  · exact ⟨⟨⟨⟨fun h => hc (hhost h), hp⟩, fun h => hc (hauth h)⟩, fun h => hc (hid h)⟩, fun h => hc (hcookie h)⟩

/-- The Set-Cookie header that a redirect to the identity provider sends. -/
theorem deniedResponse_setSessionIdCookie (s : SessionString) (hp : NulFree cfg.cookieNamePrefix)
    (hd : response.deniedResponse = some d) :
    (setSessionIdCookie cfg s.val response).deniedResponse = some { d with
      headers := d.headers ++ [⟨Headers.setCookie, joinCookie (getSessionIdCookieName cfg, s.val) ++
        text "; HttpOnly; Path=/; SameSite=Lax; Secure"⟩] } := by
  have hname : NulFree (getSessionIdCookieName cfg) := notMem_getSessionIdCookieName (by decide) hp
  have hkey : cStr Headers.setCookie = Headers.setCookie := by decide
  have hdirectives : (getCookieDirectives noTimeout).flatMap (fun d => text "; " ++ cStr d) =
      text "; HttpOnly; Path=/; SameSite=Lax; Secure" := by decide
  have hfree : NulFree (joinCookie (getSessionIdCookieName cfg, s.val) ++
      text "; HttpOnly; Path=/; SameSite=Lax; Secure") := by
    have heq : NulFree ['='.toUInt8] := by decide
    refine nulFree_append.mpr ⟨nulFree_append.mpr ⟨hname, ?_⟩, by decide⟩
    exact nulFree_append.mpr ⟨heq, nulFree_sessionString s⟩
  have hvalue : cStr (encodeSetCookie (getSessionIdCookieName cfg) s.val (getCookieDirectives noTimeout)) =
      joinCookie (getSessionIdCookieName cfg, s.val) ++ text "; HttpOnly; Path=/; SameSite=Lax; Secure" := by
    rw [encodeSetCookie, hdirectives, cStr_of_nulFree hname, cStr_sessionString]
    exact cStr_of_nulFree hfree
  rw [setSessionIdCookie, CheckResponse.deniedResponse_mutableDeniedResponse, hd, Option.getD_some, setCookie,
    setHeader, hkey, hvalue]

end Headers

section Redirect
variable {cfg : OIDCConfig} {now : Int} {x : External} {http : HttpRequest} {response : CheckResponse}
  {store : InMemorySessionStore}

/-- A redirect to the identity provider forgets the old session and begins the one it drew. -/
theorem run_redirectToIdp (old : Option Bytes) :
    (redirectToIdp cfg response http old).run now (Op.exec now x) store =
      (.returned .unauthenticated (setSessionIdCookie cfg x.sessionId.val
        (setRedirectHeaders (redirectLocation cfg x.state.val x.nonce.val) (setStandardResponseHeaders response))),
      (old.elim store store.removeSession).setAuthorizationState now x.sessionId.val
        (.create x.state.val x.nonce.val (getRequestUrl http))) := by
  cases old with
  | none => simp [redirectToIdp, Op.exec]
  | some old => simp [redirectToIdp, Op.exec]

/-- The authorization request says what was configured: the location splits into the configured URI
and a query of the six parameters, whose state and nonce are stored under the cookie's session id. -/
theorem authorization_request (cfg : OIDCConfig) (now : Int) (x : External) (http : HttpRequest)
    (response : CheckResponse) (old : Option Bytes) (store : InMemorySessionStore) (hc : Writable cfg) :
    ∃ standard location r store' a,
      (setStandardResponseHeaders response).deniedResponse = some standard ∧
      (redirectToIdp cfg response http old).run now (Op.exec now x) store =
        (.returned .unauthenticated r, store') ∧
      r.deniedResponse = some { standard with
        status := .found
        headers := standard.headers ++ [⟨Headers.location, location⟩,
          ⟨Headers.setCookie, joinCookie (getSessionIdCookieName cfg, x.sessionId.val) ++
            text "; HttpOnly; Path=/; SameSite=Lax; Secure"⟩] } ∧
      store'.pending x.sessionId.val = some a ∧ a.state = x.state.val ∧ a.nonce = x.nonce.val ∧
      AsksFor cfg a.state a.nonce location := by
  obtain ⟨standard, hstandard⟩ :
      ∃ standard, (setStandardResponseHeaders response).deniedResponse = some standard := ⟨_, rfl⟩
  have hlocation := deniedResponse_setRedirectHeaders (nulFree_redirectLocation hc x.state.val x.nonce.val) hstandard
  have hpending : ((old.elim store store.removeSession).setAuthorizationState now x.sessionId.val
      (.create x.state.val x.nonce.val (getRequestUrl http))).pending (cStr x.sessionId.val) = some _ :=
    InMemorySessionStore.pending_setAuthorizationState _ _ _
  rw [cStr_sessionString] at hpending
  have hstate : (AuthorizationState.create x.state.val x.nonce.val (getRequestUrl http)).state = x.state.val :=
    cStr_sessionString x.state
  have hnonce : (AuthorizationState.create x.state.val x.nonce.val (getRequestUrl http)).nonce = x.nonce.val :=
    cStr_sessionString x.nonce
  refine ⟨standard, redirectLocation cfg x.state.val x.nonce.val, _, _, _, hstandard, run_redirectToIdp old, ?_,
    hpending, hstate, hnonce, ?_⟩
  · rw [deniedResponse_setSessionIdCookie x.sessionId hc.cookieNamePrefix hlocation, List.append_assoc]
    rfl
  · rw [hstate, hnonce]
    exact asksFor_redirectLocation hc (nulFree_sessionString _) (nulFree_sessionString _)

private def scopedConfig : OIDCConfig :=
  { sampleConfig with
    clientId := text "client 1&2"
    scopes := [text "profile", text "openid", text "email", text "profile"] }

theorem authorization_request_scoped :
    ∃ r denied location, ((redirectToIdp scopedConfig .empty (visit []).request.http none).run 1901001001
        (Op.exec 1901001001 (answering .null)) (.create 0 0)).1 = .returned .unauthenticated r ∧
      r.deniedResponse = some denied ∧ ⟨Headers.location, location⟩ ∈ denied.headers ∧
      AsksFor scopedConfig (text "some-state") (text "random") location := by
  have hc : Writable scopedConfig :=
    ⟨by decide +kernel, ⟨by decide +kernel, by decide +kernel⟩, by decide +kernel, by decide +kernel,
      by decide +kernel, by decide +kernel⟩
  obtain ⟨standard, location, r, store', a, -, hrun, hdenied, -, hstate, hnonce, hasks⟩ :=
    authorization_request scopedConfig 1901001001 (answering .null) (visit []).request.http .empty none
      (.create 0 0) hc
  rw [hstate, hnonce] at hasks
  exact ⟨r, _, location, congrArg Prod.fst hrun, hdenied, List.mem_append_right _ List.mem_cons_self, hasks⟩

end Redirect
end AuthService.Filters.Oidc
