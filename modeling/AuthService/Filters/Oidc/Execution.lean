import AuthService.Filters.Oidc.OidcFilter

/-! What the filter's calls do to a session store, and `Process` run from start to end. -/
namespace AuthService.Filters.Oidc
open Lib Common.Http Config

/-- What the store does not decide: the generator's strings and the identity provider. -/
structure External where
  sessionId : SessionString
  state : SessionString
  nonce : SessionString
  idp : PostRequest → PostResult

def Op.exec (now : Int) (x : External) : (o : Op) → InMemorySessionStore → o.Res × InMemorySessionStore
  | .getTokenResponse s, store => store.getTokenResponse now s
  | .setTokenResponse s t, store => ((), store.setTokenResponse now s t)
  | .getAuthorizationState s, store => store.getAuthorizationState now s
  | .setAuthorizationState s a, store => ((), store.setAuthorizationState now s a)
  | .clearAuthorizationState s, store => ((), store.clearAuthorizationState now s)
  | .removeSession s, store => ((), store.removeSession s)
  | .generateSessionId, store => (x.sessionId, store)
  | .generateState, store => (x.state, store)
  | .generateNonce, store => (x.nonce, store)
  | .post q, store => (x.idp q, store)

namespace InMemorySessionStore

/-- The token response a key holds. -/
def tokens (store : InMemorySessionStore) (key : Bytes) : Option TokenResponse :=
  (store.entry key).bind (·.tokenResponse)

/-- The authorization state a key holds. -/
def pending (store : InMemorySessionStore) (key : Bytes) : Option AuthorizationState :=
  (store.entry key).bind (·.authorizationState)

variable {store : InMemorySessionStore} {key : Bytes}

@[simp] theorem tokens_setTokenResponse (now : Int) (s : Bytes) (t : TokenResponse) :
    (store.setTokenResponse now s t).tokens (cStr s) = some t := by
  simp [tokens, setTokenResponse]

@[simp] theorem pending_setAuthorizationState (now : Int) (s : Bytes) (a : AuthorizationState) :
    (store.setAuthorizationState now s a).pending (cStr s) = some a := by
  simp [pending, setAuthorizationState]

theorem hasKey_of_tokens {t : TokenResponse} (h : store.tokens key = some t) : store.HasKey key := by
  obtain ⟨session, hs, _⟩ := Option.bind_eq_some_iff.mp h
  simp [HasKey, hs]

theorem hasKey_removeAllExpired {nowAdded nowIdle : Int}
    (h : (store.removeAllExpired nowAdded nowIdle).HasKey key) : store.HasKey key := by
  simp only [HasKey, entry_removeAllExpired] at h ⊢
  exact Option.isSome_of_isSome_filter _ _ h

theorem tokens_removeAllExpired {nowAdded nowIdle : Int} {t : TokenResponse}
    (h : (store.removeAllExpired nowAdded nowIdle).tokens key = some t) : store.tokens key = some t := by
  obtain ⟨session, hs, ht⟩ := Option.bind_eq_some_iff.mp h
  rw [entry_removeAllExpired] at hs
  exact Option.bind_eq_some_iff.mpr ⟨session, (Option.filter_eq_some_iff.mp hs).1, ht⟩

theorem pending_removeAllExpired {nowAdded nowIdle : Int} {a : AuthorizationState}
    (h : (store.removeAllExpired nowAdded nowIdle).pending key = some a) : store.pending key = some a := by
  obtain ⟨session, hs, ha⟩ := Option.bind_eq_some_iff.mp h
  rw [entry_removeAllExpired] at hs
  exact Option.bind_eq_some_iff.mpr ⟨session, (Option.filter_eq_some_iff.mp hs).1, ha⟩

end InMemorySessionStore

namespace Op

/-- The session an operation names. -/
def session? : Op → Option Bytes
  | .getTokenResponse s => some s
  | .setTokenResponse s _ => some s
  | .getAuthorizationState s => some s
  | .setAuthorizationState s _ => some s
  | .clearAuthorizationState s => some s
  | .removeSession s => some s
  | .generateSessionId => none
  | .generateState => none
  | .generateNonce => none
  | .post _ => none

/-- What an operation does to the session it names. -/
def effect (now : Int) : Op → Option Session → Option Session
  | .setTokenResponse _ t, session =>
    some (.setTokenResponse t ((session.map (·.setTimeMostRecentlyAccessed now)).getD (.create now)))
  | .setAuthorizationState _ a, session =>
    some (.setAuthorizationState a ((session.map (·.setTimeMostRecentlyAccessed now)).getD (.create now)))
  | .clearAuthorizationState _, session =>
    session.map fun s => (s.setTimeMostRecentlyAccessed now).clearAuthorizationState
  | .removeSession _, _ => none
  | _, session => session.map (·.setTimeMostRecentlyAccessed now)

variable {now : Int} {x : External} {o : Op} {store : InMemorySessionStore} {key s : Bytes}

/-- An operation changes the session it names and nothing else. -/
theorem entry_exec : (o.exec now x store).2.entry key =
    if o.session?.map cStr = some key then o.effect now (store.entry key) else store.entry key := by
  cases o <;> simp [exec, session?, effect, InMemorySessionStore.setTokenResponse,
    InMemorySessionStore.setAuthorizationState, eq_comm (a := key)]

@[simp] theorem exec_getTokenResponse :
    ((Op.getTokenResponse s).exec now x store).1 = store.tokens (cStr s) :=
  InMemorySessionStore.getTokenResponse_fst now s

@[simp] theorem exec_getAuthorizationState :
    ((Op.getAuthorizationState s).exec now x store).1 = store.pending (cStr s) :=
  InMemorySessionStore.getAuthorizationState_fst now s

/-- A read changes no tokens. -/
@[simp] theorem tokens_getTokenResponse :
    ((Op.getTokenResponse s).exec now x store).2.tokens key = store.tokens key := by
  unfold InMemorySessionStore.tokens
  rw [entry_exec]
  split <;> cases store.entry key <;> simp [effect]

/-- A key appears only by being set. -/
theorem exec_hasKey (h : (o.exec now x store).2.HasKey key) :
    store.HasKey key ∨ (∃ s t, o = .setTokenResponse s t ∧ cStr s = key) ∨
      ∃ s a, o = .setAuthorizationState s a ∧ cStr s = key := by
  unfold InMemorySessionStore.HasKey at h ⊢
  rw [entry_exec] at h
  split at h
  · cases o <;> simp_all [effect, session?]
  · exact .inl h

/-- A token response appears only by being set. -/
theorem exec_tokens {t : TokenResponse} (h : (o.exec now x store).2.tokens key = some t) :
    store.tokens key = some t ∨ ∃ s, o = .setTokenResponse s t ∧ cStr s = key := by
  unfold InMemorySessionStore.tokens at h ⊢
  rw [entry_exec] at h
  split at h
  · cases o <;> cases hk : store.entry key <;> simp_all [effect, session?]
  · exact .inl h

/-- An authorization state appears only by being set. -/
theorem exec_pending {a : AuthorizationState} (h : (o.exec now x store).2.pending key = some a) :
    store.pending key = some a ∨ ∃ s, o = .setAuthorizationState s a ∧ cStr s = key := by
  unfold InMemorySessionStore.pending at h ⊢
  rw [entry_exec] at h
  split at h
  · cases o <;> cases hk : store.entry key <;> simp_all [effect, session?]
  · exact .inl h

end Op

/-- One request processed alone, from an empty response. -/
def OidcFilter.runProcess (lib : Libraries) (cfg : OIDCConfig) (now : Int) (x : External)
    (request : CheckRequest) (store : InMemorySessionStore) : Outcome × InMemorySessionStore :=
  (OidcFilter.process cfg lib request .empty).run now (Op.exec now x) store

end AuthService.Filters.Oidc
