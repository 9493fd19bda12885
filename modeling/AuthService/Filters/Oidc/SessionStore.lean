import AuthService.Filters.Oidc.TokenResponse
import AuthService.Lib.Containers

/-! The in-memory session store. Every operation holds the store's mutex throughout, so it is
one step; it receives the clock readings it makes. -/
namespace AuthService.Filters.Oidc
open Lib

structure AuthorizationState where
  state : Bytes
  nonce : Bytes
  requestedUrl : Bytes
  deriving DecidableEq, Repr

def AuthorizationState.create (state nonce requestedUrl : Bytes) : AuthorizationState :=
  ⟨cStr state, cStr nonce, cStr requestedUrl⟩

structure Session where
  tokenResponse : Option TokenResponse
  authorizationState : Option AuthorizationState
  timeAdded : Int
  timeAccessed : Int
  deriving DecidableEq, Repr

namespace Session

@[simps] def create (timeAdded : Int) : Session := ⟨none, none, uint32 timeAdded, uint32 timeAdded⟩

@[simps] def setTimeMostRecentlyAccessed (now : Int) (s : Session) : Session := { s with timeAccessed := uint32 now }

@[simps] def setTokenResponse (t : TokenResponse) (s : Session) : Session := { s with tokenResponse := some t }

@[simps] def setAuthorizationState (a : AuthorizationState) (s : Session) : Session :=
  { s with authorizationState := some a }

@[simps] def clearAuthorizationState (s : Session) : Session := { s with authorizationState := none }

end Session

structure InMemorySessionStore where
  sessionMap : AList fun _ : Bytes => Session
  absoluteSessionTimeout : UInt32
  idleSessionTimeout : UInt32

namespace InMemorySessionStore

def create (absoluteSessionTimeout idleSessionTimeout : UInt32) : InMemorySessionStore :=
  ⟨∅, absoluteSessionTimeout, idleSessionTimeout⟩

variable (store : InMemorySessionStore)

/-- The session stored under a key. -/
def entry (key : Bytes) : Option Session := store.sessionMap.lookup key

def findSession (sessionId : Bytes) : Option Session := store.entry (cStr sessionId)

def emplace (sessionId : Bytes) (session : Session) : InMemorySessionStore :=
  { store with sessionMap := store.sessionMap.insert (cStr sessionId) session }

def set (now : Int) (sessionId : Bytes) (setter : Session → Session) : InMemorySessionStore :=
  match store.findSession sessionId with
  | some session => store.emplace sessionId (setter (session.setTimeMostRecentlyAccessed now))
  | none => store.emplace sessionId (setter (.create now))

def setTokenResponse (now : Int) (sessionId : Bytes) (t : TokenResponse) : InMemorySessionStore :=
  store.set now sessionId (.setTokenResponse t)

def setAuthorizationState (now : Int) (sessionId : Bytes) (a : AuthorizationState) : InMemorySessionStore :=
  store.set now sessionId (.setAuthorizationState a)

def getTokenResponse (now : Int) (sessionId : Bytes) : Option TokenResponse × InMemorySessionStore :=
  match store.findSession sessionId with
  | none => (none, store)
  | some session => (session.tokenResponse, store.emplace sessionId (session.setTimeMostRecentlyAccessed now))

def getAuthorizationState (now : Int) (sessionId : Bytes) : Option AuthorizationState × InMemorySessionStore :=
  match store.findSession sessionId with
  | none => (none, store)
  | some session => (session.authorizationState, store.emplace sessionId (session.setTimeMostRecentlyAccessed now))

def clearAuthorizationState (now : Int) (sessionId : Bytes) : InMemorySessionStore :=
  match store.findSession sessionId with
  | none => store
  | some session =>
    store.emplace sessionId (session.setTimeMostRecentlyAccessed now).clearAuthorizationState

def removeSession (sessionId : Bytes) : InMemorySessionStore :=
  { store with sessionMap := store.sessionMap.erase (cStr sessionId) }

/-- The test of the clean-up loop, on the two readings made before the mutex is taken. -/
def expired (nowAdded nowIdle : Int) (session : Session) : Bool :=
  (0 < store.absoluteSessionTimeout && session.timeAdded < nowAdded - store.absoluteSessionTimeout.toNat) ||
  (0 < store.idleSessionTimeout && session.timeAccessed < nowIdle - store.idleSessionTimeout.toNat)

def removeAllExpired (nowAdded nowIdle : Int) : InMemorySessionStore :=
  { store with sessionMap := keepEntries (fun x => !store.expired nowAdded nowIdle x.2) store.sessionMap }

/-- The key is in the store. -/
def HasKey (key : Bytes) : Prop := (store.entry key).isSome

variable {store} (now : Int) (sessionId key : Bytes)

@[simp] theorem entry_create (a i : UInt32) : (create a i).entry key = none := rfl

@[simp] theorem entry_emplace (session : Session) :
    (store.emplace sessionId session).entry key = if key = cStr sessionId then some session else store.entry key := by
  unfold entry emplace
  split
  · rename_i h
    rw [h, AList.lookup_insert]
  · rename_i h
    rw [AList.lookup_insert_ne h]

@[simp] theorem entry_set (setter : Session → Session) :
    (store.set now sessionId setter).entry key =
      if key = cStr sessionId then
        some (setter (((store.entry key).map (·.setTimeMostRecentlyAccessed now)).getD (.create now)))
      else store.entry key := by
  unfold set findSession
  split <;> rename_i h <;> rw [entry_emplace] <;> split <;> rename_i hk
  · simp [hk, h]
  · rfl
  · simp [hk, h]
  · rfl

@[simp] theorem getTokenResponse_fst :
    (store.getTokenResponse now sessionId).1 = (store.entry (cStr sessionId)).bind (·.tokenResponse) := by
  unfold getTokenResponse findSession
  cases store.entry (cStr sessionId) <;> rfl

@[simp] theorem getAuthorizationState_fst :
    (store.getAuthorizationState now sessionId).1 =
      (store.entry (cStr sessionId)).bind (·.authorizationState) := by
  unfold getAuthorizationState findSession
  cases store.entry (cStr sessionId) <;> rfl

private theorem entry_inPlace (f : Session → Session) :
    (match store.findSession sessionId with
      | none => store
      | some session => store.emplace sessionId (f session)).entry key =
      if key = cStr sessionId then (store.entry key).map f else store.entry key := by
  unfold findSession
  by_cases hk : key = cStr sessionId
  · subst hk
    cases h : store.entry (cStr sessionId) <;> simp [h]
  · cases h : store.entry (cStr sessionId) <;> simp [hk]

@[simp] theorem entry_getTokenResponse :
    (store.getTokenResponse now sessionId).2.entry key =
      if key = cStr sessionId then (store.entry key).map (·.setTimeMostRecentlyAccessed now)
      else store.entry key := by
  rw [← entry_inPlace]
  unfold getTokenResponse
  cases store.findSession sessionId <;> rfl

@[simp] theorem entry_getAuthorizationState :
    (store.getAuthorizationState now sessionId).2.entry key =
      if key = cStr sessionId then (store.entry key).map (·.setTimeMostRecentlyAccessed now)
      else store.entry key := by
  rw [← entry_inPlace]
  unfold getAuthorizationState
  cases store.findSession sessionId <;> rfl

@[simp] theorem entry_clearAuthorizationState :
    (store.clearAuthorizationState now sessionId).entry key =
      if key = cStr sessionId then
        (store.entry key).map (fun s => (s.setTimeMostRecentlyAccessed now).clearAuthorizationState)
      else store.entry key :=
  entry_inPlace sessionId key _

@[simp] theorem entry_removeSession :
    (store.removeSession sessionId).entry key = if key = cStr sessionId then none else store.entry key := by
  unfold entry removeSession
  split
  · rename_i h
    rw [h, AList.lookup_erase]
  · rename_i h
    rw [AList.lookup_erase_ne h]

@[simp] theorem entry_removeAllExpired (nowAdded nowIdle : Int) :
    (store.removeAllExpired nowAdded nowIdle).entry key =
      (store.entry key).filter (fun s => !store.expired nowAdded nowIdle s) :=
  lookup_keepEntries _ _ _

end InMemorySessionStore
end AuthService.Filters.Oidc
