import AuthService.Filters.Oidc.Execution

/-! The session store as a function of the operations made on it. The specification reads a
history, the newest operation first, and names no store. -/
namespace AuthService.Filters.Oidc

inductive StoreOp where
  | setTokenResponse (sessionId : Bytes) (tokenResponse : TokenResponse)
  | getTokenResponse (sessionId : Bytes)
  | setAuthorizationState (sessionId : Bytes) (authorizationState : AuthorizationState)
  | getAuthorizationState (sessionId : Bytes)
  | clearAuthorizationState (sessionId : Bytes)
  | removeSession (sessionId : Bytes)
  | removeAllExpired (nowAdded nowIdle : Int)
  deriving DecidableEq

namespace StoreOp

def sets (s : Bytes) : StoreOp → Bool
  | .setTokenResponse s' _ => s' = s
  | .setAuthorizationState s' _ => s' = s
  | _ => false

/-- Set, Get or Clear. -/
def touches (s : Bytes) : StoreOp → Bool
  | .setTokenResponse s' _ => s' = s
  | .getTokenResponse s' => s' = s
  | .setAuthorizationState s' _ => s' = s
  | .getAuthorizationState s' => s' = s
  | .clearAuthorizationState s' => s' = s
  | _ => false

def tokensFor? (s : Bytes) : StoreOp → Option TokenResponse
  | .setTokenResponse s' t => if s' = s then some t else none
  | _ => none

/-- What an operation leaves as the authorization state, when it says. -/
def pendingFor? (s : Bytes) : StoreOp → Option (Option AuthorizationState)
  | .setAuthorizationState s' a => if s' = s then some (some a) else none
  | .clearAuthorizationState s' => if s' = s then some none else none
  | _ => none

/-- Session ids without NUL. -/
def NulFree : StoreOp → Prop
  | .setTokenResponse s _ => AuthService.NulFree s
  | .getTokenResponse s => AuthService.NulFree s
  | .setAuthorizationState s _ => AuthService.NulFree s
  | .getAuthorizationState s => AuthService.NulFree s
  | .clearAuthorizationState s => AuthService.NulFree s
  | .removeSession s => AuthService.NulFree s
  | .removeAllExpired _ _ => True

def apply (now : Int) (store : InMemorySessionStore) : StoreOp → InMemorySessionStore
  | .setTokenResponse s t => store.setTokenResponse now s t
  | .getTokenResponse s => (store.getTokenResponse now s).2
  | .setAuthorizationState s a => store.setAuthorizationState now s a
  | .getAuthorizationState s => (store.getAuthorizationState now s).2
  | .clearAuthorizationState s => store.clearAuthorizationState now s
  | .removeSession s => store.removeSession s
  | .removeAllExpired nowAdded nowIdle => store.removeAllExpired nowAdded nowIdle

end StoreOp

/-- An operation at the time it holds the mutex. -/
structure Timed where
  time : Int
  op : StoreOp
  deriving DecidableEq

section
variable (A I : UInt32) (s : Bytes)

def replay : List Timed → InMemorySessionStore
  | [] => .create A I
  | e :: h => e.op.apply e.time (replay h)

/-- The time of the first Set. -/
def created? (recent : List Timed) : Option Int := ((recent.filter (·.op.sets s)).getLast?).map (·.time)

/-- The time of the latest Get, Set or Clear. -/
def accessed? (recent : List Timed) : Option Int := (recent.find? (·.op.touches s)).map (·.time)

def lastTokens? (recent : List Timed) : Option TokenResponse := recent.findSome? (·.op.tokensFor? s)

def lastPending? (recent : List Timed) : Option AuthorizationState :=
  (recent.findSome? (·.op.pendingFor? s)).join

/-- Past the absolute timeout at one reading of the clock, or past the idle timeout at the other. -/
def Overdue (added accessed nowAdded nowIdle : Int) : Prop :=
  (0 < A ∧ (A.toNat : Int) < nowAdded - added) ∨ (0 < I ∧ (I.toNat : Int) < nowIdle - accessed)

instance (added accessed nowAdded nowIdle : Int) : Decidable (Overdue A I added accessed nowAdded nowIdle) :=
  inferInstanceAs (Decidable (_ ∨ _))

/-- Whether an operation removes a session with these operations since its last removal. -/
def endsSession (recent : List Timed) : StoreOp → Bool
  | .removeSession s' => s' = s
  | .removeAllExpired nowAdded nowIdle =>
    ∃ added ∈ created? s recent, ∃ accessed ∈ accessed? s recent, Overdue A I added accessed nowAdded nowIdle
  | _ => false

/-- The operations after the last removal of a session. -/
def sinceRemoval : List Timed → List Timed
  | [] => []
  | e :: h => if endsSession A I s (sinceRemoval h) e.op then [] else e :: sinceRemoval h

/-- The session that a history leaves. -/
def remembered (recent : List Timed) : Option Session :=
  (created? s recent).bind fun added => (accessed? s recent).map fun accessed =>
    ⟨lastTokens? s recent, lastPending? s recent, added, accessed⟩

end

section Step
variable {A I : UInt32} {s : Bytes} {e : Timed} {recent : List Timed}

private theorem created?_cons : created? s (e :: recent) =
    (created? s recent).or (if e.op.sets s then some e.time else none) := by
  unfold created?
  by_cases h : e.op.sets s
  · rw [List.filter_cons_of_pos (by simpa using h), List.getLast?_cons, if_pos h]
    cases (recent.filter (·.op.sets s)).getLast? <;> rfl
  · rw [List.filter_cons_of_neg (by simpa using h), if_neg h, Option.or_none]

private theorem accessed?_cons : accessed? s (e :: recent) =
    if e.op.touches s then some e.time else accessed? s recent := by
  unfold accessed?
  rw [List.find?_cons]
  cases e.op.touches s <;> rfl

private theorem lastTokens?_cons : lastTokens? s (e :: recent) = (e.op.tokensFor? s).or (lastTokens? s recent) := by
  unfold lastTokens?
  rw [List.findSome?_cons]
  cases e.op.tokensFor? s <;> rfl

private theorem lastPending?_cons : lastPending? s (e :: recent) =
    (e.op.pendingFor? s).getD (lastPending? s recent) := by
  unfold lastPending?
  rw [List.findSome?_cons]
  cases e.op.pendingFor? s <;> rfl

private theorem created?_eq_none : created? s recent = none ↔ ∀ e ∈ recent, e.op.sets s = false := by
  simp [created?]

private theorem accessed_of_created {added : Int} (h : created? s recent = some added) :
    ∃ accessed, accessed? s recent = some accessed := by
  by_contra hn
  have hnone : accessed? s recent = none := Option.eq_none_iff_forall_ne_some.mpr fun t ht => hn ⟨t, ht⟩
  have htouch : ∀ e ∈ recent, e.op.touches s = false := by
    simpa [accessed?, List.find?_eq_none] using hnone
  have hset : created? s recent = none := by
    refine created?_eq_none.mpr fun e he => ?_
    have := htouch e he
    cases hop : e.op <;> simp_all [StoreOp.sets, StoreOp.touches]
  rw [hset] at h
  cases h

private theorem lastTokens_of_not_created (h : created? s recent = none) : lastTokens? s recent = none := by
  refine List.findSome?_eq_none_iff.mpr fun e he => ?_
  have := created?_eq_none.mp h e he
  cases hop : e.op <;> simp_all [StoreOp.sets, StoreOp.tokensFor?]

private theorem lastPending_of_not_created (h : created? s recent = none) : lastPending? s recent = none := by
  induction recent with
  | nil => rfl
  | cons e recent ih =>
    have hall := created?_eq_none.mp h
    have hset := hall e List.mem_cons_self
    have ih := ih (created?_eq_none.mpr fun e he => hall e (List.mem_cons_of_mem _ he))
    rw [lastPending?_cons, ih]
    cases hop : e.op <;> simp_all [StoreOp.sets, StoreOp.pendingFor?]
    split <;> rfl

private theorem remembered_of_not_created (h : created? s recent = none) : remembered s recent = none := by
  rw [remembered, h]
  rfl

private def touched (s : Bytes) (e : Timed) (x : Session) : Session :=
  ⟨(e.op.tokensFor? s).or x.tokenResponse, (e.op.pendingFor? s).getD x.authorizationState, x.timeAdded, e.time⟩

private theorem remembered_touched (ht : e.op.touches s) : remembered s (e :: recent) =
    ((remembered s recent).or (if e.op.sets s then some ⟨none, none, e.time, e.time⟩ else none)).map (touched s e) := by
  have hcons : remembered s (e :: recent) =
      ((created? s recent).or (if e.op.sets s then some e.time else none)).map fun added =>
        ⟨(e.op.tokensFor? s).or (lastTokens? s recent), (e.op.pendingFor? s).getD (lastPending? s recent),
          added, e.time⟩ := by
    rw [remembered, created?_cons, accessed?_cons, lastTokens?_cons, lastPending?_cons, if_pos ht]
    cases (created? s recent).or (if e.op.sets s then some e.time else none) <;> rfl
  rw [hcons]
  cases hc : created? s recent with
  | none =>
    rw [remembered_of_not_created hc, lastTokens_of_not_created hc, lastPending_of_not_created hc]
    cases e.op.sets s <;> rfl
  | some added =>
    obtain ⟨accessed, ha⟩ := accessed_of_created hc
    rw [remembered, hc, ha]
    rfl

private theorem remembered_untouched (ht : e.op.touches s = false) :
    remembered s (e :: recent) = remembered s recent := by
  have hset : e.op.sets s = false ∧ e.op.tokensFor? s = none ∧ e.op.pendingFor? s = none := by
    cases hop : e.op <;> simp_all [StoreOp.touches, StoreOp.sets, StoreOp.tokensFor?, StoreOp.pendingFor?]
  rw [remembered, created?_cons, accessed?_cons, lastTokens?_cons, lastPending?_cons]
  simp [hset, ht, remembered]

/-- What histories are made of: NUL-free ids and times that fit the store's fields. -/
structure Timed.WellFormed (e : Timed) : Prop where
  nulFree : e.op.NulFree
  nonneg : 0 ≤ e.time
  bounded : e.time < 2 ^ 32

private theorem uint32_time (he : e.WellFormed) : uint32 e.time = e.time := Int.emod_eq_of_lt he.nonneg he.bounded

variable {store : InMemorySessionStore}

private theorem expired_eq (hA : store.absoluteSessionTimeout = A) (hI : store.idleSessionTimeout = I)
    (nowAdded nowIdle : Int) (x : Session) :
    store.expired nowAdded nowIdle x = decide (Overdue A I x.timeAdded x.timeAccessed nowAdded nowIdle) := by
  subst hA hI
  have hadded : x.timeAdded < nowAdded - store.absoluteSessionTimeout.toNat ↔
      (store.absoluteSessionTimeout.toNat : Int) < nowAdded - x.timeAdded := by omega
  have hidle : x.timeAccessed < nowIdle - store.idleSessionTimeout.toNat ↔
      (store.idleSessionTimeout.toNat : Int) < nowIdle - x.timeAccessed := by omega
  rw [Bool.eq_iff_iff, decide_eq_true_iff]
  simp [InMemorySessionStore.expired, Overdue, hadded, hidle]

private theorem entry_touched (hs : NulFree s) (he : e.WellFormed) (ht : e.op.touches s) :
    (e.op.apply e.time store).entry s =
      ((store.entry s).or (if e.op.sets s then some ⟨none, none, e.time, e.time⟩ else none)).map (touched s e) := by
  have htime := uint32_time he
  have hkey := cStr_of_nulFree hs
  obtain ⟨time, op⟩ := e
  have hname {s' : Bytes} (h : decide (s' = s) = true) : s' = s := by simpa using h
  cases op with
  | setTokenResponse s' t =>
    obtain rfl := hname ht
    cases hx : store.entry s' <;> simp [StoreOp.apply, InMemorySessionStore.setTokenResponse, Session.setTokenResponse,
      Session.create, Session.setTimeMostRecentlyAccessed, touched, StoreOp.sets, StoreOp.tokensFor?,
      StoreOp.pendingFor?, hkey, htime, hx]
  | setAuthorizationState s' a =>
    obtain rfl := hname ht
    cases hx : store.entry s' <;> simp [StoreOp.apply, InMemorySessionStore.setAuthorizationState,
      Session.setAuthorizationState, Session.create, Session.setTimeMostRecentlyAccessed, touched, StoreOp.sets,
      StoreOp.tokensFor?, StoreOp.pendingFor?, hkey, htime, hx]
  | getTokenResponse s' =>
    obtain rfl := hname ht
    cases hx : store.entry s' <;> simp [StoreOp.apply, Session.setTimeMostRecentlyAccessed, touched, StoreOp.sets,
      StoreOp.tokensFor?, StoreOp.pendingFor?, hkey, htime, hx]
  | getAuthorizationState s' =>
    obtain rfl := hname ht
    cases hx : store.entry s' <;> simp [StoreOp.apply, Session.setTimeMostRecentlyAccessed, touched, StoreOp.sets,
      StoreOp.tokensFor?, StoreOp.pendingFor?, hkey, htime, hx]
  | clearAuthorizationState s' =>
    obtain rfl := hname ht
    cases hx : store.entry s' <;> simp [StoreOp.apply, Session.clearAuthorizationState,
      Session.setTimeMostRecentlyAccessed, touched, StoreOp.sets, StoreOp.tokensFor?, StoreOp.pendingFor?, hkey, htime,
      hx]
  | removeSession s' => cases ht
  | removeAllExpired nowAdded nowIdle => cases ht

private theorem entry_untouched (he : e.WellFormed) (ht : e.op.touches s = false)
    (hA : store.absoluteSessionTimeout = A) (hI : store.idleSessionTimeout = I)
    (hr : store.entry s = remembered s recent) :
    (e.op.apply e.time store).entry s = if endsSession A I s recent e.op then none else store.entry s := by
  have hnul := he.nulFree
  obtain ⟨time, op⟩ := e
  have hkey {s' : Bytes} (hn : NulFree s') (h : decide (s' = s) = false) : s ≠ cStr s' := by
    rw [cStr_of_nulFree hn]
    exact fun he => by simp [he] at h
  cases op with
  | setTokenResponse s' t => simp [StoreOp.apply, InMemorySessionStore.setTokenResponse, endsSession, hkey hnul ht]
  | setAuthorizationState s' a =>
    simp [StoreOp.apply, InMemorySessionStore.setAuthorizationState, endsSession, hkey hnul ht]
  | getTokenResponse s' => simp [StoreOp.apply, endsSession, hkey hnul ht]
  | getAuthorizationState s' => simp [StoreOp.apply, endsSession, hkey hnul ht]
  | clearAuthorizationState s' => simp [StoreOp.apply, endsSession, hkey hnul ht]
  | removeSession s' => simp [StoreOp.apply, endsSession, cStr_of_nulFree hnul, eq_comm (a := s)]
  | removeAllExpired nowAdded nowIdle =>
    rw [StoreOp.apply, InMemorySessionStore.entry_removeAllExpired, hr]
    cases hc : created? s recent with
    | none => simp [remembered_of_not_created hc]
    | some added =>
      obtain ⟨accessed, ha⟩ := accessed_of_created hc
      simp [remembered, hc, ha, endsSession, expired_eq hA hI, Option.filter]

private theorem entry_apply (hs : NulFree s) (he : e.WellFormed) (hA : store.absoluteSessionTimeout = A)
    (hI : store.idleSessionTimeout = I) (hr : store.entry s = remembered s recent) :
    (e.op.apply e.time store).entry s =
      if endsSession A I s recent e.op then none else remembered s (e :: recent) := by
  cases ht : e.op.touches s with
  | true =>
    have hnot : endsSession A I s recent e.op = false := by
      cases hop : e.op <;> simp_all [endsSession, StoreOp.touches]
    rw [hnot, entry_touched hs he ht, remembered_touched ht, hr]
    rfl
  | false => rw [entry_untouched he ht hA hI hr, remembered_untouched ht, hr]

end Step

section History
variable {A I : UInt32} {s : Bytes} {h : List Timed}

private theorem apply_timeouts (now : Int) (store : InMemorySessionStore) (op : StoreOp) :
    (op.apply now store).absoluteSessionTimeout = store.absoluteSessionTimeout ∧
      (op.apply now store).idleSessionTimeout = store.idleSessionTimeout := by
  cases op
  case removeSession => exact ⟨rfl, rfl⟩
  case removeAllExpired => exact ⟨rfl, rfl⟩
  all_goals
    simp only [StoreOp.apply, InMemorySessionStore.setTokenResponse, InMemorySessionStore.setAuthorizationState,
      InMemorySessionStore.set, InMemorySessionStore.getTokenResponse, InMemorySessionStore.getAuthorizationState,
      InMemorySessionStore.clearAuthorizationState, InMemorySessionStore.emplace]
    split <;> exact ⟨rfl, rfl⟩

private theorem replay_timeouts (A I : UInt32) (h : List Timed) :
    (replay A I h).absoluteSessionTimeout = A ∧ (replay A I h).idleSessionTimeout = I := by
  induction h with
  | nil => exact ⟨rfl, rfl⟩
  | cons e h ih =>
    obtain ⟨hA, hI⟩ := apply_timeouts e.time (replay A I h) e.op
    exact ⟨hA.trans ih.1, hI.trans ih.2⟩

/-- The store and the history agree on every session. -/
theorem entry_replay (hh : ∀ e ∈ h, e.WellFormed) (hs : NulFree s) :
    (replay A I h).entry s = remembered s (sinceRemoval A I s h) := by
  induction h with
  | nil => rfl
  | cons e h ih =>
    obtain ⟨he, hh⟩ := List.forall_mem_cons.mp hh
    obtain ⟨hA, hI⟩ := replay_timeouts A I h
    rw [replay, entry_apply hs he hA hI (ih hh), sinceRemoval]
    split <;> rfl

/-- What a store holds for a session, in the words of the operations since its last removal. -/
structure Remembers (A I : UInt32) (s : Bytes) (h : List Timed) (store : InMemorySessionStore) : Prop where
  present : store.HasKey s ↔ ∃ e ∈ sinceRemoval A I s h, e.op.sets s
  created : ∀ x, store.entry s = some x → created? s (sinceRemoval A I s h) = some x.timeAdded
  accessed : ∀ x, store.entry s = some x → accessed? s (sinceRemoval A I s h) = some x.timeAccessed
  tokens : store.tokens s = lastTokens? s (sinceRemoval A I s h)
  pending : store.pending s = lastPending? s (sinceRemoval A I s h)

private theorem remembers_replay (hh : ∀ e ∈ h, e.WellFormed) (hs : NulFree s) : Remembers A I s h (replay A I h) := by
  have hentry := entry_replay (A := A) (I := I) hh hs
  cases hc : created? s (sinceRemoval A I s h) with
  | none =>
    have hnone : (replay A I h).entry s = none := hentry.trans (remembered_of_not_created hc)
    have hset := created?_eq_none.mp hc
    refine ⟨?_, fun x hx => ?_, fun x hx => ?_, ?_, ?_⟩
    · refine ⟨fun hkey => ?_, ?_⟩
      · rw [InMemorySessionStore.HasKey, hnone] at hkey
        cases hkey
      · rintro ⟨e, he, hsets⟩
        rw [hset e he] at hsets
        cases hsets
    · cases hnone.symm.trans hx
    · cases hnone.symm.trans hx
    · rw [InMemorySessionStore.tokens, hnone, lastTokens_of_not_created hc]
      rfl
    · rw [InMemorySessionStore.pending, hnone, lastPending_of_not_created hc]
      rfl
  | some added =>
    obtain ⟨accessed, ha⟩ := accessed_of_created hc
    rw [remembered, hc, ha] at hentry
    have hset : ∃ e ∈ sinceRemoval A I s h, e.op.sets s := by
      by_contra hn
      have hnone : created? s (sinceRemoval A I s h) = none := created?_eq_none.mpr fun e he => by
        simpa using fun hsets => hn ⟨e, he, hsets⟩
      rw [hnone] at hc
      cases hc
    refine ⟨?_, fun x hx => ?_, fun x hx => ?_, ?_, ?_⟩
    · exact iff_of_true (by rw [InMemorySessionStore.HasKey, hentry]; rfl) hset
    · obtain rfl := Option.some.inj (hentry.symm.trans hx)
      exact hc
    · obtain rfl := Option.some.inj (hentry.symm.trans hx)
      exact ha
    · rw [InMemorySessionStore.tokens, hentry]
      rfl
    · rw [InMemorySessionStore.pending, hentry]
      rfl

/-- The store equals its history, and its reads return what it holds; a clean-up removes what is overdue and
nothing else, and readings that are old when the loop runs remove nothing that is not overdue by then. -/
theorem store_equals_history (A I : UInt32) (h : List Timed) (hh : ∀ e ∈ h, e.WellFormed) :
    (∀ s, NulFree s → Remembers A I s h (replay A I h) ∧
      ∀ now, ((replay A I h).getTokenResponse now s).1 = lastTokens? s (sinceRemoval A I s h) ∧
        ((replay A I h).getAuthorizationState now s).1 = lastPending? s (sinceRemoval A I s h)) ∧
    (∀ t s, ((replay A I h).removeAllExpired t t).entry s =
      ((replay A I h).entry s).filter fun x => ¬ Overdue A I x.timeAdded x.timeAccessed t t) ∧
    (∀ nowAdded nowIdle t s x, nowAdded ≤ t → nowIdle ≤ t → (replay A I h).entry s = some x →
      ((replay A I h).removeAllExpired nowAdded nowIdle).entry s = none →
      Overdue A I x.timeAdded x.timeAccessed t t) := by
  obtain ⟨hA, hI⟩ := replay_timeouts A I h
  refine ⟨fun s hs => ?_, ?_, ?_⟩
  · have hr := remembers_replay (A := A) (I := I) hh hs
    refine ⟨hr, fun now => ⟨?_, ?_⟩⟩
    · rw [InMemorySessionStore.getTokenResponse_fst, cStr_of_nulFree hs]
      exact hr.tokens
    · rw [InMemorySessionStore.getAuthorizationState_fst, cStr_of_nulFree hs]
      exact hr.pending
  · intro t s
    rw [InMemorySessionStore.entry_removeAllExpired]
    congr 1
    funext x
    rw [expired_eq hA hI]
    simp
  · intro nowAdded nowIdle t s x hadded hidle hx hnone
    rw [InMemorySessionStore.entry_removeAllExpired, hx, Option.filter_some, expired_eq hA hI] at hnone
    have hdue : Overdue A I x.timeAdded x.timeAccessed nowAdded nowIdle := by simpa using hnone
    exact hdue.imp (fun ⟨hpos, hlt⟩ => ⟨hpos, by omega⟩) (fun ⟨hpos, hlt⟩ => ⟨hpos, by omega⟩)

private def storedTokens : TokenResponse := .create ⟨text "a.b.c", 60, none⟩

private def setAt (time : Int) : Timed := ⟨time, .setTokenResponse (text "s") storedTokens⟩

private def readAt (time : Int) : Timed := ⟨time, .getTokenResponse (text "s")⟩

private theorem setAt_wellFormed {time : Int} (h : 0 ≤ time ∧ time < 2 ^ 32) : (setAt time).WellFormed :=
  ⟨show NulFree (text "s") by decide, h.1, h.2⟩

private theorem readAt_wellFormed {time : Int} (h : 0 ≤ time ∧ time < 2 ^ 32) : (readAt time).WellFormed :=
  ⟨show NulFree (text "s") by decide, h.1, h.2⟩

theorem store_equals_history_read :
    Remembers 30 15 (text "s") [readAt 8, setAt 3] (replay 30 15 [readAt 8, setAt 3]) ∧
      ((replay 30 15 [readAt 8, setAt 3]).getTokenResponse 9 (text "s")).1 = some storedTokens ∧
      created? (text "s") (sinceRemoval 30 15 (text "s") [readAt 8, setAt 3]) = some 3 ∧
      accessed? (text "s") (sinceRemoval 30 15 (text "s") [readAt 8, setAt 3]) = some 8 := by
  have hh : ∀ e ∈ [readAt 8, setAt 3], e.WellFormed := by
    simp only [List.forall_mem_cons]
    exact ⟨readAt_wellFormed (by decide), setAt_wellFormed (by decide), by simp⟩
  obtain ⟨hr, hreads⟩ := (store_equals_history 30 15 _ hh).1 (text "s") (by decide)
  exact ⟨hr, (hreads 9).1.trans (by decide), by decide, by decide⟩

private theorem not_sets_of_sinceRemoval {later earlier : List Timed} (hset : ∀ e ∈ later, e.op.sets s = false)
    (hrem : sinceRemoval A I s earlier = []) : ∀ e ∈ sinceRemoval A I s (later ++ earlier), e.op.sets s = false := by
  induction later with
  | nil => simp [hrem]
  | cons e later ih =>
    obtain ⟨he, hlater⟩ := List.forall_mem_cons.mp hset
    rw [List.cons_append, sinceRemoval]
    split
    · simp
    · exact List.forall_mem_cons.mpr ⟨he, ih hlater⟩

/-- A clean-up that found the session overdue takes it from every read until the next Set. -/
theorem reads_nothing_after_cleanup (A I : UInt32) (later earlier : List Timed) (s : Bytes)
    (t nowAdded nowIdle added accessed now : Int)
    (hh : ∀ e ∈ later ++ ⟨t, .removeAllExpired nowAdded nowIdle⟩ :: earlier, e.WellFormed) (hs : NulFree s)
    (hcreated : created? s (sinceRemoval A I s earlier) = some added)
    (haccessed : accessed? s (sinceRemoval A I s earlier) = some accessed)
    (hdue : Overdue A I added accessed nowAdded nowIdle) (hset : ∀ e ∈ later, e.op.sets s = false) :
    let store := replay A I (later ++ ⟨t, .removeAllExpired nowAdded nowIdle⟩ :: earlier)
    (store.getTokenResponse now s).1 = none ∧ (store.getAuthorizationState now s).1 = none := by
  intro store
  have hrem : sinceRemoval A I s (⟨t, .removeAllExpired nowAdded nowIdle⟩ :: earlier) = [] := by
    rw [sinceRemoval, if_pos]
    simp [endsSession, hcreated, haccessed, hdue]
  have hnone : store.entry s = none := by
    rw [entry_replay hh hs]
    exact remembered_of_not_created (created?_eq_none.mpr (not_sets_of_sinceRemoval hset hrem))
  simp [cStr_of_nulFree hs, hnone]

theorem reads_nothing_after_cleanup_at_twenty :
    ((replay 0 15 [⟨20, .removeAllExpired 20 20⟩, setAt 3]).getTokenResponse 21 (text "s")).1 = none := by
  refine (reads_nothing_after_cleanup 0 15 [] [setAt 3] (text "s") 20 20 20 3 3 21 ?_ (by decide) (by decide)
    (by decide) (by decide) (by simp)).1
  simp only [List.nil_append, List.forall_mem_cons]
  exact ⟨⟨trivial, by decide, by decide⟩, setAt_wellFormed (by decide), by simp⟩

/-- Reads do not look at the clock: one that comes before the next clean-up still finds the session. -/
theorem read_outlives_timeouts :
    ¬ ∀ (A I : UInt32) (h : List Timed) (s : Bytes) (added accessed now : Int), (∀ e ∈ h, e.WellFormed) →
      h.Pairwise (fun later earlier => earlier.time ≤ later.time) → (∀ e ∈ h, e.time ≤ now) → NulFree s →
      created? s (sinceRemoval A I s h) = some added → accessed? s (sinceRemoval A I s h) = some accessed →
      Overdue A I added accessed now now → ((replay A I h).getTokenResponse now s).1 = none := by
  intro hall
  have hread := hall 10 20 [setAt 0] (text "s") 0 0 100
    (by simpa using setAt_wellFormed (by decide)) (by simp) (by simp [setAt]) (by decide) (by decide) (by decide)
    (by decide)
  exact absurd hread (by decide)

end History
end AuthService.Filters.Oidc
