import AuthService.Filters.Oidc.Login

/-! One request reads and writes its own session and the one it begins, and no other. -/
namespace AuthService.Filters.Oidc
open Lib Common.Http Config OidcFilter

variable {lib : Libraries} {cfg : OIDCConfig} {now : Int} {x : External} {request : CheckRequest}
  {store store' : InMemorySessionStore}

/-- Every session a request names is the one of its cookie, or one it drew and now stores. -/
theorem Issues.session {log : Log} {o : Op} {s : Bytes} (hi : Issues lib cfg request log o)
    (hs : o.session? = some s) :
    sessionCookie cfg request = some s ∨
      ∃ (sid : SessionString) (e : Int) (a : AuthorizationState), s = cStr sid.val ∧
        o = .setAuthorizationState s a ∧ (⟨.generateSessionId, sid, e⟩ : Program.Called Int Op.Res) ∈ log := by
  cases hi with
  | logout hc => cases hs; exact .inl hc
  | readTokens he => cases hs; exact .inl he.cookie
  | readState he => cases hs; exact .inl he.cookie
  | clear hx => cases hs; exact .inl hx.enters.cookie
  | save hx => cases hs; exact .inl hx.enters.cookie
  | saveRefreshed hr => cases hs; exact .inl hr.enters.cookie
  | discard he => cases hs; exact .inl he.cookie
  | @beginLogin log sid st n e e' e'' hr => cases hs; exact .inr ⟨sid, e, _, rfl, rfl, by simp⟩
  | exchange => cases hs
  | refresh => cases hs
  | drawSessionId => cases hs
  | drawState => cases hs
  | drawNonce => cases hs

/-- A request draws a new session id. -/
def Draws (lib : Libraries) (cfg : OIDCConfig) (now : Int) (x : External) (request : CheckRequest)
    (store : InMemorySessionStore) : Prop :=
  ⟨.generateSessionId, x.sessionId, now⟩ ∈ (process cfg lib request .empty).calls now (Op.exec now x) store []

/-- Frame: a request leaves alone every entry but that of its cookie and that of the id it draws. -/
theorem entry_runProcess {key : Bytes} (hk : ∀ s, sessionCookie cfg request = some s → cStr s ≠ key)
    (hx : Draws lib cfg now x request store → x.sessionId.val ≠ key) :
    (runProcess lib cfg now x request store).2.entry key = store.entry key := by
  refine (process_follows lib cfg request now).run_keeps (s := store) rfl
    (fun log st => (⟨.generateSessionId, x.sessionId, now⟩ ∈ log → x.sessionId.val ≠ key) →
      st.entry key = store.entry key) ?_ (fun _ => rfl) hx
  intro log o st hexec hi hst hx
  have hx : ⟨.generateSessionId, x.sessionId, now⟩ ∈ log → x.sessionId.val ≠ key :=
    fun hm => hx (List.mem_cons_of_mem _ hm)
  rw [Op.entry_exec, if_neg, hst hx]
  intro hs
  obtain ⟨s, hop, rfl⟩ := Option.map_eq_some_iff.mp hs
  rcases hi.session hop with hc | ⟨sid, e, a, rfl, _, hm⟩
  · exact hk s hc rfl
  · obtain ⟨_, hres, henv⟩ := hexec.result hm
    obtain rfl : sid = x.sessionId := hres
    obtain rfl : e = now := henv
    exact hx hm (by simp)

private theorem exec_result_congr {o : Op} (ho : ∀ s, o.session? = some s →
      (∃ a, o = .setAuthorizationState s a) ∨ store.entry (cStr s) = store'.entry (cStr s)) :
    (o.exec now x store).1 = (o.exec now x store').1 := by
  cases o with
  | getTokenResponse s =>
    rcases ho s rfl with ⟨a, ha⟩ | he
    · cases ha
    · simp only [Op.exec_getTokenResponse, InMemorySessionStore.tokens, he]
  | getAuthorizationState s =>
    rcases ho s rfl with ⟨a, ha⟩ | he
    · cases ha
    · simp only [Op.exec_getAuthorizationState, InMemorySessionStore.pending, he]
  | _ => rfl

/-- Sessions do not interfere: the outcome depends on the entry of the request's cookie alone, and
every entry but that one and the one newly drawn is left as it was. -/
theorem sessions_do_not_interfere (lib : Libraries) (cfg : OIDCConfig) (now : Int) (x : External)
    (request : CheckRequest) (store : InMemorySessionStore) :
    (∀ store' : InMemorySessionStore,
      (∀ s, sessionCookie cfg request = some s → store.entry (cStr s) = store'.entry (cStr s)) →
      (runProcess lib cfg now x request store).1 = (runProcess lib cfg now x request store').1) ∧
    ∀ key, (∀ s, sessionCookie cfg request = some s → cStr s ≠ key) →
      (Draws lib cfg now x request store → x.sessionId.val ≠ key) →
      (runProcess lib cfg now x request store).2.entry key = store.entry key := by
  refine ⟨fun store' hagree => ?_, fun key => entry_runProcess⟩
  refine (process_follows lib cfg request now).run_rel
    (fun st st' => ∀ s, sessionCookie cfg request = some s → st.entry (cStr s) = st'.entry (cStr s)) ?_ hagree
  intro log o st st' hi hst
  refine ⟨exec_result_congr fun s hs => ?_, fun s hc => ?_⟩
  · rcases hi.session hs with hc | ⟨_, _, a, _, ho, _⟩
    · exact .inr (hst s hc)
    · exact .inl ⟨a, ho⟩
  · rw [Op.entry_exec, Op.entry_exec, hst s hc]

end AuthService.Filters.Oidc
