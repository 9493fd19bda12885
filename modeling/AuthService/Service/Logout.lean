import AuthService.Filters.Oidc.Isolation
import AuthService.Service.Sequential

/-! Logging out, as the callers of the service meet it: a session that has been logged out is not accepted again. -/
namespace AuthService.Service
open Lib Config Filters Filters.Oidc Filters.Oidc.OidcFilter Common.Http

section Absent
variable {lib : Libraries} {oidc : OIDCConfig} {now : Int} {x : External} {request : CheckRequest}
  {store : InMemorySessionStore} {key : Bytes}

/-- No call of a request has found anything under a key. -/
structure FindsNothing (key : Bytes) (log : Log) : Prop where
  tokens : ∀ s t e, cStr s = key → (⟨.getTokenResponse s, some t, e⟩ : Program.Called Int Op.Res) ∉ log
  pending : ∀ s a e, cStr s = key → (⟨.getAuthorizationState s, some a, e⟩ : Program.Called Int Op.Res) ∉ log

private theorem FindsNothing.cons {log : Log} (hlog : FindsNothing key log) (hn : store.entry key = none) (o : Op) :
    FindsNothing key (⟨o, (o.exec now x store).1, now⟩ :: log) := by
  refine ⟨fun s t e hs hm => ?_, fun s a e hs hm => ?_⟩
  · rcases List.mem_cons.mp hm with hfirst | hm
    · obtain ⟨rfl, hres, _⟩ := Program.Called.mk.inj hfirst
      have hread := eq_of_heq hres
      rw [Op.exec_getTokenResponse, InMemorySessionStore.tokens, hs, hn] at hread
      cases hread
    · exact hlog.tokens s t e hs hm
  · rcases List.mem_cons.mp hm with hfirst | hm
    · obtain ⟨rfl, hres, _⟩ := Program.Called.mk.inj hfirst
      have hread := eq_of_heq hres
      rw [Op.exec_getAuthorizationState, InMemorySessionStore.pending, hs, hn] at hread
      cases hread
    · exact hlog.pending s a e hs hm

private theorem absent_runProcess (hx : x.sessionId.val ≠ key) (hn : store.entry key = none) :
    FindsNothing key ((process oidc lib request .empty).calls now (Op.exec now x) store []) ∧
      (runProcess lib oidc now x request store).2.entry key = none := by
  refine (process_follows lib oidc request now).run_keeps (s := store) rfl
    (fun log st => FindsNothing key log ∧ st.entry key = none) ?_ ⟨⟨by simp, by simp⟩, hn⟩
  rintro log o st hexec hi ⟨hlog, hst⟩
  refine ⟨hlog.cons hst o, ?_⟩
  rw [Op.entry_exec, hst]
  split
  · rename_i hs
    cases o with
    | setTokenResponse s t =>
      have hkey : cStr s = key := by simpa [Op.session?] using hs
      cases hi with
      | @save _ _ a _ e =>
        exact absurd (List.mem_cons_of_mem _ (List.mem_cons_of_mem _ List.mem_cons_self)) (hlog.pending s a e hkey)
      | @saveRefreshed _ t e =>
        exact absurd (List.mem_cons_of_mem _ List.mem_cons_self) (hlog.tokens s t e hkey)
    | setAuthorizationState s a =>
      have hkey : cStr s = key := by simpa [Op.session?] using hs
      cases hi with
      | @beginLogin log sid =>
        obtain ⟨_, hres, _⟩ := hexec.result (List.mem_cons_of_mem _ (List.mem_cons_of_mem _ List.mem_cons_self))
        obtain rfl : sid = x.sessionId := hres
        exact absurd (by simpa using hkey) hx
    | _ => rfl
  · rfl

private theorem okResponse_of_absent (hx : x.sessionId.val ≠ key) (hn : store.entry key = none) {s : Bytes}
    (hs : sessionCookie oidc request = some s) (hkey : cStr s = key) :
    (AuthServiceImpl.responseOf (runProcess lib oidc now x request store).1).okResponse.isSome = false := by
  by_contra hok
  have hexits : Exits lib oidc request now ((process oidc lib request .empty).calls now (Op.exec now x) store [])
      (runProcess lib oidc now x request store).1 := (process_exits lib oidc request now).run_ends
  have hforwards := AuthServiceImpl.forwards_of_okResponse hexits (Bool.eq_true_of_not_eq_false hok)
  have hlog : FindsNothing key ((process oidc lib request .empty).calls now (Op.exec now x) store []) :=
    (absent_runProcess hx hn).1
  generalize (process oidc lib request .empty).calls now (Op.exec now x) store [] = log at hlog hforwards
  generalize (runProcess lib oidc now x request store).1 = outcome at hforwards
  cases hforwards with
  | @stored s' t _ he =>
    obtain rfl := Option.some.inj (hs.symm.trans he.cookie)
    exact hlog.tokens s t now hkey List.mem_cons_self
  | @refreshed s' t e _ _ _ _ _ hr =>
    obtain rfl := Option.some.inj (hs.symm.trans hr.enters.cookie)
    exact hlog.tokens s t e hkey (by simp)

private theorem absent_of_logout (hl : matchesLogoutRequest oidc request = true) {s : Bytes}
    (hs : sessionCookie oidc request = some s) :
    (runProcess lib oidc now x request store).2.entry (cStr s) = none := by
  obtain ⟨http, hh, hc⟩ := Option.bind_eq_some_iff.mp hs
  have hrun : (runProcess lib oidc now x request store).2 = store.removeSession s := by
    simp only [runProcess, process, hh, hl, hc, if_true]
    rfl
  rw [hrun, InMemorySessionStore.entry_removeSession, if_pos rfl]

end Absent

namespace AuthServiceImpl
variable {config : AuthService.Config} {impl : AuthServiceImpl} {k : Nat} {oidc : OIDCConfig} {key : Bytes}
  {w : Surroundings} {request : CheckRequest}

/-- The chain at a place has one filter, and nothing under a key. -/
def Absent (oidc : OIDCConfig) (k : Nat) (key : Bytes) (impl : AuthServiceImpl) : Prop :=
  ∀ chain, impl.chains[k]? = some chain →
    chain.config.filters = [⟨some oidc⟩] ∧ (chain.storeFor oidc).entry key = none

private theorem consult_store (w : Surroundings) (request : CheckRequest) {chain : FilterChainImpl}
    (hf : chain.config.filters = [⟨some oidc⟩]) :
    (consult w request chain).2.2 = chain ∨ (consult w request chain).2.2.storeFor oidc =
      (runProcess w.lib oidc w.now w.external request (chain.storeFor oidc)).2 := by
  unfold consult
  split
  · exact .inl rfl
  · rw [processChain_store w request hf]
    exact .inr rfl

theorem Absent.check (ha : Absent oidc k key impl) (hx : w.sessionId.val ≠ key) :
    Absent oidc k key (check w request impl).2.2 := by
  intro chain hchain
  rcases check_consulted w request impl with ⟨_, hcheck⟩ | ⟨i, before, _, _, hi, hcheck⟩
  · rw [hcheck] at hchain
    exact ha chain hchain
  · rw [hcheck] at hchain
    obtain rfl | hne := eq_or_ne i k
    · obtain ⟨hf, hn⟩ := ha before hi
      rw [List.getElem?_set_self (List.getElem?_eq_some_iff.mp hi).1] at hchain
      obtain rfl := Option.some.inj hchain
      refine ⟨(consult_config w request before).symm ▸ hf, ?_⟩
      rcases consult_store w request hf with hsame | hstore
      · rwa [hsame]
      · rw [hstore]
        exact (absent_runProcess hx hn).2
    · rw [List.getElem?_set_ne hne] at hchain
      exact ha chain hchain

theorem Absent.cleanup (ha : Absent oidc k key impl) (readings : Nat → Int × Int) :
    Absent oidc k key (impl.doPeriodicCleanup readings) := by
  intro chain hchain
  obtain ⟨before, hbefore, rfl⟩ : ∃ before, impl.chains[k]? = some before ∧
      before.doPeriodicCleanup (readings k).1 (readings k).2 = chain := by
    simpa [doPeriodicCleanup] using hchain
  obtain ⟨hf, hn⟩ := ha before hbefore
  refine ⟨hf, ?_⟩
  cases hs : before.oidcSessionStore with
  | none => simp [FilterChainImpl.doPeriodicCleanup, FilterChainImpl.storeFor, hs]
  | some store =>
    have hn : store.entry key = none := by simpa [FilterChainImpl.storeFor, hs] using hn
    simp [FilterChainImpl.doPeriodicCleanup, FilterChainImpl.storeFor, hs, hn]

theorem Absent.served {activities : List Activity} (ha : Absent oidc k key impl)
    (hx : ∀ w request, Activity.check w request ∈ activities → w.sessionId.val ≠ key) :
    Absent oidc k key (impl.served activities) := by
  induction activities generalizing impl with
  | nil => exact ha
  | cons activity activities ih =>
    have hrest : ∀ w request, Activity.check w request ∈ activities → w.sessionId.val ≠ key :=
      fun w request hm => hx w request (List.mem_cons_of_mem _ hm)
    cases activity with
    | check w request => exact ih (ha.check (hx w request List.mem_cons_self)) hrest
    | cleanup readings => exact ih (ha.cleanup readings) hrest

private theorem okResponse_consult (w : Surroundings) (request : CheckRequest) {chain : FilterChainImpl}
    (hf : chain.config.filters = [⟨some oidc⟩]) : (consult w request chain).2.1 = .empty ∨
    (consult w request chain).2.1.okResponse =
      (responseOf (runProcess w.lib oidc w.now w.external request (chain.storeFor oidc)).1).okResponse := by
  unfold consult
  split
  · exact .inl rfl
  · have hanswer := congrArg Prod.snd (processChain_single w request hf)
    dsimp only at hanswer
    rw [hanswer, ← okResponse_answerOf, answerOf]
    right
    cases Pipe.settled (runProcess w.lib oidc w.now w.external request (chain.storeFor oidc)).1 <;> rfl

private theorem Absent.okResponse (ha : Absent oidc k key impl) (hx : w.sessionId.val ≠ key)
    (hr : consulted request impl.chains = some k) {s : Bytes} (hs : sessionCookie oidc request = some s)
    (hkey : cStr s = key) : (AuthServiceImpl.check w request impl).2.1.okResponse = none := by
  rcases check_consulted w request impl with ⟨_, hcheck⟩ | ⟨i, chain, _, hi, hchain, hcheck⟩
  · rw [hcheck]
    rfl
  · obtain rfl := Option.some.inj (hi.symm.trans hr)
    obtain ⟨hf, hn⟩ := ha chain hchain
    rw [hcheck]
    rcases okResponse_consult w request hf with hempty | hforwarded
    · rw [hempty]
      rfl
    · rw [hforwarded]
      simpa using okResponse_of_absent hx hn hs hkey

private theorem absent_check_logout {chain : FilterChainImpl} (ht : triggered w request impl = .ok true)
    (hr : consulted request impl.chains = some k) (hk : impl.chains[k]? = some chain)
    (hm : chain.matchesRequest request = .ok true) (hf : chain.config.filters = [⟨some oidc⟩])
    (hl : matchesLogoutRequest oidc request = true) {s : Bytes} (hc : sessionCookie oidc request = some s) :
    Absent oidc k (cStr s) (AuthServiceImpl.check w request impl).2.2 := by
  rcases check_consulted w request impl with ⟨hno, _⟩ | ⟨i, chain', _, hi, hchain, hcheck⟩
  · simp [ht, hr] at hno
  · obtain rfl := Option.some.inj (hi.symm.trans hr)
    obtain rfl := Option.some.inj (hchain.symm.trans hk)
    intro after hafter
    rw [hcheck, List.getElem?_set_self (List.getElem?_eq_some_iff.mp hk).1] at hafter
    obtain rfl := Option.some.inj hafter
    have hstore : (consult w request chain').2.2.storeFor oidc =
        (runProcess w.lib oidc w.now w.external request (chain'.storeFor oidc)).2 := by
      rw [consult, hm, processChain_store w request hf]
      rfl
    rw [consult_config, hstore]
    exact ⟨hf, absent_of_logout hl hc⟩

private theorem serves_served (h : Serves config impl) (activities : List Activity) :
    Serves config (impl.served activities) := by
  induction activities generalizing impl with
  | nil => exact h
  | cons activity activities ih => exact ih (serves_after h activity)

private theorem consulted_of_selects {chains : List FilterChainImpl} {chain : FilterChainImpl}
    (hs : Selects request chains k chain) : consulted request chains = some k := by
  obtain ⟨hk, hchain⟩ := List.getElem?_eq_some_iff.mp hs.place
  refine List.findIdx?_eq_some_iff_getElem.mpr ⟨hk, ?_, fun i hi => ?_⟩
  · simp [stopsAt, hchain, hs.accepts]
  · have hbefore := hs.earlier i hi chains[i] (List.getElem?_eq_getElem (hi.trans hk))
    simp [stopsAt, hbefore]

/-- A session that has been logged out is not accepted again. Whatever a freshly created service has answered before
a logout and answers after it, a request with the cookie of that session is not let through with tokens, as long as
no check after the logout draws its id again. -/
theorem logged_out_stays_out {chain : Config.FilterChain} (hf : chain.filters = [⟨some oidc⟩])
    {before later : List Activity} {w' : Surroundings} {request' : CheckRequest} {s s' : Bytes}
    (ht : triggered w request (create config) = .ok true)
    (hs : Selects request (create config).chains k (.create chain))
    (hl : matchesLogoutRequest oidc request = true) (hc : sessionCookie oidc request = some s)
    (hx : ∀ w'' request'', Activity.check w'' request'' ∈ later ++ [.check w' request'] → w''.sessionId.val ≠ cStr s)
    (hr : consulted request' (create config).chains = some k) (hc' : sessionCookie oidc request' = some s')
    (he : cStr s' = cStr s) :
    (AuthServiceImpl.check w' request'
      ((create config).served (before ++ .check w request :: later))).2.1.okResponse = none := by
  have hserves := serves_served (serves_create config) before
  obtain ⟨chain', hk, rfl⟩ : ∃ chain', ((create config).served before).chains[k]? = some chain' ∧
      chain'.config = chain := by
    have hconfig := congrArg (·.map FilterChainImpl.config) hs.place
    simp only [← List.getElem?_map, (serves_create config).chains, ← hserves.chains, Option.map_some] at hconfig
    rw [List.getElem?_map] at hconfig
    exact Option.map_eq_some_iff.mp hconfig
  have ht' : triggered w request ((create config).served before) = .ok true := by
    rw [← ht, triggered, hserves.triggerRules]
    rfl
  have hr' : consulted request ((create config).served before).chains = some k := by
    rw [consulted_of_serves request hserves, consulted_of_selects hs]
  have habsent := absent_check_logout ht' hr' hk hs.accepts hf hl hc
  have hserved : (create config).served (before ++ .check w request :: later) =
      (AuthServiceImpl.check w request ((create config).served before)).2.2.served later := by
    simp [served, after]
  have hlater := habsent.served fun w'' request'' hm => hx w'' request'' (List.mem_append_left _ hm)
  rw [hserved]
  refine hlater.okResponse (hx w' request' (by simp)) ?_ hc' he
  rw [← hserved, consulted_of_serves request' (serves_served (serves_create config) _), hr]

section Sample

private def logoutOidc : OIDCConfig := { fileOidc with logout? := some ⟨text "/logout", text "https://acme-idp.tld/"⟩ }

private def logoutChain : Config.FilterChain := ⟨text "chain", none, [⟨some logoutOidc⟩]⟩

private def fileLogout : CheckRequest :=
  ⟨some ⟨text "https", text "example.com", text "/logout", [], [fileCookie]⟩⟩

private def otherDraw : Surroundings := { fileSurroundings with sessionId := fileSurroundings.state }

/-- A visit with the cookie of a login is let through before the logout, and not after it. -/
theorem logged_out_stays_out_visit :
    (AuthServiceImpl.check otherDraw (visit [fileCookie]).request
      ((create (fileConfig [⟨some logoutOidc⟩])).served fileActivities)).2.1.okResponse.isSome = true ∧
    (AuthServiceImpl.check otherDraw (visit [fileCookie]).request ((create (fileConfig [⟨some logoutOidc⟩])).served
      (fileActivities ++ .check otherDraw fileLogout :: []))).2.1.okResponse = none := by
  have hf : logoutChain.filters = [⟨some logoutOidc⟩] := rfl
  have hs : Selects fileLogout (create (fileConfig [⟨some logoutOidc⟩])).chains 0 (.create logoutChain) :=
    ⟨rfl, rfl, fun i hi => absurd hi (Nat.not_lt_zero i)⟩
  have hcookie : sessionCookie logoutOidc fileLogout = some (text "session123") := by decide +kernel
  have hcookie' : sessionCookie logoutOidc (visit [fileCookie]).request = some (text "session123") := by decide +kernel
  refine ⟨by decide +kernel, logged_out_stays_out hf rfl hs (by decide +kernel) hcookie ?_ rfl hcookie' rfl⟩
  intro w request hm
  cases List.mem_singleton.mp hm
  decide +kernel

end Sample
end AuthServiceImpl
end AuthService.Service
