import AuthService.Filters.Oidc.Login
import AuthService.Service.Separation
import Mathlib.Data.List.Induction

/-! The service as its callers meet it: one `Check` after another, with clean-ups between. Every such sequence is
a run of the interleaved system, so what holds of all its runs holds of the service. -/
namespace AuthService.Service
open Lib Config Filters Filters.Oidc Filters.Oidc.OidcFilter Common.Http

namespace AuthServiceImpl

/-- What a caller of `Check` receives when a filter ends in this way. -/
def answerOf (outcome : Outcome) : GrpcStatus × CheckResponse :=
  match relay (Pipe.settled outcome) with
  | (.ok status, response) => (status, response)
  | (.error _, response) => (.internal (text "internal error"), response)

/-- The first chain that matches, by its place in the list. -/
structure Selects (request : CheckRequest) (chains : List FilterChainImpl) (k : Nat) (chain : FilterChainImpl) :
    Prop where
  place : chains[k]? = some chain
  accepts : chain.matchesRequest request = .ok true
  earlier : ∀ i < k, ∀ other, chains[i]? = some other → other.matchesRequest request = .ok false

variable (w : Surroundings) (request : CheckRequest) {chains : List FilterChainImpl}

private theorem selects_of_consulted (hl : ∀ chain ∈ chains, Loaded chain.config) {k : Nat} {chain : FilterChainImpl}
    (hc : consulted request chains = some k) (hk : chains[k]? = some chain) :
    Selects request chains k chain ∧ consult w request chain = processChain w request chain := by
  have hstops {other : FilterChainImpl} (ho : other ∈ chains) :
      other.matchesRequest request = .ok (stopsAt request other) := by
    obtain ⟨b, hb⟩ := other.matchesRequest_of_loaded (hl other ho) request
    cases b <;> simp [stopsAt, hb]
  obtain ⟨hlt, hat, hbefore⟩ := List.findIdx?_eq_some_iff_getElem.mp hc
  obtain rfl : chains[k] = chain := Option.some.inj ((List.getElem?_eq_getElem hlt).symm.trans hk)
  have haccepts : chains[k].matchesRequest request = .ok true := by
    rw [hstops (List.getElem_mem hlt), hat]
  refine ⟨⟨hk, haccepts, fun i hi other ho => ?_⟩, by simp only [consult, haccepts]⟩
  obtain ⟨hi', rfl⟩ := List.getElem?_eq_some_iff.mp ho
  rw [hstops (List.getElem_mem hi'), Bool.eq_false_of_not_eq_true (hbefore i hi)]

/-- The store that a chain with one filter keeps for the next request. -/
theorem processChain_store {chain : FilterChainImpl} {oidc : OIDCConfig}
    (h : chain.config.filters = [⟨some oidc⟩]) :
    (processChain w request chain).2.2 = ⟨chain.config,
      some (OidcFilter.runProcess w.lib oidc w.now w.external request (chain.storeFor oidc)).2⟩ := by
  simp only [processChain, FilterChainImpl.new_single h, Pipe.process_single]
  cases Pipe.settled _ <;> rfl

private theorem processChain_second_store {chain : FilterChainImpl} {first second : OIDCConfig} {filters : List Filter}
    (h : chain.config.filters = ⟨some first⟩ :: ⟨some second⟩ :: filters) :
    (processChain w request chain).2.2 = ⟨chain.config, some (chain.storeFor first)⟩ := by
  have hnew : chain.new = (.error (.runtimeError (text "only one filter of type \"oidc\" is allowed in a chain")),
      ⟨chain.config, some (chain.storeFor first)⟩) := by
    simp [FilterChainImpl.new, FilterChainImpl.newLoop, h, FilterChainImpl.storeFor]
  simp only [processChain, hnew]

/-- A check that a chain processes: the trigger rules select its request, the chain is the first one that matches and
has one filter, and the run of this filter on the store that the chain has makes these calls and gives the answer. -/
structure Processes (oidc : OIDCConfig) (impl : AuthServiceImpl) (k : Nat) (log : Log) : Prop where
  triggered : triggered w request impl = .ok true
  consults : ∃ chain, Selects request impl.chains k chain ∧ chain.config.filters = [⟨some oidc⟩] ∧
    log = (OidcFilter.process oidc w.lib request .empty).calls w.now (Op.exec w.now w.external)
      (chain.storeFor oidc) [] ∧
    ((check w request impl).1, (check w request impl).2.1) =
      answerOf (OidcFilter.runProcess w.lib oidc w.now w.external request (chain.storeFor oidc)).1

variable {w request} in
private theorem Processes.log_eq {oidc : OIDCConfig} {impl : AuthServiceImpl} {k : Nat} {log log' : Log}
    (h : Processes w request oidc impl k log) (h' : Processes w request oidc impl k log') : log = log' := by
  obtain ⟨chain, hs, _, rfl, _⟩ := h.consults
  obtain ⟨chain', hs', _, rfl, _⟩ := h'.consults
  obtain rfl : chain = chain' := Option.some.inj (hs.place.symm.trans hs'.place)
  rfl

variable {w request} in
private theorem Processes.env {oidc : OIDCConfig} {impl : AuthServiceImpl} {k : Nat} {log : Log}
    (h : Processes w request oidc impl k log) {c : Program.Called Int Op.Res} (hc : c ∈ log) : c.env = w.now := by
  obtain ⟨chain, _, _, rfl, _⟩ := h.consults
  rcases Program.result_of_mem_calls hc with hc | ⟨_, _, he⟩
  · cases hc
  · exact he

/-- The stores of the interleaved system that stand for those of a service. Each chain is known by its first filter. -/
structure Mirrors (cfg : Nat → OIDCConfig) (service : AuthServiceImpl) (stores : Stores Nat) : Prop where
  loaded : ∀ chain ∈ service.chains, Loaded chain.config
  filters : ∀ (k : Nat) (chain : FilterChainImpl), service.chains[k]? = some chain →
    chain.config.filters.head? = some ⟨some (cfg k)⟩
  store : ∀ (k : Nat) (chain : FilterChainImpl), service.chains[k]? = some chain → stores k = chain.storeFor (cfg k)

variable {cfg : Nat → OIDCConfig} {impl : AuthServiceImpl} {stores : Stores Nat}

private theorem Mirrors.set (hm : Mirrors cfg impl stores) {k : Nat} {chain : FilterChainImpl}
    (hk : impl.chains[k]? = some chain) (store : InMemorySessionStore) :
    Mirrors cfg { impl with chains := impl.chains.set k ⟨chain.config, some store⟩ }
      (Function.update stores k store) := by
  have hlt : k < impl.chains.length := (List.getElem?_eq_some_iff.mp hk).1
  have hat {i : Nat} {other : FilterChainImpl}
      (hi : (impl.chains.set k ⟨chain.config, some store⟩)[i]? = some other) :
      i = k ∧ other = ⟨chain.config, some store⟩ ∨ i ≠ k ∧ impl.chains[i]? = some other := by
    by_cases hn : i = k
    · subst hn
      rw [List.getElem?_set_self hlt] at hi
      exact .inl ⟨rfl, (Option.some.inj hi).symm⟩
    · rw [List.getElem?_set_ne (Ne.symm hn)] at hi
      exact .inr ⟨hn, hi⟩
  refine ⟨fun other ho => ?_, fun i other hi => ?_, fun i other hi => ?_⟩
  · obtain ⟨i, hi⟩ := List.mem_iff_getElem?.mp ho
    rcases hat hi with ⟨_, rfl⟩ | ⟨_, hi⟩
    · exact hm.loaded chain (List.mem_of_getElem? hk)
    · exact hm.loaded other (List.mem_of_getElem? hi)
  · rcases hat hi with ⟨rfl, rfl⟩ | ⟨_, hi⟩
    · exact hm.filters i chain hk
    · exact hm.filters i other hi
  · rcases hat hi with ⟨rfl, rfl⟩ | ⟨hn, hi⟩
    · simp [FilterChainImpl.storeFor]
    · rw [Function.update_of_ne hn]
      exact hm.store i other hi

private theorem check_cases (hm : Mirrors cfg impl stores) :
    (∃ impl' status, (status = .ok ∨ status = .internal (text "internal error")) ∧
      check w request impl = (status, .empty, impl') ∧ Mirrors cfg impl' stores) ∨
    ∃ k outcome store, Processes w request (cfg k) impl k
        ((OidcFilter.process (cfg k) w.lib request .empty).calls w.now (Op.exec w.now w.external) (stores k) []) ∧
      OidcFilter.runProcess w.lib (cfg k) w.now w.external request (stores k) = (outcome, store) ∧
      ((check w request impl).1, (check w request impl).2.1) = answerOf outcome ∧
      Mirrors cfg (check w request impl).2.2 (Function.update stores k store) := by
  rcases check_consulted w request impl with ⟨_, hcheck⟩ | ⟨k, chain, ht, hc, hk, hcheck⟩
  · refine .inl ⟨impl, unconsulted (AuthService.Service.triggered w request impl), ?_, hcheck, hm⟩
    cases AuthService.Service.triggered w request impl with
    | error exn => exact .inr rfl
    | ok selected => exact .inl rfl
  · obtain ⟨hs, hconsult⟩ := selects_of_consulted w request hm.loaded hc hk
    have hloaded := hm.loaded chain (List.mem_of_getElem? hk)
    obtain ⟨others, hf⟩ := List.head?_eq_some_iff.mp (hm.filters k chain hk)
    cases others with
    | nil =>
      have hstore := processChain_store w request hf
      have hanswer := processChain_single w request hf
      rw [← hm.store k chain hk] at hstore hanswer
      generalize hrun : OidcFilter.runProcess w.lib (cfg k) w.now w.external request (stores k) = run at hstore hanswer
      have hrelayed : ((check w request impl).1, (check w request impl).2.1) = answerOf run.1 := by
        rw [hcheck, hconsult, answerOf, ← hanswer]
        cases (processChain w request chain).1 <;> rfl
      refine .inr ⟨k, run.1, run.2, ⟨ht, chain, hs, hf, ?_, ?_⟩, hrun, hrelayed, ?_⟩
      · rw [hm.store k chain hk]
      · rw [← hm.store k chain hk, hrun, hrelayed]
      · rw [hcheck, hconsult, hstore]
        exact hm.set hk run.2
    | cons second others =>
      obtain ⟨second, rfl⟩ := hloaded.oidc second (by simp [hf])
      obtain ⟨hstatus, hresponse⟩ := processChain_second w request hf
      have hkept := hm.set hk (stores k)
      rw [Function.update_eq_self] at hkept
      refine .inl ⟨_, .internal (text "internal error"), .inr rfl, ?_, hkept⟩
      rw [hcheck, hconsult, hstatus, hresponse, processChain_second_store w request hf, hm.store k chain hk]
      rfl

private theorem removeAllExpired_create (absolute idle : UInt32) (nowAdded nowIdle : Int) :
    (InMemorySessionStore.create absolute idle).removeAllExpired nowAdded nowIdle = .create absolute idle := rfl

private theorem Mirrors.cleanup (hm : Mirrors cfg impl stores) (readings : Nat → Int × Int) :
    Mirrors cfg (impl.doPeriodicCleanup readings)
      (fun k => if k < impl.chains.length then (stores k).removeAllExpired (readings k).1 (readings k).2
        else stores k) := by
  have hat {k : Nat} {chain : FilterChainImpl} (hk : (impl.doPeriodicCleanup readings).chains[k]? = some chain) :
      ∃ before, impl.chains[k]? = some before ∧
        chain = before.doPeriodicCleanup (readings k).1 (readings k).2 := by
    simpa [doPeriodicCleanup, eq_comm] using hk
  refine ⟨fun chain hc => ?_, fun k chain hk => ?_, fun k chain hk => ?_⟩
  · obtain ⟨k, hk⟩ := List.mem_iff_getElem?.mp hc
    obtain ⟨before, hb, rfl⟩ := hat hk
    exact hm.loaded before (List.mem_of_getElem? hb)
  · obtain ⟨before, hb, rfl⟩ := hat hk
    exact hm.filters k before hb
  · obtain ⟨before, hb, rfl⟩ := hat hk
    rw [if_pos (List.getElem?_eq_some_iff.mp hb).1, hm.store k before hb]
    cases hs : before.oidcSessionStore with
    | none => simp [FilterChainImpl.storeFor, FilterChainImpl.doPeriodicCleanup, hs, removeAllExpired_create]
    | some store => simp [FilterChainImpl.storeFor, FilterChainImpl.doPeriodicCleanup, hs]

/-- The request that made a call. -/
def caller? {C : Type} : Moment C → Option Nat
  | .call i _ _ _ _ => some i
  | _ => none

/-- How a `Check` was answered in a run: no filter processed it, or the request's thread ended with the answer. -/
inductive Relayed (p : Requests Nat) (i : Nat) (request : CheckRequest) (impl : AuthServiceImpl) :
    GrpcStatus × CheckResponse → Prop
  | passed : p.threads i = none → Relayed p i request impl (.ok, .empty)
  | failed : p.threads i = none → Relayed p i request impl (.internal (text "internal error"), .empty)
  | answered {k : Nat} {chain : FilterChainImpl} {outcome : Outcome} : Selects request impl.chains k chain →
      p.answer? i = some (⟨k, request⟩, outcome) → Relayed p i request impl (answerOf outcome)

/-- A run of the interleaved system in which the activities of a service are one thread after the other. -/
structure Serialized (lib : Libraries) (cfg : Nat → OIDCConfig) (start : AuthServiceImpl) (activities : List Activity)
    (h : History Nat) (p : Requests Nat) : Prop where
  run : (service lib cfg).Run (fun _ _ _ => True) h p
  mirrors : Mirrors cfg (start.served activities) p.shared
  fresh : ∀ i, activities.length ≤ i → p.threads i = none
  calls : ∀ i j o r e, .call i j o r e ∈ h → ∃ w log, activities[i]? = some (.check w j.request) ∧
    Processes w j.request (cfg j.chain) (start.served (activities.take i)) j.chain log ∧ ⟨o, r, e⟩ ∈ log
  order : h.Pairwise fun ev ev' => ∀ i i', caller? ev = some i → caller? ev' = some i' → i' ≤ i
  answers : ∀ i w request, activities[i]? = some (.check w request) →
    Relayed p i request (start.served (activities.take i))
      ((check w request (start.served (activities.take i))).1,
        (check w request (start.served (activities.take i))).2.1)

variable {lib : Libraries} {cfg : Nat → OIDCConfig} {start impl : AuthServiceImpl} {activities : List Activity}
  {h : History Nat} {p : Requests Nat}

private theorem served_append (activity : Activity) :
    start.served (activities ++ [activity]) = (start.served activities).after activity := by
  simp [served]

private theorem exists_ticks (readings : Nat → Int × Int) (n : Nat) :
    ∃ newer p', (service lib cfg).Extends (fun _ _ _ => True) h p (newer ++ h) p' ∧
      (∀ ev ∈ newer, caller? ev = none) ∧ p'.threads = p.threads ∧
      p'.shared = fun k => if k < n then (p.shared k).removeAllExpired (readings k).1 (readings k).2
        else p.shared k := by
  induction n with
  | zero => exact ⟨[], p, .refl, by simp, rfl, by simp⟩
  | succ n ih =>
    obtain ⟨newer, p', hx, hticks, hthreads, hshared⟩ := ih
    let u : Cleanup Nat := ⟨n, (readings n).1, (readings n).2⟩
    refine ⟨.tick u :: newer, ⟨(service lib cfg).tick u p'.shared, p'.threads⟩, hx.snoc (a := .tick u) rfl trivial, ?_,
      hthreads, ?_⟩
    · rintro ev (_ | ⟨_, hev⟩)
      · rfl
      · exact hticks ev hev
    · funext k
      by_cases hk : k = n
      · subst hk
        simp [service, hshared, u]
      · have hlt : k < n + 1 ↔ k < n := by omega
        simp [service, hshared, u, Function.update_of_ne hk, hlt]

private theorem Relayed.mono {p' : Requests Nat} {i : Nat} {request : CheckRequest}
    {answer : GrpcStatus × CheckResponse} (hr : Relayed p i request impl answer)
    (ht : p'.threads i = p.threads i) : Relayed p' i request impl answer := by
  cases hr with
  | passed hn => exact .passed (ht.trans hn)
  | failed hn => exact .failed (ht.trans hn)
  | answered hs ha =>
    refine .answered hs ?_
    rw [Pool.answer?_eq_some] at ha ⊢
    exact ht.trans ha

private theorem exists_call {i : Nat} {ev : Moment Nat} (hc : caller? ev = some i) :
    ∃ j o r e, ev = .call i j o r e := by
  cases ev with
  | spawn t j e => cases hc
  | tick u => cases hc
  | call t j o r e =>
    obtain rfl := Option.some.inj hc
    exact ⟨j, o, r, e, rfl⟩

private theorem Serialized.lt_length (hs : Serialized lib cfg start activities h p) {ev : Moment Nat} {i : Nat}
    (hm : ev ∈ h) (hc : caller? ev = some i) : i < activities.length := by
  obtain ⟨j, o, r, e, rfl⟩ := exists_call hc
  obtain ⟨w, log, hi, _⟩ := hs.calls i j o r e hm
  exact (List.getElem?_eq_some_iff.mp hi).1

private theorem Serialized.append {activity : Activity} {newer : History Nat} {p' : Requests Nat}
    (hs : Serialized lib cfg start activities h p)
    (hx : (service lib cfg).Extends (fun _ _ _ => True) h p (newer ++ h) p')
    (hm : Mirrors cfg ((start.served activities).after activity) p'.shared)
    (hthreads : ∀ i, i ≠ activities.length → p'.threads i = p.threads i)
    (hcalls : ∀ i j o r e, .call i j o r e ∈ newer → i = activities.length ∧ ∃ w log, activity = .check w j.request ∧
      Processes w j.request (cfg j.chain) (start.served activities) j.chain log ∧ ⟨o, r, e⟩ ∈ log)
    (hanswer : ∀ w request, activity = .check w request →
      Relayed p' activities.length request (start.served activities)
        ((check w request (start.served activities)).1, (check w request (start.served activities)).2.1)) :
    Serialized lib cfg start (activities ++ [activity]) (newer ++ h) p' := by
  have hnew {ev : Moment Nat} {i : Nat} (hev : ev ∈ newer) (hc : caller? ev = some i) : i = activities.length := by
    obtain ⟨j, o, r, e, rfl⟩ := exists_call hc
    exact (hcalls i j o r e hev).1
  refine ⟨hx.run hs.run, ?_, fun i hi => ?_, fun i j o r e hmem => ?_, ?_, fun i w request hi => ?_⟩
  · rw [served_append]
    exact hm
  · rw [List.length_append, List.length_singleton] at hi
    rw [hthreads i (by omega)]
    exact hs.fresh i (by omega)
  · rcases List.mem_append.mp hmem with hmem | hmem
    · obtain ⟨rfl, w, log, rfl, hp, hlog⟩ := hcalls i j o r e hmem
      refine ⟨w, log, by simp, ?_, hlog⟩
      rwa [List.take_left]
    · obtain ⟨w, log, hi, hp, hlog⟩ := hs.calls i j o r e hmem
      have hlt := (List.getElem?_eq_some_iff.mp hi).1
      refine ⟨w, log, by rw [List.getElem?_append_left hlt, hi], ?_, hlog⟩
      rwa [List.take_append_of_le_length hlt.le]
  · refine List.pairwise_append.mpr ⟨List.pairwise_of_forall_mem_list fun ev hev ev' hev' i i' hi hi' => ?_, hs.order,
      fun ev hev ev' hev' i i' hi hi' => ?_⟩
    · exact ((hnew hev' hi').trans (hnew hev hi).symm).le
    · exact (hs.lt_length hev' hi').le.trans (hnew hev hi).ge
  · by_cases hlast : i = activities.length
    · subst hlast
      rw [List.getElem?_concat_length] at hi
      rw [List.take_left]
      exact hanswer w request (Option.some.inj hi)
    · have hlt : i < activities.length := by
        have := (List.getElem?_eq_some_iff.mp hi).1
        rw [List.length_append, List.length_singleton] at this
        omega
      rw [List.getElem?_append_left hlt] at hi
      rw [List.take_append_of_le_length hlt.le]
      exact (hs.answers i w request hi).mono (hthreads i hlast)

private theorem run_program (k : Nat) (now : Int) (x : External) (request : CheckRequest) (stores : Stores Nat) :
    ((service lib cfg).program ⟨k, request⟩).run now ((service lib cfg).exec ⟨k, request⟩ now x) stores =
      ((OidcFilter.runProcess lib (cfg k) now x request (stores k)).1,
        Function.update stores k (OidcFilter.runProcess lib (cfg k) now x request (stores k)).2) :=
  Program.run_component k (OidcFilter.process (cfg k) lib request .empty) stores

private theorem calls_program (k : Nat) (now : Int) (x : External) (request : CheckRequest) (stores : Stores Nat) :
    ((service lib cfg).program ⟨k, request⟩).calls now ((service lib cfg).exec ⟨k, request⟩ now x) stores [] =
      (OidcFilter.process (cfg k) lib request .empty).calls now (Op.exec now x) (stores k) [] :=
  Program.calls_component k (OidcFilter.process (cfg k) lib request .empty) stores

private theorem Serialized.check (hs : Serialized lib cfg start activities h p) {w : Surroundings}
    {request : CheckRequest} (hlib : w.lib = lib) :
    ∃ h' p', Serialized lib cfg start (activities ++ [.check w request]) h' p' := by
  subst hlib
  have hm := hs.mirrors
  have hfree : p.threads activities.length = none := hs.fresh _ (Nat.le_refl _)
  rcases check_cases w request hm with
    ⟨impl', status, hstatus, hc, hmirrors⟩ | ⟨k, outcome, store, hp, hrun, hanswer, hmirrors⟩
  · have hrefl : (service w.lib cfg).Extends (fun _ _ _ => True) h p ([] ++ h) p := .refl
    refine ⟨h, p, hs.append hrefl ?_ (fun _ _ => rfl) (by simp) ?_⟩
    · simpa [after, hc] using hmirrors
    · intro w' request' he
      obtain ⟨rfl, rfl⟩ := Activity.check.inj he
      rw [hc]
      rcases hstatus with rfl | rfl
      · exact .passed hfree
      · exact .failed hfree
  · obtain ⟨p', hx, hthreads, hshared⟩ :=
      (service w.lib cfg).exists_atomic (h := h) (j := ⟨k, request⟩) (e := w.now) w.external hfree
    rw [run_program, hrun] at hthreads hshared
    rw [List.append_cons, calls_program] at hx
    refine ⟨_, p', hs.append hx ?_ ?_ ?_ ?_⟩
    · rw [hshared]
      exact hmirrors
    · intro i hi
      rw [hthreads, Function.update_of_ne hi]
    · intro i j o r e hmem
      rcases List.mem_append.mp hmem with hmem | hmem
      · obtain ⟨c, hc, hev⟩ := List.mem_map.mp hmem
        obtain ⟨rfl, rfl, rfl, hr, rfl⟩ := Event.call.inj hev
        exact ⟨rfl, w, _, rfl, hp, eq_of_heq hr ▸ hc⟩
      · cases List.mem_singleton.mp hmem
    · intro w' request' he
      obtain ⟨rfl, rfl⟩ := Activity.check.inj he
      obtain ⟨chain, hsel, _⟩ := hp.consults
      rw [hanswer]
      refine .answered hsel ?_
      rw [Pool.answer?_eq_some, hthreads, Function.update_self]

private theorem Serialized.cleanup (hs : Serialized lib cfg start activities h p) (readings : Nat → Int × Int) :
    ∃ h' p', Serialized lib cfg start (activities ++ [.cleanup readings]) h' p' := by
  obtain ⟨newer, p', hx, hticks, hthreads, hshared⟩ := exists_ticks readings (start.served activities).chains.length
  refine ⟨newer ++ h, p', hs.append hx ?_ (fun i _ => congrFun hthreads i) ?_ (by simp)⟩
  · rw [hshared]
    exact hs.mirrors.cleanup readings
  · intro i j o r e hm
    cases hticks _ hm

private theorem mirrors_create (lib : Libraries) {loader : Loader} {configFileName : Bytes}
    {config : AuthService.Config} (hc : getConfig loader configFileName = .ok config)
    (hf : ∀ (k : Nat) (chain : Config.FilterChain), config.chains[k]? = some chain →
      chain.filters.head? = some ⟨some (cfg k)⟩) :
    Mirrors cfg (create config) (service lib cfg).init := by
  have hat {k : Nat} {chain : FilterChainImpl} (hk : (create config).chains[k]? = some chain) :
      ∃ c, config.chains[k]? = some c ∧ chain = .create c := by
    simpa [create, eq_comm] using hk
  refine ⟨fun chain hm => ?_, fun k chain hk => ?_, fun k chain hk => ?_⟩
  · obtain ⟨k, hk⟩ := List.mem_iff_getElem?.mp hm
    obtain ⟨c, hcfg, rfl⟩ := hat hk
    exact loaded_of_getConfig hc (List.mem_of_getElem? hcfg)
  · obtain ⟨c, hc, rfl⟩ := hat hk
    exact hf k c hc
  · obtain ⟨c, _, rfl⟩ := hat hk
    rfl

private theorem Mirrors.exists_serialized (hm : Mirrors cfg start (service lib cfg).init)
    (hlib : ∀ w request, Activity.check w request ∈ activities → w.lib = lib) :
    ∃ h p, Serialized lib cfg start activities h p := by
  induction activities using List.reverseRecOn with
  | nil => exact ⟨[], (service lib cfg).start, .nil, hm, fun _ _ => rfl, by simp, .nil, by simp⟩
  | append_singleton activities activity ih =>
    obtain ⟨h, p, hs⟩ := ih fun w request hm => hlib w request (List.mem_append_left _ hm)
    cases activity with
    | check w request => exact hs.check (hlib w request (by simp))
    | cleanup readings => exact hs.cleanup readings

section Login

/-- The response that a filter leaves. -/
def responseOf : Outcome → CheckResponse
  | .returned _ response => response
  | .thrown _ response => response

theorem okResponse_answerOf (outcome : Outcome) :
    (answerOf outcome).2.okResponse = (responseOf outcome).okResponse := by
  cases outcome with
  | thrown exn response => rfl
  | returned code response => cases code <;> rfl

/-- Only forwarded tokens leave an ok response. -/
theorem forwards_of_okResponse {lib : Libraries} {cfg : OIDCConfig} {request : CheckRequest} {e : Int} {log : Log}
    {outcome : Outcome} (h : Exits lib cfg request e log outcome)
    (hok : (responseOf outcome).okResponse.isSome = true) : Forwards lib cfg request e log outcome := by
  cases h with
  | forwards hf => exact hf
  | noHttp => cases hok
  | logout => cases hok
  | passed => cases hok
  | login => cases hok
  | throws => cases hok
  | callback _ hc => cases hc <;> cases hok

private theorem exists_read {cond : History Nat → Stores Nat → Moment Nat → Prop} {i : Nat} {j : Job Nat}
    {outcome : Outcome}
    (hr : (service lib cfg).Run cond h p) (ha : p.answer? i = some (j, outcome))
    (hok : (responseOf outcome).okResponse.isSome = true) :
    ∃ s t e h₂ h₁, sessionCookie (cfg j.chain) j.request = some s ∧
      h = h₂ ++ .call i j (.getTokenResponse s) (some t) e :: h₁ := by
  have hprog (j : Job Nat) (e : Int) : ((service lib cfg).program j).Follows (Issues lib (cfg j.chain) j.request)
      (Exits lib (cfg j.chain) j.request) e [] := process_exits lib (cfg j.chain) j.request e
  obtain ⟨hw, now, hexits⟩ := (hr.onTrack hprog).running (Pool.answer?_eq_some.mp ha)
  rw [Program.follows_pure] at hexits
  generalize hlog : System.log i h = log at hexits
  cases forwards_of_okResponse hexits hok with
  | @stored s t _ hs =>
    obtain ⟨h₂, h₁, rfl, _⟩ := hw.split [] hlog
    exact ⟨s, t, now, h₂, h₁, hs.cookie, rfl⟩
  | @refreshed s t e token answer e' t' _ hs =>
    obtain ⟨h₂, h₁, rfl, _⟩ := hw.split [_, _] hlog
    exact ⟨s, t, e, h₂, h₁, hs.enters.cookie, rfl⟩

private theorem caller_ne_of_read {cond : History Nat → Stores Nat → Moment Nat → Prop} {h₂ h₁ : History Nat} {i : Nat}
    {j : Job Nat} {o : Op} {r : o.Res} {e : Int} (hr : (service lib cfg).Run cond h p)
    (hh : h = h₂ ++ .call i j o r e :: h₁)
    (ho : (∃ s, o = .getTokenResponse s) ∨ ∃ s, o = .getAuthorizationState s) {ev : Moment Nat} (hev : ev ∈ h₁) :
    caller? ev ≠ some i := by
  obtain ⟨p₁, x, _, _, hi, _⟩ := hr.call_made (service_follows lib cfg) hh
  have hnil : System.log i h₁ = [] := by
    generalize hlog : System.log i h₁ = log at hi
    rcases ho with ⟨s, rfl⟩ | ⟨s, rfl⟩
    · cases hi with
      | readTokens => rfl
    · cases hi with
      | readState => rfl
  intro hc
  obtain ⟨j', o', r', e', rfl⟩ := exists_call hc
  have hlog := System.mem_log hev
  rw [hnil] at hlog
  cases hlog

private theorem exists_split {α : Type} {a : α} {l older : List α} (hs : (a :: older).Sublist l) :
    ∃ l₂ l₁, l = l₂ ++ a :: l₁ ∧ older.Sublist l₁ := by
  obtain ⟨r, l₁, rfl, hm, hold⟩ := List.cons_sublist_iff.mp hs
  obtain ⟨r₂, r₁, rfl⟩ := List.append_of_mem hm
  exact ⟨r₂, r₁ ++ l₁, by simp, hold.trans (List.sublist_append_right r₁ l₁)⟩

private theorem Serialized.le_of_sublist (hs : Serialized lib cfg start activities h p) {ev ev' : Moment Nat}
    {i i' : Nat}
    (hsub : [ev, ev'].Sublist h) (hi : caller? ev = some i) (hi' : caller? ev' = some i') : i' ≤ i :=
  List.pairwise_iff_forall_sublist.mp hs.order hsub i i' hi hi'

/-- A login in which a chain has let a user in, by two checks that it processed: a visit that drew the session id, a
state and a nonce, and later the callback, with that session id in its cookie, that presented the state and posted
the code to the token endpoint, whose reply was accepted for the nonce. -/
inductive LoggedIn (oidc : OIDCConfig) (start : AuthServiceImpl) (activities : List Activity) (k : Nat) (key : Bytes) :
    Prop
  | intro {i i' : Nat} {w w' : Surroundings} {visit callback : CheckRequest} {log log' : Log}
      {sessionId state nonce : SessionString} {s code body : Bytes} {t : TokenResponse} :
    i < i' → activities[i]? = some (.check w visit) → activities[i']? = some (.check w' callback) →
    Processes w visit oidc (start.served (activities.take i)) k log →
    Processes w' callback oidc (start.served (activities.take i')) k log' →
    ⟨.generateSessionId, sessionId, w.now⟩ ∈ log → sessionId.val = key →
    ⟨.generateState, state, w.now⟩ ∈ log → ⟨.generateNonce, nonce, w.now⟩ ∈ log →
    sessionCookie oidc callback = some s → cStr s = key → matchesCallbackRequest oidc callback = .ok true →
    CallbackQuery callback state.val code →
    ⟨.post (retrieveTokenRequest oidc code), .response 200 body, w'.now⟩ ∈ log' →
    TokenResponseParserImpl.parse w'.lib oidc.jwks oidc.clientId nonce.val body w'.now = some t →
    LoggedIn oidc start activities k key

private theorem Serialized.made (hs : Serialized lib cfg start activities h p) {i : Nat} {j : Job Nat} {o : Op}
    {r : o.Res} {e : Int} (hm : .call i j o r e ∈ h) : ∃ w log, activities[i]? = some (.check w j.request) ∧
      Processes w j.request (cfg j.chain) (start.served (activities.take i)) j.chain log ∧
      (⟨o, r, w.now⟩ : Program.Called Int Op.Res) ∈ log ∧ e = w.now := by
  obtain ⟨w, log, hi, hp, hc⟩ := hs.calls i j o r e hm
  obtain rfl : e = w.now := hp.env hc
  exact ⟨w, log, hi, hp, hc, rfl⟩

private theorem Serialized.made_by (hs : Serialized lib cfg start activities h p) {i : Nat} {j : Job Nat}
    {w : Surroundings} {log : Log} (hi : activities[i]? = some (.check w j.request))
    (hp : Processes w j.request (cfg j.chain) (start.served (activities.take i)) j.chain log) {o : Op} {r : o.Res}
    {e : Int} (hm : .call i j o r e ∈ h) : (⟨o, r, w.now⟩ : Program.Called Int Op.Res) ∈ log := by
  obtain ⟨w', log', hi', hp', hc, -⟩ := hs.made hm
  obtain ⟨rfl, -⟩ := Activity.check.inj (Option.some.inj (hi.symm.trans hi'))
  exact hp.log_eq hp' ▸ hc

private theorem Serialized.loggedIn (hs : Serialized lib cfg start activities h p)
    (hlib : ∀ w request, Activity.check w request ∈ activities → w.lib = lib) {b : Callback Nat} {k n : Nat}
    {key : Bytes} (hb : b.Accepted lib cfg h k key) (hn : b.thread < n) :
    LoggedIn (cfg k) start (activities.take n) k key := by
  obtain ⟨t, hx⟩ := hb.exchanged
  obtain rfl := hb.chain
  have hmem (ev : Moment Nat) (hev : ev ∈ b.events cfg) : ev ∈ h := hb.events.subset hev
  -- the three draws of the login were made by one check
  obtain ⟨w, log, hi, hp, hsid, -⟩ := hs.made (hmem (.call b.login.thread b.login.job .generateSessionId
    b.login.sessionId b.login.sessionIdAt) (by simp [Callback.events, Login.events]))
  have hstate := hs.made_by hi hp (hmem (.call b.login.thread b.login.job .generateState b.login.state
    b.login.stateAt) (by simp [Callback.events, Login.events]))
  have hnonce := hs.made_by hi hp (hmem (.call b.login.thread b.login.job .generateNonce b.login.nonce
    b.login.nonceAt) (by simp [Callback.events, Login.events]))
  obtain ⟨w', log', hi', hp', hpost, htime⟩ := hs.made (hmem _ List.mem_cons_self)
  -- the callback came after the login, and as another check: it reads the state in its first call
  have hread := (List.sublist_cons_self _ _).trans hb.events
  obtain ⟨h₂, h₁, hh, hold⟩ := exists_split hread
  have hlogin : .call b.login.thread b.login.job .generateSessionId b.login.sessionId b.login.sessionIdAt ∈
      b.login.events := by simp [Login.events]
  have hle : b.login.thread ≤ b.thread :=
    hs.le_of_sublist (((List.singleton_sublist.mpr hlogin).cons_cons _).trans hread) rfl rfl
  have hne : b.login.thread ≠ b.thread := by
    intro he
    exact caller_ne_of_read hs.run hh (.inr ⟨b.sessionId, rfl⟩) (hold.subset hlogin) (congrArg some he)
  have hvisit : Processes w b.login.job.request (cfg b.job.chain)
      (start.served ((activities.take n).take b.login.thread)) b.job.chain log := by
    rw [List.take_take, min_eq_left (hle.trans hn.le), ← hb.loginChain]
    exact hp
  have hcallback : Processes w' b.job.request (cfg b.job.chain) (start.served ((activities.take n).take b.thread))
      b.job.chain log' := by
    rw [List.take_take, min_eq_left hn.le]
    exact hp'
  have hquery : CallbackQuery b.job.request b.login.state.val b.code := by
    simpa [Login.authorizationState, AuthorizationState.create] using hx.query
  have hparses : TokenResponseParserImpl.parse w'.lib (cfg b.job.chain).jwks (cfg b.job.chain).clientId
      b.login.nonce.val b.body w'.now = some t := by
    rw [hlib w' b.job.request (List.mem_of_getElem? hi'), ← htime]
    simpa [Login.authorizationState, AuthorizationState.create] using hx.parses
  exact .intro (lt_of_le_of_ne hle hne) ((List.getElem?_take_of_lt (hle.trans_lt hn)).trans hi)
    ((List.getElem?_take_of_lt hn).trans hi') hvisit hcallback hsid hb.sessionId hstate hnonce hx.enters.cookie
    hb.cookie hx.enters.callback_eq hquery hpost hparses

private theorem Serialized.allowed {w : Surroundings} {request : CheckRequest} {k : Nat} {outcome : Outcome}
    (hs : Serialized lib cfg start (activities ++ [.check w request]) h p)
    (hlib : ∀ w' request', Activity.check w' request' ∈ activities ++ [.check w request] → w'.lib = lib)
    (ha : p.answer? activities.length = some (⟨k, request⟩, outcome))
    (hok : (responseOf outcome).okResponse.isSome = true) :
    ∃ log s, Processes w request (cfg k) (start.served activities) k log ∧ sessionCookie (cfg k) request = some s ∧
      LoggedIn (cfg k) start activities k (cStr s) := by
  obtain ⟨s, t, e, h₂, h₁, hcookie, hh⟩ := exists_read hs.run ha hok
  obtain ⟨b, hb⟩ := (kept_logins hs.run).readTokens h₂ h₁ _ _ s t e hh
  obtain ⟨w', log, hi, hp, _⟩ :=
    hs.calls activities.length ⟨k, request⟩ (.getTokenResponse s) (some t) e (by simp [hh])
  rw [List.getElem?_concat_length] at hi
  obtain ⟨rfl, -⟩ := Activity.check.inj (Option.some.inj hi)
  rw [List.take_left] at hp
  refine ⟨log, s, hp, hcookie, ?_⟩
  have hpost : .call b.thread b.job (.post (retrieveTokenRequest (cfg b.job.chain) b.code)) (.response 200 b.body)
      b.answeredAt ∈ h₁ := hb.events.subset List.mem_cons_self
  have hlt : b.thread < activities.length := by
    have hle := hs.lt_length (hh ▸ List.mem_append_right _ (List.mem_cons_of_mem _ hpost)) rfl
    have hne := caller_ne_of_read hs.run hh (.inl ⟨s, rfl⟩) hpost
    rw [List.length_append, List.length_singleton] at hle
    have hne : b.thread ≠ activities.length := fun he => hne (congrArg some he)
    omega
  have hold : h₁.Sublist h := hh ▸ (List.sublist_cons_self _ _).trans (List.sublist_append_right h₂ _)
  have hlogin := hs.loggedIn hlib { hb with events := hb.events.trans hold } hlt
  rwa [List.take_left] at hlogin

end Login

section Loaded
variable {loader : Loader} {configFileName : Bytes} {config : AuthService.Config}

/-- The configuration of each chain's first filter. -/
private def firstOidc (config : AuthService.Config) (k : Nat) : OIDCConfig :=
  ((config.chains[k]?.bind (·.filters.head?)).bind (·.oidc?)).getD default

private theorem head?_filters (hc : getConfig loader configFileName = .ok config) (k : Nat) (chain : Config.FilterChain)
    (hk : config.chains[k]? = some chain) : chain.filters.head? = some ⟨some (firstOidc config k)⟩ := by
  obtain ⟨oidc, others, hf, _⟩ := (loaded_of_getConfig hc (List.mem_of_getElem? hk)).filters
  simp [firstOidc, hk, hf]

/-- The service refines the interleaved system. Every sequence of checks and clean-ups of a service whose
configuration was loaded is a run of that system: with the same stores, each check that a filter processes a thread
of its own behind the earlier ones, and its answer the one that the caller receives. Each chain is known by its first
filter; a chain with a second one, which makes `New` throw, has no thread. -/
theorem served_is_a_run (hc : getConfig loader configFileName = .ok config)
    (hf : ∀ (k : Nat) (chain : Config.FilterChain), config.chains[k]? = some chain →
      chain.filters.head? = some ⟨some (cfg k)⟩)
    (hlib : ∀ w request, Activity.check w request ∈ activities → w.lib = lib) :
    ∃ h p, Serialized lib cfg (create config) activities h p :=
  (mirrors_create lib hc hf).exists_serialized hlib

/-- Login soundness of the service. Whatever checks and clean-ups a freshly created service has answered, if it then
lets a request through with tokens, a chain processed the request and gave the answer, and the session of the
request's cookie was logged in by two earlier checks that this chain processed: one drew its id, and a later one was
the callback that presented the state of the first, posted its code and got a reply that was accepted for the nonce
of the first. -/
theorem allowed_after_login (hc : getConfig loader configFileName = .ok config)
    {w : Surroundings} {request : CheckRequest}
    (hlib : ∀ w' request', Activity.check w' request' ∈ activities ++ [.check w request] → w'.lib = lib)
    (hok : (check w request ((create config).served activities)).2.1.okResponse.isSome = true) :
    ∃ k oidc log s, Processes w request oidc ((create config).served activities) k log ∧
      sessionCookie oidc request = some s ∧ LoggedIn oidc (create config) activities k (cStr s) := by
  obtain ⟨h, p, hs⟩ := (mirrors_create lib hc (head?_filters hc)).exists_serialized hlib
  have ha := hs.answers activities.length w request (by simp)
  rw [List.take_left] at ha
  generalize hanswer : ((check w request ((create config).served activities)).1,
    (check w request ((create config).served activities)).2.1) = answer at ha
  rw [show (check w request ((create config).served activities)).2.1 = answer.2 from congrArg Prod.snd hanswer] at hok
  cases ha with
  | passed => cases hok
  | failed => cases hok
  | @answered k chain outcome hsel ha =>
    rw [okResponse_answerOf] at hok
    obtain ⟨log, s, hp, hcookie, hlogin⟩ := hs.allowed hlib ha hok
    exact ⟨k, _, log, s, hp, hcookie, hlogin⟩

end Loaded

section Sample

/-- The libraries, with the keys of the configuration file. -/
def fileLibraries : Libraries :=
  { sampleLibraries with verifyJwt := fun idToken jwks audiences now =>
      idToken == sampleJwt && jwks == fileOidc.jwks && audiences.contains fileOidc.clientId && now ≤ 2001001001 }

/-- A network whose identity provider answers with a login reply. -/
def fileSurroundings : Surroundings :=
  { sampleSurroundings with
    lib := fileLibraries
    network := { sampleSurroundings.network with exchange := fun _ _ _ => .completed 200 loginReply none } }

def fileCookie : Bytes × Bytes := (text "cookie", text "__Host-authservice-session-id-cookie=session123")

def fileCallback : CheckRequest :=
  ⟨some ⟨text "https", text "me.tld:443", text "/callback?code=value&state=some-state", [], [fileCookie]⟩⟩

def fileActivities : List Activity :=
  [.check fileSurroundings (visit []).request, .cleanup fun _ => (1901001001, 1901001001),
    .check fileSurroundings fileCallback]

private theorem fileConfig_filters (k : Nat) (chain : Config.FilterChain)
    (hk : (fileConfig [⟨some fileOidc⟩]).chains[k]? = some chain) :
    chain.filters.head? = some ⟨some fileOidc⟩ := by
  cases k with
  | zero =>
    cases hk
    rfl
  | succ k => cases hk

private theorem fileActivities_lib (w : Surroundings) (request : CheckRequest)
    (hm : Activity.check w request ∈ fileActivities ++ [.check fileSurroundings (visit [fileCookie]).request]) :
    w.lib = fileLibraries := by
  simp only [fileActivities, List.cons_append, List.nil_append, List.mem_cons, List.not_mem_nil, or_false] at hm
  rcases hm with hm | hm | hm | hm <;> cases hm <;> rfl

/-- A visit, a clean-up and a callback. -/
theorem served_is_a_run_login : getConfig sampleLoader (text "config.json") = .ok (fileConfig [⟨some fileOidc⟩]) ∧
    ∃ h p, Serialized fileLibraries (fun _ => fileOidc) (create (fileConfig [⟨some fileOidc⟩])) fileActivities h p :=
  ⟨getConfig_sample, served_is_a_run getConfig_sample fileConfig_filters
    fun w request hm => fileActivities_lib w request (List.mem_append_left _ hm)⟩

/-- The visit after them is let through with tokens. -/
theorem allowed_after_login_visit :
    (check fileSurroundings (visit [fileCookie]).request
      ((create (fileConfig [⟨some fileOidc⟩])).served fileActivities)).2.1.okResponse.isSome = true ∧
    ∃ k oidc log s, Processes fileSurroundings (visit [fileCookie]).request oidc
        ((create (fileConfig [⟨some fileOidc⟩])).served fileActivities) k log ∧
      sessionCookie oidc (visit [fileCookie]).request = some s ∧
      LoggedIn oidc (create (fileConfig [⟨some fileOidc⟩])) fileActivities k (cStr s) := by
  have hok : (check fileSurroundings (visit [fileCookie]).request
      ((create (fileConfig [⟨some fileOidc⟩])).served fileActivities)).2.1.okResponse.isSome = true := by
    decide +kernel
  obtain ⟨k, oidc, log, s, hp, hs, hl⟩ := allowed_after_login getConfig_sample fileActivities_lib hok
  exact ⟨hok, k, oidc, log, s, hp, hs, hl⟩

end Sample
end AuthServiceImpl
end AuthService.Service
