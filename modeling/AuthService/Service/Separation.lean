import AuthService.Lib.Machine
import AuthService.Service.AsyncServiceImpl

/-! The service as its callers meet it, one `Check` after another with clean-ups between: what a chain answers is
not affected by the requests of the other chains. -/
namespace AuthService.Service
open Lib Config Filters Filters.Oidc Common.Http

/-- What happens to the service from outside. -/
inductive Activity where
  | check (w : AuthServiceImpl.Surroundings) (request : CheckRequest)
  | cleanup (readings : Nat → Int × Int)

namespace AuthServiceImpl

def after (impl : AuthServiceImpl) : Activity → AuthServiceImpl
  | .check w request => (check w request impl).2.2
  | .cleanup readings => impl.doPeriodicCleanup readings

/-- The service after a sequence of activities, the first one first. -/
def served (impl : AuthServiceImpl) (activities : List Activity) : AuthServiceImpl := activities.foldl after impl

/-- Whether the loop over the chains ends at a chain, with its result or with the exception of its match. -/
def stopsAt (request : CheckRequest) (chain : FilterChainImpl) : Bool :=
  match chain.matchesRequest request with
  | .ok false => false
  | _ => true

/-- The place of the chain that the loop ends at. -/
def consulted (request : CheckRequest) (chains : List FilterChainImpl) : Option Nat := chains.findIdx? (stopsAt request)

/-- What happens at the chain that the loop ends at. -/
def consult (w : Surroundings) (request : CheckRequest) (chain : FilterChainImpl) :
    Except Exn GrpcStatus × CheckResponse × FilterChainImpl :=
  match chain.matchesRequest request with
  | .error exn => (.error exn, .empty, chain)
  | .ok _ => processChain w request chain

variable (w : Surroundings) (request : CheckRequest)

/-- The loop over the chains changes at most the chain that it ends at. -/
theorem processChains_consulted (chains : List FilterChainImpl) :
    consulted request chains = none ∧ processChains w request chains = (.ok .ok, .empty, chains) ∨
    ∃ k chain, consulted request chains = some k ∧ chains[k]? = some chain ∧ processChains w request chains =
      ((consult w request chain).1, (consult w request chain).2.1, chains.set k (consult w request chain).2.2) := by
  induction chains with
  | nil => exact .inl ⟨rfl, rfl⟩
  | cons first chains ih =>
    rcases hb : first.matchesRequest request with exn | b
    · refine .inr ⟨0, first, by simp [consulted, List.findIdx?_cons, stopsAt, hb], rfl, ?_⟩
      simp [processChains, consult, hb]
    · cases b with
      | true =>
        refine .inr ⟨0, first, by simp [consulted, List.findIdx?_cons, stopsAt, hb], rfl, ?_⟩
        simp [processChains, consult, hb]
      | false =>
        have hcons : consulted request (first :: chains) = (consulted request chains).map (· + 1) := by
          simp [consulted, List.findIdx?_cons, stopsAt, hb]
        rcases ih with ⟨hc, hp⟩ | ⟨k, chain, hc, hk, hp⟩
        · exact .inl ⟨by rw [hcons, hc]; rfl, by simp only [processChains, hb, hp]⟩
        · refine .inr ⟨k + 1, chain, by rw [hcons, hc]; rfl, hk, ?_⟩
          simp only [processChains, hb, hp, List.set_cons_succ]

theorem consult_config (chain : FilterChainImpl) : (consult w request chain).2.2.config = chain.config := by
  unfold consult
  split
  · rfl
  · exact processChain_config w request chain

/-- Which chain a request goes to is settled by the configuration. -/
theorem consulted_of_serves {config : AuthService.Config} {impl : AuthServiceImpl} (h : Serves config impl) :
    consulted request impl.chains = consulted request (create config).chains := by
  have hmap (l : List FilterChainImpl) :
      consulted request l = (l.map (·.config)).findIdx? (fun chain => stopsAt request (.create chain)) := by
    rw [List.findIdx?_map]
    rfl
  rw [hmap, hmap, h.chains, (serves_create config).chains]

/-- The status when no chain is consulted. -/
def unconsulted : Except Exn Bool → GrpcStatus
  | .ok _ => .ok
  | .error _ => .internal (text "internal error")

/-- One `Check`: the trigger rules decide, or the chain that the loop ends at does. -/
theorem check_consulted (impl : AuthServiceImpl) :
    (triggered w request impl ≠ .ok true ∨ consulted request impl.chains = none) ∧
      check w request impl = (unconsulted (triggered w request impl), .empty, impl) ∨
    ∃ k chain, triggered w request impl = .ok true ∧ consulted request impl.chains = some k ∧
      impl.chains[k]? = some chain ∧ check w request impl =
        (statusOf (consult w request chain).1, (consult w request chain).2.1,
          { impl with chains := impl.chains.set k (consult w request chain).2.2 }) := by
  unfold check triggered
  dsimp only
  split
  · rename_i ht
    exact .inl ⟨.inl (by simp [ht]), by rw [ht]; rfl⟩
  · rename_i ht
    exact .inl ⟨.inl (by simp [ht]), by rw [ht]; rfl⟩
  · rename_i ht
    rcases processChains_consulted w request impl.chains with ⟨hc, hp⟩ | ⟨k, chain, hc, hk, hp⟩
    · exact .inl ⟨.inr hc, by rw [hp, ht]; rfl⟩
    · refine .inr ⟨k, chain, ht, hc, hk, ?_⟩
      rw [hp]
      cases (consult w request chain).1 <;> rfl

/-- What a caller gets. -/
def answer (impl : AuthServiceImpl) : Activity → Option (GrpcStatus × CheckResponse)
  | .check w request => some ((check w request impl).1, (check w request impl).2.1)
  | .cleanup _ => none

/-- The activities that concern a chain: the requests that go to it, and the clean-ups. -/
def concerns (config : AuthService.Config) (k : Nat) : Activity → Bool
  | .check _ request => consulted request (create config).chains == some k
  | .cleanup _ => true

/-- Two services of one configuration with the same chain at one place. -/
structure AlikeAt (config : AuthService.Config) (k : Nat) (impl other : AuthServiceImpl) : Prop where
  serves : Serves config impl
  serves' : Serves config other
  chain : impl.chains[k]? = other.chains[k]?

variable {config : AuthService.Config} {k : Nat} {impl other : AuthServiceImpl}

theorem serves_after (h : Serves config impl) (activity : Activity) : Serves config (impl.after activity) := by
  cases activity with
  | check w request => exact h.process w request
  | cleanup readings =>
    refine ⟨h.triggerRules, ?_⟩
    rw [← h.chains]
    refine List.ext_getElem? fun i => ?_
    simp only [after, doPeriodicCleanup, List.getElem?_map, List.getElem?_mapIdx, Option.map_map]
    rfl

private theorem getElem?_check_other (hc : consulted request impl.chains ≠ some k) :
    (check w request impl).2.2.chains[k]? = impl.chains[k]? := by
  rcases check_consulted w request impl with ⟨_, hcheck⟩ | ⟨i, chain, _, hi, _, hcheck⟩
  · rw [hcheck]
  · have hne : i ≠ k := by
      rintro rfl
      exact hc hi
    rw [hcheck, List.getElem?_set_ne hne]

private theorem check_alike (h : AlikeAt config k impl other) (hc : consulted request impl.chains = some k) :
    ((check w request impl).1, (check w request impl).2.1) = ((check w request other).1, (check w request other).2.1) ∧
      (check w request impl).2.2.chains[k]? = (check w request other).2.2.chains[k]? := by
  have hc' : consulted request other.chains = some k := by
    rw [consulted_of_serves request h.serves', ← consulted_of_serves request h.serves, hc]
  have ht : triggered w request other = triggered w request impl := by
    unfold triggered
    rw [h.serves.triggerRules, h.serves'.triggerRules]
  rcases check_consulted w request impl with ⟨hno, hcheck⟩ | ⟨i, chain, hyes, hi, hchain, hcheck⟩
  · rcases check_consulted w request other with ⟨_, hcheck'⟩ | ⟨_, _, hyes, _⟩
    · rw [hcheck, hcheck', ht]
      exact ⟨rfl, h.chain⟩
    · simp [← ht, hyes, hc] at hno
  · rcases check_consulted w request other with ⟨hno, _⟩ | ⟨i', chain', _, hi', hchain', hcheck'⟩
    · simp [ht, hyes, hc'] at hno
    · obtain rfl := Option.some.inj (hi.symm.trans hc)
      obtain rfl := Option.some.inj (hi'.symm.trans hc')
      have hlt := (List.getElem?_eq_some_iff.mp hchain).1
      have hlt' := (List.getElem?_eq_some_iff.mp hchain').1
      rw [h.chain, hchain'] at hchain
      obtain rfl := Option.some.inj hchain
      rw [hcheck, hcheck']
      exact ⟨rfl, by rw [List.getElem?_set_self hlt, List.getElem?_set_self hlt']⟩

/-- What a chain answers, and what it comes to hold, does not depend on the requests that go to other chains. -/
theorem chains_undisturbed (config : AuthService.Config) (k : Nat) (activities : List Activity) :
    observed after answer (concerns config k) (create config) activities =
        observed after answer (concerns config k) (create config) (activities.filter (concerns config k)) ∧
      ((create config).served activities).chains[k]? =
        ((create config).served (activities.filter (concerns config k))).chains[k]? := by
  have hu : Unwinding after answer (concerns config k) (AlikeAt config k) := by
    refine ⟨fun {impl other a} h ha => ?_, fun {impl other a} h ha => ?_, fun {impl other a} h ha => ?_⟩
    · cases a with
      | check w request =>
        have hc : consulted request impl.chains = some k := by
          simpa [concerns, ← consulted_of_serves request h.serves] using ha
        exact congrArg some (check_alike w request h hc).1
      | cleanup readings => rfl
    · refine ⟨serves_after h.serves a, serves_after h.serves' a, ?_⟩
      cases a with
      | check w request =>
        have hc : consulted request impl.chains = some k := by
          simpa [concerns, ← consulted_of_serves request h.serves] using ha
        exact (check_alike w request h hc).2
      | cleanup readings => simp [after, doPeriodicCleanup, h.chain]
    · refine ⟨serves_after h.serves a, h.serves', ?_⟩
      cases a with
      | check w request =>
        have hc : consulted request impl.chains ≠ some k := by
          simpa [concerns, ← consulted_of_serves request h.serves] using ha
        exact (getElem?_check_other w request hc).trans h.chain
      | cleanup readings => cases ha
  obtain ⟨hobserved, halike⟩ := hu.purge ⟨serves_create config, serves_create config, rfl⟩ activities
  exact ⟨hobserved, halike.chain⟩

end AuthServiceImpl
end AuthService.Service
