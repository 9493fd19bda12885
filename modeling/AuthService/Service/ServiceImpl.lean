import AuthService.Common.Utilities.TriggerRules
import AuthService.Filters.FilterChain

/-! The check of one request: trigger rules, the first matching chain, and the translation of its
result, with every exception caught. -/
namespace AuthService.Service
open Config Filters Filters.Oidc Common.Http Common.Utilities

structure AuthServiceImpl where
  triggerRulesConfig : List TriggerRule
  chains : List FilterChainImpl

namespace AuthServiceImpl

def create (config : AuthService.Config) : AuthServiceImpl :=
  ⟨config.triggerRules, config.chains.map FilterChainImpl.create⟩

/-- What a chain's code becomes for the caller. -/
def grpcStatus : Code → GrpcStatus
  | .ok => .ok
  | .unauthenticated => .ok
  | .permissionDenied => .ok
  | .invalidArgument => .invalidArgument (text "invalid request")
  | _ => .internal (text "internal error")

/-- What a request meets: the regular expression library, the parser's libraries, the clock, the
generator's draws and the network. -/
structure Surroundings where
  regexMatch : RegexMatch
  lib : Libraries
  now : Int
  sessionId : SessionString
  state : SessionString
  nonce : SessionString
  network : Network

def Surroundings.external (w : Surroundings) : External where
  sessionId := w.sessionId
  state := w.state
  nonce := w.nonce
  idp := HttpImpl.post w.network

variable (w : Surroundings) (request : CheckRequest)

/-- A matching chain processes the request. -/
def processChain (chain : FilterChainImpl) : Except Exn GrpcStatus × CheckResponse × FilterChainImpl :=
  match chain.new with
  | (.error exn, chain) => (.error exn, .empty, chain)
  | (.ok filters, chain) =>
    match chain.oidcSessionStore with
    | none => (.ok .ok, CheckResponse.empty.setStatus .ok (text "OK"), chain)
    | some store =>
      match Pipe.process w.lib w.now w.external request filters .empty store with
      | (.returned code response, store) =>
        (.ok (grpcStatus code), response, { chain with oidcSessionStore := some store })
      | (.thrown exn response, store) => (.error exn, response, { chain with oidcSessionStore := some store })

/-- The loop over the chains; without a match the request is allowed. -/
def processChains : List FilterChainImpl → Except Exn GrpcStatus × CheckResponse × List FilterChainImpl
  | [] => (.ok .ok, .empty, [])
  | chain :: chains =>
    match chain.matchesRequest request with
    | .error exn => (.error exn, .empty, chain :: chains)
    | .ok true =>
      let (status, response, chain) := processChain w request chain
      (status, response, chain :: chains)
    | .ok false =>
      let (status, response, chains) := processChains chains
      (status, response, chain :: chains)

def check (service : AuthServiceImpl) : GrpcStatus × CheckResponse × AuthServiceImpl :=
  let path := (PathQueryFragment.parse request.http.path).path
  match TriggerRules.triggerRuleMatchesPath w.regexMatch path service.triggerRulesConfig with
  | .error _ => (.internal (text "internal error"), .empty, service)
  | .ok false => (.ok, .empty, service)
  | .ok true =>
    match processChains w request service.chains with
    | (.ok status, response, chains) => (status, response, { service with chains := chains })
    | (.error _, response, chains) => (.internal (text "internal error"), response, { service with chains := chains })

/-- The stores make their clock readings one after the other. -/
def doPeriodicCleanup (readings : Nat → Int × Int) (service : AuthServiceImpl) : AuthServiceImpl :=
  { service with
    chains := service.chains.mapIdx fun i chain => chain.doPeriodicCleanup (readings i).1 (readings i).2 }

theorem processChain_config (chain : FilterChainImpl) : (processChain w request chain).2.2.config = chain.config := by
  have hnew : chain.new.2.config = chain.config := rfl
  unfold processChain
  split
  · simp_all
  · split
    · simp_all
    · split <;> simp_all

theorem processChains_config (chains : List FilterChainImpl) :
    (processChains w request chains).2.2.map (·.config) = chains.map (·.config) := by
  induction chains with
  | nil => rfl
  | cons chain chains ih =>
    unfold processChains
    split
    · rfl
    · simp [processChain_config]
    · simp [ih]

/-- The chain that gets the request. -/
def firstMatch (chains : List FilterChainImpl) : Option FilterChainImpl :=
  chains.find? fun chain => chain.matchesRequest request matches .ok true

theorem processChains_none {chains : List FilterChainImpl} (hl : ∀ chain ∈ chains, Loaded chain.config)
    (hf : firstMatch request chains = none) :
    (processChains w request chains).1 = .ok .ok ∧ (processChains w request chains).2.1 = .empty := by
  induction chains with
  | nil => exact ⟨rfl, rfl⟩
  | cons chain chains ih =>
    obtain ⟨hchain, hchains⟩ := List.forall_mem_cons.mp hl
    obtain ⟨b, hb⟩ := chain.matchesRequest_of_loaded hchain request
    cases b with
    | true => simp [firstMatch, hb] at hf
    | false =>
      have hf : firstMatch request chains = none := by simpa [firstMatch, hb] using hf
      simpa only [processChains, hb] using ih hchains hf

theorem processChains_some {chains : List FilterChainImpl} {chain : FilterChainImpl}
    (hl : ∀ chain ∈ chains, Loaded chain.config) (hf : firstMatch request chains = some chain) :
    (processChains w request chains).1 = (processChain w request chain).1 ∧
      (processChains w request chains).2.1 = (processChain w request chain).2.1 := by
  induction chains with
  | nil => cases hf
  | cons first chains ih =>
    obtain ⟨hfirst, hchains⟩ := List.forall_mem_cons.mp hl
    obtain ⟨b, hb⟩ := first.matchesRequest_of_loaded hfirst request
    cases b with
    | true =>
      obtain rfl : first = chain := by simpa [firstMatch, hb] using hf
      simp only [processChains, hb, and_self]
    | false =>
      have hf : firstMatch request chains = some chain := by simpa [firstMatch, hb] using hf
      simpa only [processChains, hb] using ih hchains hf

/-- What a caller of `Check` sees of a pipe's outcome. -/
def relay : Outcome → Except Exn GrpcStatus × CheckResponse
  | .returned code response => (.ok (grpcStatus code), response)
  | .thrown exn response => (.error exn, response)

theorem processChain_single {chain : FilterChainImpl} {oidc : OIDCConfig}
    (h : chain.config.filters = [⟨some oidc⟩]) :
    ((processChain w request chain).1, (processChain w request chain).2.1) =
      relay (Pipe.settled (OidcFilter.runProcess w.lib oidc w.now w.external request (chain.storeFor oidc)).1) := by
  simp only [processChain, FilterChainImpl.new_single h, Pipe.process_single]
  cases Pipe.settled _ <;> rfl

theorem processChain_second {chain : FilterChainImpl} {first second : OIDCConfig} {filters : List Filter}
    (h : chain.config.filters = ⟨some first⟩ :: ⟨some second⟩ :: filters) :
    (processChain w request chain).1 =
        .error (.runtimeError (text "only one filter of type \"oidc\" is allowed in a chain")) ∧
      (processChain w request chain).2.1 = .empty := by
  have hn := FilterChainImpl.new_second h
  unfold processChain
  cases hnew : chain.new with
  | mk result chain =>
    rw [hnew] at hn
    cases hn
    exact ⟨rfl, rfl⟩

end AuthServiceImpl
end AuthService.Service
