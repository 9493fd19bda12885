import AuthService.Config.GetConfig
import AuthService.Filters.Oidc.Execution

/-! Filter chains: matching a request, building the pipe of filters, and running it. -/
namespace AuthService.Filters
open Config Oidc

/-- A chain keeps one session store for all the filters it ever builds. -/
structure FilterChainImpl where
  config : Config.FilterChain
  oidcSessionStore : Option InMemorySessionStore

namespace FilterChainImpl

def create (config : Config.FilterChain) : FilterChainImpl := ⟨config, none⟩

def matchesRequest (chain : FilterChainImpl) (request : CheckRequest) : Except Exn Bool :=
  match chain.config.match? with
  | none => .ok true
  | some m =>
    match request.http.headers.lookup m.header with
    | none => .ok false
    | some value =>
      match m.criteria with
      | .kPrefix s => .ok (startsWith value s)
      | .kEquality s => .ok (value == s)
      | .notSet => .error (.runtimeError (text "invalid FilterChain match type"))

/-- The loop of `New`: the filters added so far are counted, and the store is created with the
timeouts of the first. -/
def newLoop : List Filter → (pipe : List OIDCConfig) → Option InMemorySessionStore →
    Except Exn (List OIDCConfig) × Option InMemorySessionStore
  | [], pipe, store => (.ok pipe, store)
  | filter :: filters, pipe, store =>
    match filter.oidc? with
    | none => (.error (.runtimeError (text "unsupported filter type")), store)
    | some oidc =>
      if pipe.length + 1 > 1 then
        (.error (.runtimeError (text "only one filter of type \"oidc\" is allowed in a chain")), store)
      else newLoop filters (pipe ++ [oidc])
        (some (store.getD (.create oidc.absoluteSessionTimeout oidc.idleSessionTimeout)))

def new (chain : FilterChainImpl) : Except Exn (List OIDCConfig) × FilterChainImpl :=
  let (pipe, store) := newLoop chain.config.filters [] chain.oidcSessionStore
  (pipe, { chain with oidcSessionStore := store })

/-- There is nothing to clean up before a first request has created the store. -/
def doPeriodicCleanup (nowAdded nowIdle : Int) (chain : FilterChainImpl) : FilterChainImpl :=
  { chain with oidcSessionStore := chain.oidcSessionStore.map (·.removeAllExpired nowAdded nowIdle) }

variable {chain : FilterChainImpl}

theorem matchesRequest_of_loaded (h : Loaded chain.config) (request : CheckRequest) :
    ∃ b, chain.matchesRequest request = .ok b := by
  unfold matchesRequest
  cases hm : chain.config.match? with
  | none => exact ⟨true, rfl⟩
  | some m =>
    dsimp only
    split
    · exact ⟨false, rfl⟩
    · split
      · exact ⟨_, rfl⟩
      · exact ⟨_, rfl⟩
      · exact absurd ‹_› (h.criteria m hm)

/-- The store the chain's only filter works on. -/
def storeFor (chain : FilterChainImpl) (oidc : OIDCConfig) : InMemorySessionStore :=
  chain.oidcSessionStore.getD (.create oidc.absoluteSessionTimeout oidc.idleSessionTimeout)

theorem new_single {oidc : OIDCConfig} (h : chain.config.filters = [⟨some oidc⟩]) :
    chain.new = (.ok [oidc], { chain with oidcSessionStore := some (chain.storeFor oidc) }) := by
  simp [new, newLoop, h, storeFor]

/-- A second filter, which loading accepts, makes `New` throw. -/
theorem new_second {first second : OIDCConfig} {filters : List Filter}
    (h : chain.config.filters = ⟨some first⟩ :: ⟨some second⟩ :: filters) :
    chain.new.1 = .error (.runtimeError (text "only one filter of type \"oidc\" is allowed in a chain")) := by
  simp [new, newLoop, h]

end FilterChainImpl

/-- `Pipe::Process`, with one clock value and one identity provider for the whole request. An
exception leaves the response as the filter left it. -/
def Pipe.process (lib : Libraries) (now : Int) (x : External) (request : CheckRequest) :
    List OIDCConfig → CheckResponse → InMemorySessionStore → Outcome × InMemorySessionStore
  | [], response, store => (.returned .ok (response.setStatus .ok (text "OK")), store)
  | filter :: filters, response, store =>
    match (OidcFilter.process filter lib request response).run now (Op.exec now x) store with
    | (.returned .ok response, store) => Pipe.process lib now x request filters response store
    | (.returned code response, store) => (.returned code (response.setStatus code OidcFilter.name), store)
    | (.thrown exn response, store) => (.thrown exn response, store)

/-- A pipe of one filter ends as the filter does, with its code in the response's status. -/
def Pipe.settled : Outcome → Outcome
  | .returned .ok response => .returned .ok (response.setStatus .ok (text "OK"))
  | .returned code response => .returned code (response.setStatus code OidcFilter.name)
  | .thrown exn response => .thrown exn response

theorem Pipe.process_single (lib : Libraries) (now : Int) (x : External) (request : CheckRequest)
    (oidc : OIDCConfig) (store : InMemorySessionStore) :
    Pipe.process lib now x request [oidc] .empty store =
      ((OidcFilter.runProcess lib oidc now x request store).1 |> Pipe.settled,
        (OidcFilter.runProcess lib oidc now x request store).2) := by
  unfold OidcFilter.runProcess Pipe.process
  split <;> simp_all [Pipe.process, Pipe.settled]

end AuthService.Filters
