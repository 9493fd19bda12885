import AuthService.Filters.Oidc.Exceptions
import AuthService.Filters.Oidc.Login
import AuthService.Service.ServiceImpl

/-! The worker that answers a call, and when its answers are safe. -/
namespace AuthService.Service
open Config Filters Filters.Oidc Common.Http Common.Utilities AuthServiceImpl

/-- What is handed to `Finish`. -/
structure Answer where
  response : CheckResponse
  status : GrpcStatus
  deriving DecidableEq, Repr

/-- Envoy lets a request through on these answers. -/
def Answer.Allows (a : Answer) : Prop := a.status = .ok ∧ a.response.statusCode = 0

/-- The coroutine of `ProcessingState::Proceed`; the status that `Check` returns is dropped. -/
def ProcessingState.process (w : Surroundings) (request : CheckRequest) (service : AuthServiceImpl) :
    Answer × AuthServiceImpl :=
  let (_, response, service) := check w request service
  (⟨response, .ok⟩, service)

section FailClosed
variable (w : Surroundings) (request : CheckRequest) (service : AuthServiceImpl)

/-- Whether the trigger rules select the request's path. -/
def triggered : Except Exn Bool :=
  TriggerRules.triggerRuleMatchesPath w.regexMatch (PathQueryFragment.parse request.http.path).path
    service.triggerRulesConfig

/-- The grounds on which a request may be let through. -/
inductive Permitted : Prop
  | untriggered : triggered w request service = .ok false → Permitted
  | unmatched : firstMatch request service.chains = none → Permitted
  | processed {chain chain' filters store response} : firstMatch request service.chains = some chain →
      chain.new = (.ok filters, chain') → chain'.oidcSessionStore = some store →
      (Pipe.process w.lib w.now w.external request filters .empty store).1 = .returned .ok response → Permitted

/-- An allow has its grounds, and a failed check is not answered by one. -/
structure FailClosed : Prop where
  permitted : (ProcessingState.process w request service).1.Allows → Permitted w request service
  failed : (check w request service).1 ≠ .ok → ¬ (ProcessingState.process w request service).1.Allows

/-- Nothing throws: the trigger rules can be evaluated, and the chain that gets the request has one
filter, which does not run into a POST that is refused. -/
structure Undisturbed : Prop where
  trigger : ∃ b, triggered w request service = .ok b
  chain : triggered w request service = .ok true → ∀ chain, firstMatch request service.chains = some chain →
    ∃ oidc, chain.config.filters = [⟨some oidc⟩] ∧
      ¬ (Posts oidc w.now request (chain.storeFor oidc) ∧ PostRefused w.network oidc)

/-- A service built from a configuration, with whatever its stores have come to hold. -/
structure Serves (config : AuthService.Config) (service : AuthServiceImpl) : Prop where
  triggerRules : service.triggerRulesConfig = config.triggerRules
  chains : service.chains.map (·.config) = config.chains

theorem serves_create (config : AuthService.Config) : Serves config (.create config) := by
  refine ⟨rfl, ?_⟩
  simp only [AuthServiceImpl.create, List.map_map]
  exact List.map_id _

/-- Answering a call keeps the configuration. -/
theorem Serves.process {config : AuthService.Config} (h : Serves config service) :
    Serves config (ProcessingState.process w request service).2 := by
  have hchains : (check w request service).2.2.chains.map (·.config) = service.chains.map (·.config) := by
    unfold check
    dsimp only
    split
    · rfl
    · rfl
    · rw [← processChains_config w request service.chains]
      split <;> simp_all
  have hrules : (check w request service).2.2.triggerRulesConfig = service.triggerRulesConfig := by
    unfold check
    dsimp only
    split
    · rfl
    · rfl
    · split <;> rfl
  exact ⟨hrules.trans h.triggerRules, hchains.trans h.chains⟩

variable {w request service}

/-- The status that `Check` returns for what its loop over the chains ends with. -/
def statusOf : Except Exn GrpcStatus → GrpcStatus
  | .ok status => status
  | .error _ => .internal (text "internal error")

/-- A selected request is answered by the loop over the chains. -/
theorem check_triggered (ht : triggered w request service = .ok true) :
    (check w request service).1 = statusOf (processChains w request service.chains).1 ∧
      (check w request service).2.1 = (processChains w request service.chains).2.1 := by
  unfold triggered at ht
  simp only [check, ht]
  split <;> rename_i hp <;> rw [hp] <;> exact ⟨rfl, rfl⟩

private theorem check_of_ok {status : GrpcStatus} (ht : triggered w request service = .ok true)
    (hp : (processChains w request service.chains).1 = .ok status) :
    (check w request service).1 = status ∧
      (check w request service).2.1 = (processChains w request service.chains).2.1 := by
  obtain ⟨hstatus, hresponse⟩ := check_triggered ht
  rw [hp] at hstatus
  exact ⟨hstatus, hresponse⟩

private theorem check_of_error {exn : Exn} (ht : triggered w request service = .ok true)
    (hp : (processChains w request service.chains).1 = .error exn) :
    (check w request service).1 ≠ .ok ∧
      (check w request service).2.1 = (processChains w request service.chains).2.1 := by
  obtain ⟨hstatus, hresponse⟩ := check_triggered ht
  rw [hp] at hstatus
  refine ⟨fun hok => ?_, hresponse⟩
  cases hstatus.symm.trans hok

private theorem failClosed_of_ok (hs : (check w request service).1 = .ok) (hp : Permitted w request service) :
    FailClosed w request service :=
  ⟨fun _ => hp, fun h => absurd hs h⟩

private theorem failClosed_of_denied (hr : (check w request service).2.1.statusCode ≠ 0) :
    FailClosed w request service :=
  ⟨fun h => absurd h.2 hr, fun _ h => hr h.2⟩

private theorem not_failClosed (hs : (check w request service).1 ≠ .ok)
    (hr : (check w request service).2.1.statusCode = 0) : ¬ FailClosed w request service :=
  fun h => h.failed hs ⟨rfl, hr⟩

private theorem failClosed_of_returned {chain : FilterChainImpl} {oidc : OIDCConfig} {code : Code}
    {response : CheckResponse} (hl : ∀ chain ∈ service.chains, Loaded chain.config)
    (ht : triggered w request service = .ok true) (hf : firstMatch request service.chains = some chain)
    (ho : chain.config.filters = [⟨some oidc⟩])
    (h : (OidcFilter.runProcess w.lib oidc w.now w.external request (chain.storeFor oidc)).1 =
      .returned code response) : FailClosed w request service := by
  obtain ⟨hstatus, hresponse⟩ := processChains_some w request hl hf
  obtain ⟨hs, hr⟩ := Prod.mk.inj (processChain_single w request ho)
  rw [h] at hs hr
  by_cases hcode : code = .ok
  · subst hcode
    have hpipe : (Pipe.process w.lib w.now w.external request [oidc] .empty (chain.storeFor oidc)).1 =
        .returned .ok (response.setStatus .ok (text "OK")) := by
      rw [Pipe.process_single, h]
      rfl
    exact failClosed_of_ok (check_of_ok ht (hstatus.trans hs)).1
      (.processed hf (FilterChainImpl.new_single ho) rfl hpipe)
  · have hsettled : Pipe.settled (.returned code response) =
        .returned code (response.setStatus code OidcFilter.name) := by
      cases code <;> first | exact absurd rfl hcode | rfl
    rw [hsettled] at hs hr
    refine failClosed_of_denied ?_
    rw [(check_of_ok ht (hstatus.trans hs)).2, hresponse, hr]
    simpa [relay, CheckResponse.setStatus] using hcode

private theorem not_failClosed_of_error {chain : FilterChainImpl} {exn : Exn}
    (hl : ∀ chain ∈ service.chains, Loaded chain.config) (ht : triggered w request service = .ok true)
    (hf : firstMatch request service.chains = some chain) (hs : (processChain w request chain).1 = .error exn)
    (hz : (processChain w request chain).2.1.statusCode = 0) : ¬ FailClosed w request service := by
  obtain ⟨hstatus, hresponse⟩ := processChains_some w request hl hf
  obtain ⟨hfail, hcheck⟩ := check_of_error ht (hstatus.trans hs)
  refine not_failClosed hfail ?_
  rw [hcheck, hresponse, hz]

private theorem failClosed_single_iff {chain : FilterChainImpl} {oidc : OIDCConfig} {u : Uri}
    (hl : ∀ chain ∈ service.chains, Loaded chain.config) (ht : triggered w request service = .ok true)
    (hf : firstMatch request service.chains = some chain) (ho : chain.config.filters = [⟨some oidc⟩])
    (hu : Uri.parse oidc.callbackUri = .ok u) :
    FailClosed w request service ↔
      ¬ (Posts oidc w.now request (chain.storeFor oidc) ∧ PostRefused w.network oidc) := by
  have hcallback (what : Bytes) : OidcFilter.matchesCallbackRequest oidc request ≠ .error what := by
    simp [OidcFilter.matchesCallbackRequest, hu]
  cases h : (OidcFilter.runProcess w.lib oidc w.now w.external request (chain.storeFor oidc)).1 with
  | returned code response =>
    refine iff_of_true (failClosed_of_returned hl ht hf ho h) ?_
    rintro ⟨hp, hr⟩
    obtain ⟨_, _, hthrown, _⟩ := thrown_of_posts w.lib (x := w.external) rfl hp hr
    cases h.symm.trans hthrown
  | thrown exn response =>
    obtain ⟨hp, hr⟩ := posts_of_thrown rfl hcallback h
    obtain ⟨_, _, hthrown, hz⟩ := thrown_of_posts w.lib (x := w.external) rfl hp hr
    obtain ⟨hs, hresponse⟩ := Prod.mk.inj (processChain_single w request ho)
    rw [hthrown] at hs hresponse
    exact iff_of_false (not_failClosed_of_error hl ht hf hs (hresponse ▸ hz)) (not_not.mpr ⟨hp, hr⟩)

private theorem undisturbed_single_iff {chain : FilterChainImpl} {oidc : OIDCConfig}
    (ht : triggered w request service = .ok true) (hf : firstMatch request service.chains = some chain)
    (ho : chain.config.filters = [⟨some oidc⟩]) :
    Undisturbed w request service ↔
      ¬ (Posts oidc w.now request (chain.storeFor oidc) ∧ PostRefused w.network oidc) := by
  constructor
  · intro h
    obtain ⟨oidc', ho', hn⟩ := h.chain ht chain hf
    obtain rfl : oidc = oidc' := by simpa using ho.symm.trans ho'
    exact hn
  · intro hn
    refine ⟨⟨true, ht⟩, fun _ chain' hf' => ?_⟩
    obtain rfl : chain = chain' := Option.some.inj (hf.symm.trans hf')
    exact ⟨oidc, ho, hn⟩

/-- Answers are safe exactly when nothing throws: a caught exception leaves the response without a
status, and the status that `Check` returns instead does not reach the caller. -/
theorem failClosed_iff {loader : Loader} {configFileName : Bytes} {config : AuthService.Config}
    (hc : getConfig loader configFileName = .ok config) (hs : Serves config service) :
    FailClosed w request service ↔ Undisturbed w request service := by
  have hl (chain : FilterChainImpl) (h : chain ∈ service.chains) : Loaded chain.config :=
    loaded_of_getConfig hc (hs.chains ▸ List.mem_map_of_mem h)
  cases ht : triggered w request service with
  | error exn =>
    refine iff_of_false (not_failClosed ?_ ?_) fun h => ?_
    · simp_all [triggered, check]
    · simp_all [triggered, check, CheckResponse.empty]
    · obtain ⟨b, hb⟩ := h.trigger
      cases ht.symm.trans hb
  | ok b =>
    cases b with
    | false =>
      refine iff_of_true (failClosed_of_ok ?_ (.untriggered ht)) ⟨⟨false, ht⟩, ?_⟩
      · simp_all [triggered, check]
      · intro h
        cases ht.symm.trans h
    | true =>
      cases hf : firstMatch request service.chains with
      | none =>
        obtain ⟨hstatus, _⟩ := processChains_none w request hl hf
        refine iff_of_true (failClosed_of_ok (check_of_ok ht hstatus).1 (.unmatched hf)) ⟨⟨true, ht⟩, ?_⟩
        intro _ chain h
        cases hf.symm.trans h
      | some chain =>
        have hchain : Loaded chain.config := hl chain (List.mem_of_find?_eq_some hf)
        obtain ⟨oidc, others, ho, u, hu⟩ := hchain.filters
        cases others with
        | nil => rw [failClosed_single_iff hl ht hf ho hu, undisturbed_single_iff ht hf ho]
        | cons second others =>
          obtain ⟨second, rfl⟩ := hchain.oidc second (by simp [ho])
          obtain ⟨hs, hr⟩ := processChain_second w request ho
          refine iff_of_false (not_failClosed_of_error hl ht hf hs (hr ▸ rfl)) fun h => ?_
          obtain ⟨_, ho', _⟩ := h.chain ht chain hf
          cases ho.symm.trans ho'

end FailClosed

section Sample

def sampleFilter : Bytes :=
  text "\x7b\"oidc\":\x7b\"authorization_uri\":\"https://acme-idp.tld/authorization\"," ++
  text "\"token_uri\":\"https://acme-idp.tld/token\",\"callback_uri\":\"https://me.tld/callback\"," ++
  text "\"jwks\":\"some-jwks\",\"client_id\":\"client1\",\"client_secret\":\"secret\"," ++
  text "\"id_token\":\x7b\"header\":\"authorization\",\"preamble\":\"Bearer\"\x7d\x7d\x7d"

def sampleFile (filters : Bytes) : Bytes :=
  text "\x7b\"chains\":[\x7b\"name\":\"chain\",\"filters\":[" ++ filters ++ text "]\x7d]," ++
  text "\"listen_address\":\"127.0.0.1\",\"listen_port\":10003,\"log_level\":\"trace\",\"threads\":8\x7d"

def fileOidc : OIDCConfig where
  authorizationUri := text "https://acme-idp.tld/authorization"
  tokenUri := text "https://acme-idp.tld/token"
  callbackUri := text "https://me.tld/callback"
  jwks := text "some-jwks"
  clientId := text "client1"
  clientSecret := text "secret"
  scopes := []
  cookieNamePrefix := []
  idToken? := some ⟨text "authorization", text "Bearer"⟩
  accessToken? := none
  logout? := none
  absoluteSessionTimeout := 0
  idleSessionTimeout := 0
  trustedCertificateAuthority := []
  proxyUri := []

def fileConfig (filters : List Filter) : AuthService.Config where
  chains := [⟨text "chain", none, filters⟩]
  listenAddress := text "127.0.0.1"
  listenPort := 10003
  logLevel := text "trace"
  threads := 8
  triggerRules := []

/-- Two files: one filter in the chain, and the same filter twice. -/
def sampleLoader : Loader where
  readFile name := [(text "config.json", sampleFile sampleFilter),
    (text "doubled.json", sampleFile (sampleFilter ++ text "," ++ sampleFilter))].lookup name
  jsonStringToMessage raw :=
    if raw = sampleFile sampleFilter then .ok (fileConfig [⟨some fileOidc⟩])
    else if raw = sampleFile (sampleFilter ++ text "," ++ sampleFilter) then
      .ok (fileConfig [⟨some fileOidc⟩, ⟨some fileOidc⟩])
    else .error (text "INVALID_ARGUMENT")
  isIp address := address == text "127.0.0.1"
  validationError _ := text "ConfigValidationError"

theorem getConfig_sample : getConfig sampleLoader (text "config.json") = .ok (fileConfig [⟨some fileOidc⟩]) := by
  decide +kernel

theorem getConfig_doubled :
    getConfig sampleLoader (text "doubled.json") = .ok (fileConfig [⟨some fileOidc⟩, ⟨some fileOidc⟩]) := by
  decide +kernel

/-- The text of a filter with another callback URI or another name of the id-token header. -/
def filterText (callbackUri header : Bytes) : Bytes :=
  text "\x7b\"oidc\":\x7b\"authorization_uri\":\"https://acme-idp.tld/authorization\"," ++
  text "\"token_uri\":\"https://acme-idp.tld/token\",\"callback_uri\":\"" ++ callbackUri ++ text "\"," ++
  text "\"jwks\":\"some-jwks\",\"client_id\":\"client1\",\"client_secret\":\"secret\"," ++
  text "\"id_token\":\x7b\"header\":\"" ++ header ++ text "\",\"preamble\":\"Bearer\"\x7d\x7d\x7d"

/-- One file, with one filter. -/
def loaderFor (filter : Bytes) (oidc : OIDCConfig) : Loader where
  readFile name := [(text "config.json", sampleFile filter)].lookup name
  jsonStringToMessage raw :=
    if raw = sampleFile filter then .ok (fileConfig [⟨some oidc⟩]) else .error (text "INVALID_ARGUMENT")
  isIp := sampleLoader.isIp
  validationError := sampleLoader.validationError

/-- A network without an identity provider. -/
def sampleSurroundings : Surroundings where
  regexMatch _ _ := some false
  lib := sampleLibraries
  now := 1901001001
  sessionId := (answering .null).sessionId
  state := (answering .null).state
  nonce := (answering .null).nonce
  network :=
    { addCertificateAuthority := fun _ => true
      setTlsextHostName := fun host => 1 ≤ host.length && host.length ≤ 255
      httpConnect := fun _ _ _ => none
      exchange := fun _ _ _ => .failed }

/-- A visitor is not let through by a chain of one filter. -/
theorem failClosed_visit :
    getConfig sampleLoader (text "config.json") = .ok (fileConfig [⟨some fileOidc⟩]) ∧
      FailClosed sampleSurroundings (visit []).request (.create (fileConfig [⟨some fileOidc⟩])) := by
  refine ⟨getConfig_sample, (failClosed_iff getConfig_sample (serves_create _)).mpr ⟨⟨true, rfl⟩, ?_⟩⟩
  intro _ chain hf
  obtain rfl : FilterChainImpl.create ⟨text "chain", none, [⟨some fileOidc⟩]⟩ = chain := by
    simpa [AuthServiceImpl.create, fileConfig, firstMatch, FilterChainImpl.create,
      FilterChainImpl.matchesRequest] using hf
  have hcookie : sessionCookie fileOidc (visit []).request = none := by decide +kernel
  refine ⟨fileOidc, rfl, ?_⟩
  rintro ⟨hp, _⟩
  cases hp with
  | exchange hs => cases hcookie.symm.trans hs.cookie
  | refresh hr => cases hcookie.symm.trans hr.enters.cookie

/-- A visitor is let through by a chain with two filters, which loading accepts. -/
theorem second_filter_allows :
    getConfig sampleLoader (text "doubled.json") = .ok (fileConfig [⟨some fileOidc⟩, ⟨some fileOidc⟩]) ∧
      ¬ FailClosed sampleSurroundings (visit []).request
        (.create (fileConfig [⟨some fileOidc⟩, ⟨some fileOidc⟩])) := by
  refine ⟨getConfig_doubled, fun h => h.failed ?_ ⟨rfl, ?_⟩⟩
  · decide +kernel
  · decide +kernel

end Sample
end AuthService.Service
