import AuthService.Config.GetConfig
import AuthService.Lib.Containers

/-! What loading makes of a file whose fields are valid: either it is accepted, and then the server can start with it,
or the error names the URI that is to blame. -/
namespace AuthService.Config
open Lib Common.Http

/-- The levels of the log library. -/
inductive LogLevel where
  | trace
  | debug
  | info
  | err
  | critical
  deriving DecidableEq, Repr

/-- No level stands for the call of `abort`. -/
def getConfiguredLogLevel (config : AuthService.Config) : Option LogLevel :=
  if config.logLevel = text "trace" ∨ config.logLevel = [] then some .trace
  else if config.logLevel = text "debug" then some .debug
  else if config.logLevel = text "info" then some .info
  else if config.logLevel = text "error" then some .err
  else if config.logLevel = text "critical" then some .critical
  else none

/-- A URI of a filter, with the name and the scheme that it is checked for. -/
structure UriField where
  uri : Bytes
  name : Bytes
  scheme : Bytes
  deriving DecidableEq, Repr

/-- The URIs of a filter, in the order of their checks. -/
def uriFields (oidc : OIDCConfig) : List UriField :=
  [⟨oidc.authorizationUri, text "authorization_uri", text "https"⟩,
    ⟨oidc.callbackUri, text "callback_uri", text "https"⟩, ⟨oidc.tokenUri, text "token_uri", text "https"⟩] ++
  if oidc.proxyUri ≠ [] then [⟨oidc.proxyUri, text "proxy_uri", text "http"⟩] else []

/-- A URI of the required scheme, with neither a query nor a fragment. -/
structure UriField.Acceptable (field : UriField) (parsed : Uri) : Prop where
  parses : Uri.parse field.uri = .ok parsed
  scheme : parsed.scheme = field.scheme
  query : parsed.hasQuery = false
  fragment : parsed.hasFragment = false

def UriField.validate (field : UriField) : Except Bytes Unit := validateUri field.uri field.name field.scheme

/-- The URIs that are checked in a chain are all acceptable. -/
def UrisAcceptable (chain : FilterChain) : Prop :=
  ∀ oidc others, chain.filters = ⟨some oidc⟩ :: others → ∀ field ∈ uriFields oidc, ∃ parsed, field.Acceptable parsed

/-- The first URI that is not acceptable, of the first chain that has one, and an error that names it. -/
structure Blames (config : AuthService.Config) (e : Bytes) (chain : FilterChain) (field : UriField) : Prop where
  chains : ∃ earlier later, config.chains = earlier ++ chain :: later ∧ ∀ other ∈ earlier, UrisAcceptable other
  fields : ∃ oidc others front back, chain.filters = ⟨some oidc⟩ :: others ∧
    uriFields oidc = front ++ field :: back ∧ ∀ other ∈ front, ∃ parsed, other.Acceptable parsed
  unacceptable : ∀ parsed, ¬ field.Acceptable parsed
  named : text "invalid " ++ field.name ++ text ": " <+: e

private theorem validateChainUris_eq {chain : FilterChain} {oidc : OIDCConfig} {others : List Filter}
    (hf : chain.filters = ⟨some oidc⟩ :: others) :
    validateChainUris chain = (uriFields oidc).forM UriField.validate := by
  have hunit (x : Except Bytes Unit) : (x >>= fun _ => pure ()) = x := by cases x <;> rfl
  unfold validateChainUris uriFields
  simp only [hf, List.head?_cons, Option.bind_some, Option.getD_some]
  by_cases hp : oidc.proxyUri = []
  · simp [hp, UriField.validate, hunit]
  · simp [hp, UriField.validate, hunit]

private theorem validate_cases (field : UriField) :
    field.validate = .ok () ∧ (∃ parsed, field.Acceptable parsed) ∨
    ∃ e, field.validate = .error e ∧ (∀ parsed, ¬ field.Acceptable parsed) ∧
      text "invalid " ++ field.name ++ text ": " <+: e := by
  have hscheme : text ": uri must be " = text ": " ++ text "uri must be " := by decide
  have hparams : text ": query params and fragments not allowed: " =
      text ": " ++ text "query params and fragments not allowed: " := by decide
  unfold UriField.validate validateUri
  dsimp only
  split
  · rename_i what hparse
    have hno (parsed : Uri) : ¬ field.Acceptable parsed := by
      intro h
      cases hparse.symm.trans h.parses
    split
    · exact .inr ⟨_, rfl, hno, by simp [hscheme]⟩
    · exact .inr ⟨_, rfl, hno, List.prefix_append _ _⟩
  · rename_i parsed hparse
    have heq {other : Uri} (h : field.Acceptable other) : other = parsed := by
      exact Except.ok.inj (h.parses.symm.trans hparse)
    split
    · rename_i hextra
      refine .inr ⟨_, rfl, fun other h => ?_, by simp [hparams]⟩
      obtain rfl := heq h
      simp [h.query, h.fragment] at hextra
    · rename_i hplain
      split
      · rename_i hother
        refine .inr ⟨_, rfl, fun other h => ?_, by simp [hscheme]⟩
        obtain rfl := heq h
        exact hother h.scheme
      · rename_i hsame
        simp only [Bool.or_eq_true, not_or, Bool.not_eq_true] at hplain
        exact .inl ⟨rfl, parsed, hparse, not_not.mp hsame, hplain.1, hplain.2⟩

private theorem acceptable_of_validate {field : UriField} (h : field.validate = .ok ()) :
    ∃ parsed, field.Acceptable parsed := by
  rcases validate_cases field with ⟨-, ha⟩ | ⟨e, he, -⟩
  · exact ha
  · cases h.symm.trans he

private theorem acceptable_of_validateChainUris {chain : FilterChain} (h : validateChainUris chain = .ok ()) :
    UrisAcceptable chain := by
  intro oidc others hf field hfield
  rw [validateChainUris_eq hf] at h
  rcases forM_cases UriField.validate (uriFields oidc) with ⟨-, hall⟩ | ⟨_, _, _, e, _, _, _, he⟩
  · exact acceptable_of_validate (hall field hfield)
  · cases h.symm.trans he

private theorem filters_of_valid {isIp : Bytes → Bool} {config : AuthService.Config}
    (hv : Validate.config isIp config = true) {chain : FilterChain} (hc : chain ∈ config.chains) :
    ∃ oidc others, chain.filters = ⟨some oidc⟩ :: others := by
  simp only [Validate.config, Bool.and_eq_true, List.all_eq_true] at hv
  have hchain := hv.1.1.1.1.2 chain hc
  simp only [Validate.filterChain, Bool.and_eq_true, decide_eq_true_eq, List.all_eq_true] at hchain
  obtain ⟨-, hlength, hfilters⟩ := hchain
  obtain ⟨⟨oidc?⟩, others, hf⟩ := List.exists_cons_of_length_pos hlength
  cases oidc? with
  | none => cases hfilters ⟨none⟩ (hf ▸ List.mem_cons_self)
  | some oidc => exact ⟨oidc, others, hf⟩

private theorem logLevel_of_valid {isIp : Bytes → Bool} {config : AuthService.Config}
    (hv : Validate.config isIp config = true) : (getConfiguredLogLevel config).isSome = true := by
  simp only [Validate.config, Bool.and_eq_true] at hv
  have hlevel : config.logLevel ∈ Validate.logLevels := by simpa using hv.1.2
  simp only [Validate.logLevels, List.mem_cons, List.not_mem_nil, or_false] at hlevel
  unfold getConfiguredLogLevel
  rcases hlevel with h | h | h | h | h <;> rw [h] <;> decide

/-- The verdict on a file with valid fields. It is accepted exactly when the checked URIs of every chain are
acceptable, and the server then finds a log level; otherwise the error names the first URI that is to blame. -/
theorem getConfig_verdict {loader : Loader} {configFileName contents : Bytes} {config : AuthService.Config}
    (hread : loader.readFile configFileName = some contents)
    (hjson : loader.jsonStringToMessage contents = .ok config)
    (hv : Validate.config loader.isIp config = true) :
    getConfig loader configFileName = .ok config ∧ (∀ chain ∈ config.chains, UrisAcceptable chain) ∧
        (getConfiguredLogLevel config).isSome = true ∨
      ∃ e chain field, getConfig loader configFileName = .error e ∧ Blames config e chain field := by
  have hload : getConfig loader configFileName = (config.chains.forM validateChainUris >>= fun _ => pure config) := by
    simp [getConfig, hread, hjson, hv, bind, Except.bind]
  rcases forM_cases validateChainUris config.chains with ⟨hloop, hall⟩ |
    ⟨earlier, chain, later, e, hchains, hearlier, he, hloop⟩
  · rw [hload, hloop]
    exact .inl ⟨rfl, fun chain hc => acceptable_of_validateChainUris (hall chain hc), logLevel_of_valid hv⟩
  · obtain ⟨oidc, others, hf⟩ := filters_of_valid hv (hchains ▸ List.mem_append_right _ List.mem_cons_self)
    rw [validateChainUris_eq hf] at he
    rcases forM_cases UriField.validate (uriFields oidc) with ⟨hok, -⟩ |
      ⟨front, field, back, e', hfields, hfront, hfield, he'⟩
    · cases he.symm.trans hok
    · obtain rfl := Except.error.inj (he.symm.trans he')
      rcases validate_cases field with ⟨hok, -⟩ | ⟨e', hnamed, hno, hbegins⟩
      · cases hfield.symm.trans hok
      · obtain rfl := Except.error.inj (hfield.symm.trans hnamed)
        refine .inr ⟨e, chain, field, by rw [hload, hloop]; rfl, ?_⟩
        exact {
          chains := ⟨earlier, later, hchains, fun other ho => acceptable_of_validateChainUris (hearlier other ho)⟩
          fields := ⟨oidc, others, front, back, hf, hfields, fun other ho => acceptable_of_validate (hfront other ho)⟩
          unacceptable := hno
          named := hbegins }

/-- A filter that is accepted but for the scheme of one URI. -/
private def plainTokenUri : OIDCConfig where
  authorizationUri := text "https://acme-idp.tld/authorization"
  tokenUri := text "http://acme-idp.tld/token"
  callbackUri := text "https://me.tld/callback"
  jwks := text "some-jwks"
  clientId := text "client1"
  clientSecret := text "secret"
  scopes := []
  cookieNamePrefix := []
  idToken? := some ⟨text "authorization", text "Bearer"⟩
  accessToken? := none
  logout? := none
  absoluteSessionTimeout := 0
  idleSessionTimeout := 0
  trustedCertificateAuthority := []
  proxyUri := []

private def plainTokenConfig : AuthService.Config where
  chains := [⟨text "chain", none, [⟨some plainTokenUri⟩]⟩]
  listenAddress := text "127.0.0.1"
  listenPort := 10003
  logLevel := text "info"
  threads := 8
  triggerRules := []

private def plainTokenFile : Bytes :=
  text "\x7b\"chains\":[\x7b\"name\":\"chain\",\"filters\":[\x7b\"oidc\":\x7b" ++
  text "\"authorization_uri\":\"https://acme-idp.tld/authorization\"," ++
  text "\"token_uri\":\"http://acme-idp.tld/token\",\"callback_uri\":\"https://me.tld/callback\"," ++
  text "\"jwks\":\"some-jwks\",\"client_id\":\"client1\",\"client_secret\":\"secret\"," ++
  text "\"id_token\":\x7b\"header\":\"authorization\",\"preamble\":\"Bearer\"\x7d\x7d\x7d]\x7d]," ++
  text "\"listen_address\":\"127.0.0.1\",\"listen_port\":10003,\"log_level\":\"info\",\"threads\":8\x7d"

private def plainTokenLoader : Loader where
  readFile name := if name = text "config.json" then some plainTokenFile else none
  jsonStringToMessage raw := if raw = plainTokenFile then .ok plainTokenConfig else .error (text "INVALID_ARGUMENT")
  isIp address := address == text "127.0.0.1"
  validationError _ := text "ConfigValidationError"

/-- The token URI is to blame. -/
theorem getConfig_verdict_plain :
    getConfig plainTokenLoader (text "config.json") ≠ .ok plainTokenConfig ∧
      ∃ e chain field, getConfig plainTokenLoader (text "config.json") = .error e ∧
        Blames plainTokenConfig e chain field := by
  have hread : plainTokenLoader.readFile (text "config.json") = some plainTokenFile := by
    simp [plainTokenLoader]
  have hjson : plainTokenLoader.jsonStringToMessage plainTokenFile = .ok plainTokenConfig := by
    simp [plainTokenLoader]
  have hrefused : getConfig plainTokenLoader (text "config.json") ≠ .ok plainTokenConfig := by decide +kernel
  have hverdict := getConfig_verdict hread hjson (by decide +kernel)
  exact ⟨hrefused, hverdict.resolve_left fun h => hrefused h.1⟩

end AuthService.Config
