import AuthService.Common.Http.Uri
import AuthService.Config.Messages

/-! Loading a configuration: the field rules of the proto files and the URI checks of
`get_config.cc`. -/
namespace AuthService.Config
open Common.Http

/-- What loading calls outside the repository: the file system, protobuf's JSON reader, the
address test and the error text of the generated validator. -/
structure Loader where
  readFile : Bytes → Option Bytes
  jsonStringToMessage : Bytes → Except Bytes AuthService.Config
  isIp : Bytes → Bool
  validationError : AuthService.Config → Bytes

/-- The rule `string.min_len = 1`. -/
def minLen (s : Bytes) : Bool := 1 ≤ s.length

namespace Validate

def tokenConfig (c : TokenConfig) : Bool := minLen c.header

def logoutConfig (c : LogoutConfig) : Bool := minLen c.path && minLen c.redirectUri

def oidcConfig (c : OIDCConfig) : Bool :=
  minLen c.authorizationUri && minLen c.tokenUri && minLen c.callbackUri && minLen c.jwks &&
  minLen c.clientId && minLen c.clientSecret && c.idToken?.any tokenConfig &&
  c.accessToken?.all tokenConfig && c.logout?.all logoutConfig

def criteria : Criteria → Bool
  | .notSet => false
  | .kPrefix s => minLen s
  | .kEquality s => minLen s

def chainMatch (m : Match) : Bool := minLen m.header && criteria m.criteria

def filter (f : Filter) : Bool := f.oidc?.any oidcConfig

def filterChain (c : FilterChain) : Bool :=
  minLen c.name && c.match?.all chainMatch && (1 ≤ c.filters.length && c.filters.all filter)

def logLevels : List Bytes := [text "trace", text "debug", text "info", text "error", text "critical"]

def config (isIp : Bytes → Bool) (c : AuthService.Config) : Bool :=
  (1 ≤ c.chains.length && c.chains.all filterChain) && isIp c.listenAddress && c.listenPort < 65536 &&
  logLevels.contains c.logLevel && 1 ≤ c.threads

end Validate

/-- The texts are those of the thrown `runtime_error`s. -/
def validateUri (uri uriName requiredScheme : Bytes) : Except Bytes Unit :=
  let wrongScheme := text "invalid " ++ uriName ++ text ": uri must be " ++ requiredScheme ++ text " scheme: " ++ uri
  match Uri.parse uri with
  | .error what =>
    if contains (cStr what) (text "uri must be http or https scheme") then .error wrongScheme
    else .error (text "invalid " ++ uriName ++ text ": " ++ cStr what)
  | .ok parsed =>
    if parsed.hasQuery || parsed.hasFragment then
      .error (text "invalid " ++ uriName ++ text ": query params and fragments not allowed: " ++ uri)
    else if parsed.scheme ≠ requiredScheme then .error wrongScheme
    else .ok ()

/-- Only the first filter of a chain is looked at. -/
def validateChainUris (chain : FilterChain) : Except Bytes Unit := do
  let oidc := (chain.filters.head?.bind (·.oidc?)).getD default
  validateUri oidc.authorizationUri (text "authorization_uri") (text "https")
  validateUri oidc.callbackUri (text "callback_uri") (text "https")
  validateUri oidc.tokenUri (text "token_uri") (text "https")
  if oidc.proxyUri ≠ [] then validateUri oidc.proxyUri (text "proxy_uri") (text "http") else pure ()

def getConfig (loader : Loader) (configFileName : Bytes) : Except Bytes AuthService.Config := do
  match loader.readFile configFileName with
  | none => .error (text "failed to open filter config")
  | some contents =>
    let config ← loader.jsonStringToMessage contents
    if Validate.config loader.isIp config then do
      config.chains.forM validateChainUris
      pure config
    else .error (loader.validationError config)

private theorem bind_eq_ok {ε α β : Type} {x : Except ε α} {f : α → Except ε β} {b : β} :
    x >>= f = .ok b ↔ ∃ a, x = .ok a ∧ f a = .ok b := by
  cases x <;> simp [bind, Except.bind]

private theorem forM_eq_ok {ε α : Type} {f : α → Except ε Unit} {l : List α} :
    l.forM f = .ok () ↔ ∀ a ∈ l, f a = .ok () := by
  induction l with
  | nil => simp [List.forM, pure, Except.pure]
  | cons a l ih =>
    rw [show (a :: l).forM f = (f a >>= fun _ => l.forM f) from rfl, bind_eq_ok, List.forall_mem_cons, ← ih]
    constructor
    · rintro ⟨_, ha, hl⟩
      exact ⟨ha, hl⟩
    · rintro ⟨ha, hl⟩
      exact ⟨(), ha, hl⟩

private theorem valid_of_getConfig {loader : Loader} {configFileName : Bytes} {config : AuthService.Config}
    (h : getConfig loader configFileName = .ok config) :
    Validate.config loader.isIp config = true ∧ ∀ chain ∈ config.chains, validateChainUris chain = .ok () := by
  unfold getConfig at h
  split at h
  · cases h
  · obtain ⟨c, _, h⟩ := bind_eq_ok.mp h
    split at h
    · rename_i hv
      obtain ⟨_, hu, hc⟩ := bind_eq_ok.mp h
      obtain rfl : c = config := Except.ok.inj hc
      exact ⟨hv, forM_eq_ok.mp hu⟩
    · cases h

private theorem parse_of_validateUri {uri uriName scheme : Bytes} (h : validateUri uri uriName scheme = .ok ()) :
    ∃ u, Uri.parse uri = .ok u ∧ u.scheme = scheme := by
  unfold validateUri at h
  dsimp only at h
  split at h
  · split at h <;> cases h
  · rename_i u hu
    split at h
    · cases h
    · split at h
      · cases h
      · exact ⟨u, hu, not_not.mp ‹_›⟩

private theorem parse_of_validateChainUris {chain : FilterChain} {oidc : OIDCConfig} {filters : List Filter}
    (hf : chain.filters = ⟨some oidc⟩ :: filters) (h : validateChainUris chain = .ok ()) :
    ∃ u, Uri.parse oidc.callbackUri = .ok u ∧ u.scheme = text "https" := by
  unfold validateChainUris at h
  simp only [hf, List.head?_cons, Option.bind_some, Option.getD_some] at h
  obtain ⟨_, _, h⟩ := bind_eq_ok.mp h
  obtain ⟨_, hu, _⟩ := bind_eq_ok.mp h
  exact parse_of_validateUri hu

/-- The callback URI of a chain's first filter is a secure one. -/
theorem callbackUri_of_getConfig {loader : Loader} {configFileName : Bytes} {config : AuthService.Config}
    (h : getConfig loader configFileName = .ok config) {chain : FilterChain} (hc : chain ∈ config.chains)
    {oidc : OIDCConfig} {filters : List Filter} (hf : chain.filters = ⟨some oidc⟩ :: filters) :
    ∃ u, Uri.parse oidc.callbackUri = .ok u ∧ u.scheme = text "https" :=
  parse_of_validateChainUris hf ((valid_of_getConfig h).2 chain hc)

/-- What the service relies on in a chain: a match has a criterion, there is a filter, every filter
is an OIDC filter, and the first one's callback URI parses. -/
structure Loaded (chain : FilterChain) : Prop where
  criteria : ∀ m, chain.match? = some m → m.criteria ≠ .notSet
  filters : ∃ oidc others, chain.filters = ⟨some oidc⟩ :: others ∧ ∃ u, Uri.parse oidc.callbackUri = .ok u
  oidc : ∀ filter ∈ chain.filters, ∃ oidc, filter = ⟨some oidc⟩

/-- Only chains that the service can rely on are loaded. -/
theorem loaded_of_getConfig {loader : Loader} {configFileName : Bytes} {config : AuthService.Config}
    (h : getConfig loader configFileName = .ok config) {chain : FilterChain} (hc : chain ∈ config.chains) :
    Loaded chain := by
  obtain ⟨hv, -⟩ := valid_of_getConfig h
  simp only [Validate.config, Bool.and_eq_true, List.all_eq_true] at hv
  obtain ⟨⟨_, hmatch⟩, hlen, hfilters⟩ : (minLen chain.name ∧ chain.match?.all Validate.chainMatch) ∧
      1 ≤ chain.filters.length ∧ ∀ filter ∈ chain.filters, Validate.filter filter := by
    simpa [Validate.filterChain] using hv.1.1.1.1.2 chain hc
  have hoidc (filter : Filter) (hf : filter ∈ chain.filters) : ∃ oidc, filter = ⟨some oidc⟩ := by
    have hval := hfilters filter hf
    obtain ⟨_ | oidc⟩ := filter
    · cases hval
    · exact ⟨oidc, rfl⟩
  refine ⟨?_, ?_, hoidc⟩
  · intro m hm hn
    simp [Validate.chainMatch, Validate.criteria, hm, hn] at hmatch
  · obtain ⟨filter, others, hf⟩ := List.exists_cons_of_length_pos hlen
    obtain ⟨oidc, rfl⟩ := hoidc filter (hf ▸ List.mem_cons_self)
    obtain ⟨u, hparse, -⟩ := callbackUri_of_getConfig h hc hf
    exact ⟨oidc, others, hf, u, hparse⟩

end AuthService.Config
