import AuthService.Common.Bytes

/-! The configuration messages of `config.proto` and `oidc/config.proto`. -/
namespace AuthService.Config

structure TokenConfig where
  header : Bytes
  preamble : Bytes
  deriving DecidableEq, Repr

structure LogoutConfig where
  path : Bytes
  redirectUri : Bytes
  deriving DecidableEq, Repr

structure OIDCConfig where
  authorizationUri : Bytes
  tokenUri : Bytes
  callbackUri : Bytes
  jwks : Bytes
  clientId : Bytes
  clientSecret : Bytes
  scopes : List Bytes
  cookieNamePrefix : Bytes
  idToken? : Option TokenConfig
  accessToken? : Option TokenConfig
  logout? : Option LogoutConfig
  absoluteSessionTimeout : UInt32
  idleSessionTimeout : UInt32
  trustedCertificateAuthority : Bytes
  proxyUri : Bytes
  deriving DecidableEq, Repr, Inhabited

namespace OIDCConfig

/-- Reading an absent message field yields its default instance. -/
def idToken (c : OIDCConfig) : TokenConfig := c.idToken?.getD ⟨[], []⟩

def accessToken (c : OIDCConfig) : TokenConfig := c.accessToken?.getD ⟨[], []⟩

def hasAccessToken (c : OIDCConfig) : Bool := c.accessToken?.isSome

def logout (c : OIDCConfig) : LogoutConfig := c.logout?.getD ⟨[], []⟩

def hasLogout (c : OIDCConfig) : Bool := c.logout?.isSome

end OIDCConfig

/-- The `criteria` oneof of a match. -/
inductive Criteria where
  | notSet
  | kPrefix (s : Bytes)
  | kEquality (s : Bytes)
  deriving DecidableEq, Repr

structure Match where
  header : Bytes
  criteria : Criteria
  deriving DecidableEq, Repr

structure Filter where
  oidc? : Option OIDCConfig
  deriving DecidableEq, Repr

structure FilterChain where
  name : Bytes
  match? : Option Match
  filters : List Filter
  deriving DecidableEq, Repr

/-- The `match_type` oneof of a string match. -/
inductive StringMatch where
  | notSet
  | kExact (s : Bytes)
  | kPrefix (s : Bytes)
  | kSuffix (s : Bytes)
  | kRegex (s : Bytes)
  deriving DecidableEq, Repr

structure TriggerRule where
  excludedPaths : List StringMatch
  includedPaths : List StringMatch
  deriving DecidableEq, Repr

end AuthService.Config

namespace AuthService
open Config

structure Config where
  chains : List FilterChain
  listenAddress : Bytes
  listenPort : Int
  logLevel : Bytes
  threads : UInt32
  triggerRules : List TriggerRule
  deriving DecidableEq, Repr

end AuthService
