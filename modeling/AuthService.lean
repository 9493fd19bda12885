import AuthService.Common.Bytes
import AuthService.Common.Http.BasicAuth
import AuthService.Common.Http.Codec
import AuthService.Common.Http.Connection
import AuthService.Common.Http.PercentCodec
import AuthService.Common.Http.Post
import AuthService.Common.Http.Serialization
import AuthService.Common.Http.Uri
import AuthService.Common.Http.UriGrammar
import AuthService.Common.Session.SessionStringGenerator
import AuthService.Common.Utilities.TriggerRules
import AuthService.Config.GetConfig
import AuthService.Config.Messages
import AuthService.Config.Verdict
import AuthService.Envoy
import AuthService.Filters.FilterChain
import AuthService.Filters.Oidc.AuthorizationRequest
import AuthService.Filters.Oidc.Consumption
import AuthService.Filters.Oidc.Exceptions
import AuthService.Filters.Oidc.Execution
import AuthService.Filters.Oidc.FailedCallback
import AuthService.Filters.Oidc.Isolation
import AuthService.Filters.Oidc.Login
import AuthService.Filters.Oidc.OidcFilter
import AuthService.Filters.Oidc.Progress
import AuthService.Filters.Oidc.Protocol
import AuthService.Filters.Oidc.Provenance
import AuthService.Filters.Oidc.Redirects
import AuthService.Filters.Oidc.Refresh
import AuthService.Filters.Oidc.Removal
import AuthService.Filters.Oidc.Responses
import AuthService.Filters.Oidc.RoundTrip
import AuthService.Filters.Oidc.Runs
import AuthService.Filters.Oidc.SessionStore
import AuthService.Filters.Oidc.StoreHistory
import AuthService.Filters.Oidc.TokenParsing
import AuthService.Filters.Oidc.TokenRequests
import AuthService.Filters.Oidc.TokenResponse
import AuthService.Filters.Pipe
import AuthService.Filters.SharedStore
import AuthService.Lib.Base64
import AuthService.Lib.Containers
import AuthService.Lib.Interleaving
import AuthService.Lib.Machine
import AuthService.Lib.Program
import AuthService.Lib.Spelling
import AuthService.Service.Acceptance
import AuthService.Service.AsyncServiceImpl
import AuthService.Service.HeaderNames
import AuthService.Service.Lifetimes
import AuthService.Service.Logout
import AuthService.Service.Separation
import AuthService.Service.Sequential
import AuthService.Service.ServiceImpl
import AuthService.Service.ServingLoop
import AuthService.Service.TriggerGate
