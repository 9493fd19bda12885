import AuthService.Filters.Oidc.Login
import AuthService.Filters.Oidc.Responses

/-! Where users are sent: every `Location` that an interleaved run ever answers with. -/
namespace AuthService.Filters.Oidc
open Lib Common.Http Config OidcFilter

section Process
variable (cfg : OIDCConfig) (request : CheckRequest)

variable {cfg request} {lib : Libraries} {s : Bytes} {e : Int}

end Process

section Runs
variable {C : Type} [DecidableEq C] {lib : Libraries} {cfg : C → OIDCConfig} {h : History C} {p : Requests C}

end Runs

section Sample

end Sample
end AuthService.Filters.Oidc
