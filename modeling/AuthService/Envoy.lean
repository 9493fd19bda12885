import AuthService.Common.Bytes

/-! The parts of Envoy's external authorization messages that the service reads or writes. -/
namespace AuthService

/-- `google.rpc.Code`. -/
inductive Code where
  | ok | cancelled | unknown | invalidArgument | deadlineExceeded | notFound | alreadyExists
  | permissionDenied | resourceExhausted | failedPrecondition | aborted | outOfRange
  | unimplemented | internal | unavailable | dataLoss | unauthenticated
  deriving DecidableEq, Repr

def Code.number : Code → Int
  | .ok => 0 | .cancelled => 1 | .unknown => 2 | .invalidArgument => 3 | .deadlineExceeded => 4
  | .notFound => 5 | .alreadyExists => 6 | .permissionDenied => 7 | .resourceExhausted => 8
  | .failedPrecondition => 9 | .aborted => 10 | .outOfRange => 11 | .unimplemented => 12
  | .internal => 13 | .unavailable => 14 | .dataLoss => 15 | .unauthenticated => 16

@[simp] theorem Code.number_eq_zero (c : Code) : c.number = 0 ↔ c = .ok := by
  cases c <;> decide

/-- A protobuf string map; only look-ups are made in it. -/
abbrev HeaderMap := List (Bytes × Bytes)

structure HttpRequest where
  scheme : Bytes
  host : Bytes
  path : Bytes
  query : Bytes
  headers : HeaderMap
  deriving DecidableEq, Repr

/-- The http part may be missing; reading it then yields an empty message. -/
structure CheckRequest where
  http? : Option HttpRequest
  deriving DecidableEq, Repr

def CheckRequest.http (r : CheckRequest) : HttpRequest := r.http?.getD ⟨[], [], [], [], []⟩

/-- The HTTP status codes the sources set; `empty` is the default. -/
inductive StatusCode where
  | empty
  | found
  | badRequest
  deriving DecidableEq, Repr

structure HeaderValue where
  key : Bytes
  value : Bytes
  deriving DecidableEq, Repr

structure DeniedHttpResponse where
  status : StatusCode
  headers : List HeaderValue
  body : Bytes
  deriving DecidableEq, Repr

structure OkHttpResponse where
  headers : List HeaderValue
  deriving DecidableEq, Repr

/-- The `http_response` oneof. -/
inductive HttpResponse where
  | notSet
  | denied (d : DeniedHttpResponse)
  | ok (o : OkHttpResponse)
  deriving DecidableEq, Repr

structure CheckResponse where
  statusCode : Int
  statusMessage : Bytes
  httpResponse : HttpResponse
  deriving DecidableEq, Repr

namespace CheckResponse

def empty : CheckResponse := ⟨0, [], .notSet⟩

def deniedResponse (r : CheckResponse) : Option DeniedHttpResponse :=
  match r.httpResponse with
  | .denied d => some d
  | _ => none

def okResponse (r : CheckResponse) : Option OkHttpResponse :=
  match r.httpResponse with
  | .ok o => some o
  | _ => none

/-- Writing one arm of the oneof clears the other. -/
def mutableDeniedResponse (r : CheckResponse) (f : DeniedHttpResponse → DeniedHttpResponse) : CheckResponse :=
  { r with httpResponse := .denied (f (r.deniedResponse.getD ⟨.empty, [], []⟩)) }

def mutableOkResponse (r : CheckResponse) (f : OkHttpResponse → OkHttpResponse) : CheckResponse :=
  { r with httpResponse := .ok (f (r.okResponse.getD ⟨[]⟩)) }

@[simp] theorem deniedResponse_mutableDeniedResponse (r : CheckResponse)
    (f : DeniedHttpResponse → DeniedHttpResponse) :
    (r.mutableDeniedResponse f).deniedResponse = some (f (r.deniedResponse.getD ⟨.empty, [], []⟩)) := rfl

def setStatus (r : CheckResponse) (code : Code) (message : Bytes) : CheckResponse :=
  { r with statusCode := code.number, statusMessage := message }

end CheckResponse

/-- The gRPC status of a call; the sources use these three. -/
inductive GrpcStatus where
  | ok
  | invalidArgument (message : Bytes)
  | internal (message : Bytes)
  deriving DecidableEq, Repr

end AuthService
