import AuthService.Common.Http.Uri

/-! The control flow of `HttpImpl::Post` around the network calls it makes. -/
namespace AuthService.Common.Http

structure PostRequest where
  uri : Bytes
  headers : List (Bytes × Bytes)
  body : Bytes
  caCert : Bytes
  proxyUri : Bytes
  deriving DecidableEq, Repr

/-- A null response stands for every `std::exception` caught inside; the `error_code` thrown
when the server name cannot be set is no `std::exception` and leaves the function. -/
inductive PostResult where
  | null
  | response (status : Nat) (body : Bytes)
  | thrown
  deriving DecidableEq, Repr

inductive ShutdownError where
  | notConnected
  | streamTruncated
  | other
  deriving DecidableEq, Repr

/-- Connecting, writing and reading: one of the calls throws, or a response is read and the
socket is shut down with or without an error. -/
inductive Exchange where
  | failed
  | completed (status : Nat) (body : Bytes) (shutdown : Option ShutdownError)
  deriving DecidableEq, Repr

/-- The TLS context and the network, as the function sees them. -/
structure Network where
  addCertificateAuthority : Bytes → Bool
  setTlsextHostName : Bytes → Bool
  httpConnect : (proxyHost : Bytes) → (proxyPort : Int) → (target : Bytes) → Option Nat
  exchange : (target : Uri) → (headers : List (Bytes × Bytes)) → (body : Bytes) → Exchange

namespace HttpImpl

def send (network : Network) (target : Uri) (request : PostRequest) : PostResult :=
  match network.exchange target (request.headers.map fun h => (cStr h.1, cStr h.2)) request.body with
  | .failed => .null
  | .completed status body none => .response status body
  | .completed status body (some .notConnected) => .response status body
  | .completed status body (some .streamTruncated) => .response status body
  | .completed _ _ (some .other) => .null

def connectTarget (u : Uri) : Bytes := u.host ++ text ":" ++ decimal u.port

/-- The status that is tested after the `CONNECT`. The parser reads the answer into its own copy of
`http_connect_res`, which keeps the status of a new response. -/
def httpConnectRes : Nat := 200

def post (network : Network) (request : PostRequest) : PostResult :=
  if !request.caCert.isEmpty && !network.addCertificateAuthority request.caCert then .null
  else match Uri.parse request.uri with
    | .error _ => .null
    | .ok target =>
      if !network.setTlsextHostName (cStr target.host) then .thrown
      else if request.proxyUri.isEmpty then send network target request
      else match Uri.parse request.proxyUri with
        | .error _ => .null
        | .ok proxy =>
          match network.httpConnect proxy.host proxy.port (connectTarget target) with
          | none => .null
          | some _ => if httpConnectRes ≠ 200 then .null else send network target request

theorem send_ne_thrown (network : Network) (target : Uri) (request : PostRequest) :
    send network target request ≠ .thrown := by
  unfold send
  split <;> simp

/-- The one exception that escapes: the trusted authority is usable, the URI parses, and the
server name is refused. -/
theorem post_thrown_iff (network : Network) (request : PostRequest) :
    post network request = .thrown ↔
      (request.caCert.isEmpty ∨ network.addCertificateAuthority request.caCert) ∧
      ∃ target, Uri.parse request.uri = .ok target ∧ network.setTlsextHostName (cStr target.host) = false := by
  unfold post
  split
  · rename_i h
    simp_all
  · rename_i h
    have hca : request.caCert.isEmpty ∨ network.addCertificateAuthority request.caCert := by
      simp only [Bool.and_eq_true, Bool.not_eq_true'] at h
      cases hc : request.caCert.isEmpty <;> simp_all
    cases hu : Uri.parse request.uri with
    | error what => simp
    | ok target =>
      simp only [hca, true_and, Except.ok.injEq, exists_eq_left']
      cases hn : network.setTlsextHostName (cStr target.host) with
      | false => simp
      | true =>
        simp only [Bool.not_true, Bool.false_eq_true, if_false, Bool.true_eq_false, iff_false]
        split
        · exact send_ne_thrown network target request
        · split
          · simp
          · split
            · simp
            · split
              · simp
              · exact send_ne_thrown network target request

/-- A proxy that refuses is taken for one that accepts: of its answer nothing counts but that it was read. -/
theorem post_of_httpConnect {network network' : Network} (request : PostRequest)
    (ha : network'.addCertificateAuthority = network.addCertificateAuthority)
    (hn : network'.setTlsextHostName = network.setTlsextHostName) (hx : network'.exchange = network.exchange)
    (hc : ∀ host port target,
      (network'.httpConnect host port target).isSome = (network.httpConnect host port target).isSome) :
    post network' request = post network request := by
  have hsend (target : Uri) : send network' target request = send network target request := by
    simp only [send, hx]
  unfold post
  simp only [ha, hn, hsend]
  cases Uri.parse request.uri with
  | error what => rfl
  | ok target =>
    cases Uri.parse request.proxyUri with
    | error what => rfl
    | ok proxy =>
      have hread := hc proxy.host proxy.port (connectTarget target)
      dsimp only
      generalize network'.httpConnect proxy.host proxy.port (connectTarget target) = answer' at hread ⊢
      generalize network.httpConnect proxy.host proxy.port (connectTarget target) = answer at hread ⊢
      cases answer with
      | none =>
        obtain rfl : answer' = none := by simpa using hread
        rfl
      | some status =>
        obtain ⟨status', rfl⟩ := Option.isSome_iff_exists.mp hread
        rfl

end HttpImpl
end AuthService.Common.Http
