import AuthService.Common.Http.Post
import AuthService.Lib.Program

/-! `HttpImpl::Post` call by call: the TLS context, the resolver, the socket and the TLS stream. What is
sent, over which layer, and after what. -/
namespace AuthService.Common.Http.Connection
open Lib

inductive Verb where
  | connect
  | post
  deriving DecidableEq, Repr

structure Message where
  verb : Verb
  target : Bytes
  version : Nat
  fields : List (Bytes × Bytes)
  body : Bytes
  deriving DecidableEq, Repr

/-- The layer a message is written to: the socket itself, or the TLS stream over it. -/
inductive Layer where
  | tcp
  | tls
  deriving DecidableEq, Repr

/-- Field names are compared without case; the new field comes last. -/
def setField (fields : List (Bytes × Bytes)) (name value : Bytes) : List (Bytes × Bytes) :=
  fields.filter (fun field => !equalsIgnoreCase field.1 name) ++ [(name, value)]

def preparePayload (message : Message) : Message :=
  { message with fields := setField message.fields (text "Content-Length") (decimal message.body.length) }

inductive NetworkOp where
  | addCertificateAuthority (caCert : Bytes)
  | setTlsextHostName (host : Bytes)
  | resolve (host service : Bytes)
  | connect (endpoints : List Bytes)
  | write (layer : Layer) (message : Message)
  | readConnectResponse
  | handshake
  | readResponse
  | shutdown
  deriving DecidableEq, Repr

/-- A call that throws answers `false` or `none`. The answer to the `CONNECT` is the status that the proxy
gave, which the function never looks at; `shutdown` answers its error code. -/
abbrev NetworkOp.Res : NetworkOp → Type
  | .addCertificateAuthority _ => Bool
  | .setTlsextHostName _ => Bool
  | .resolve _ _ => Option (List Bytes)
  | .connect _ => Bool
  | .write _ _ => Bool
  | .readConnectResponse => Option Nat
  | .handshake => Bool
  | .readResponse => Option (Nat × Bytes)
  | .shutdown => Option ShutdownError

abbrev Net := Program Unit NetworkOp.Res

abbrev call (o : NetworkOp) : Net o.Res := Program.perform o

def version : Nat := 11

def connectMessage (target : Uri) : Message where
  verb := .connect
  target := HttpImpl.connectTarget target
  version := version
  fields := setField [] (text "Host") (HttpImpl.connectTarget target)
  body := []

def postMessage (target : Uri) (request : PostRequest) : Message :=
  preparePayload {
    verb := .post
    target := target.pathQueryFragmentString
    version := version
    fields := request.headers.foldl (fun fields header => setField fields (cStr header.1) (cStr header.2))
      (setField [] (text "Host") target.host)
    body := request.body }

def trust (caCert : Bytes) : Net Bool :=
  if caCert.isEmpty then pure true else call (.addCertificateAuthority caCert)

def connectTo (uri : Uri) : Net Bool := do
  match ← call (.resolve uri.host (decimal uri.port)) with
  | none => pure false
  | some endpoints => call (.connect endpoints)

def openTunnel (proxy target : Uri) : Net Bool := do
  if ← connectTo proxy then
    if ← call (.write .tcp (connectMessage target)) then
      match ← call .readConnectResponse with
      | none => pure false
      | some _ => pure (HttpImpl.httpConnectRes == 200)
    else pure false
  else pure false

def openConnection (target : Uri) (proxyUri : Bytes) : Net Bool :=
  if proxyUri.isEmpty then connectTo target
  else match Uri.parse proxyUri with
    | .error _ => pure false
    | .ok proxy => openTunnel proxy target

def exchange (target : Uri) (request : PostRequest) : Net PostResult := do
  if ← call .handshake then
    if ← call (.write .tls (postMessage target request)) then
      match ← call .readResponse with
      | none => pure .null
      | some (status, body) =>
        match ← call .shutdown with
        | some .other => pure .null
        | _ => pure (.response status body)
    else pure .null
  else pure .null

def post (request : PostRequest) : Net PostResult := do
  if ← trust request.caCert then
    match Uri.parse request.uri with
    | .error _ => pure .null
    | .ok target =>
      if ← call (.setTlsextHostName (cStr target.host)) then
        if ← openConnection target request.proxyUri then exchange target request
        else pure .null
      else pure .thrown
  else pure .null

abbrev Log := List (Program.Called Unit NetworkOp.Res)

variable (request : PostRequest) (target : Uri)

/-- The context trusts the given authority, if one is given. -/
inductive Trusts : Log → Prop
  | defaults : request.caCert = [] → Trusts []
  | provided : Trusts [⟨.addCertificateAuthority request.caCert, true, ()⟩]

/-- The stream names the host of the request's URI. -/
inductive Names : Log → Prop
  | named {log} : Trusts request log → Uri.parse request.uri = .ok target →
      Names (⟨.setTlsextHostName (cStr target.host), true, ()⟩ :: log)

/-- The socket was connected to an endpoint of a host. -/
inductive Connects (uri : Uri) (log : Log) : Log → Prop
  | connected {endpoints} : Connects uri log (⟨.connect endpoints, true, ()⟩ ::
      ⟨.resolve uri.host (decimal uri.port), some endpoints, ()⟩ :: log)

/-- The socket is connected to the target, or to the configured proxy, which has answered the `CONNECT` to the
target, with whatever status. -/
inductive Reaches : Log → Prop
  | direct {log log'} : Names request target log → request.proxyUri = [] → Connects target log log' → Reaches log'
  | tunnel {proxy log log' status} : Names request target log → request.proxyUri ≠ [] →
      Uri.parse request.proxyUri = .ok proxy → Connects proxy log log' →
      Reaches (⟨.readConnectResponse, some status, ()⟩ :: ⟨.write .tcp (connectMessage target), true, ()⟩ :: log')

/-- The TLS stream to the target is up. -/
inductive Secures : Log → Prop
  | secured {log} : Reaches request target log → Secures (⟨.handshake, true, ()⟩ :: log)

/-- The calls of `Post`, by the log of its earlier calls. -/
inductive NetworkIssues : Log → NetworkOp → Prop
  | trust : request.caCert ≠ [] → NetworkIssues [] (.addCertificateAuthority request.caCert)
  | name {log target} : Trusts request log → Uri.parse request.uri = .ok target →
      NetworkIssues log (.setTlsextHostName (cStr target.host))
  | resolve {log target uri} : Names request target log →
      (if request.proxyUri = [] then uri = target else Uri.parse request.proxyUri = .ok uri) →
      NetworkIssues log (.resolve uri.host (decimal uri.port))
  | connect {log target uri endpoints} : Names request target log →
      (if request.proxyUri = [] then uri = target else Uri.parse request.proxyUri = .ok uri) →
      NetworkIssues (⟨.resolve uri.host (decimal uri.port), some endpoints, ()⟩ :: log) (.connect endpoints)
  | sendConnect {log log' target proxy} : Names request target log → request.proxyUri ≠ [] →
      Uri.parse request.proxyUri = .ok proxy → Connects proxy log log' →
      NetworkIssues log' (.write .tcp (connectMessage target))
  | readConnect {log log' target proxy} : Names request target log → request.proxyUri ≠ [] →
      Uri.parse request.proxyUri = .ok proxy → Connects proxy log log' →
      NetworkIssues (⟨.write .tcp (connectMessage target), true, ()⟩ :: log') .readConnectResponse
  | handshake {log target} : Reaches request target log → NetworkIssues log .handshake
  | send {log target} : Secures request target log → NetworkIssues log (.write .tls (postMessage target request))
  | read {log target} : Secures request target log →
      NetworkIssues (⟨.write .tls (postMessage target request), true, ()⟩ :: log) .readResponse
  | shutdown {log target answer} : Secures request target log →
      NetworkIssues (⟨.readResponse, some answer, ()⟩ ::
        ⟨.write .tls (postMessage target request), true, ()⟩ :: log) .shutdown

/-- How `Post` ends. -/
inductive NetworkEnds : Unit → Log → PostResult → Prop
  | null {log} : NetworkEnds () log .null
  | thrown {log target} : Trusts request log → Uri.parse request.uri = .ok target →
      NetworkEnds () (⟨.setTlsextHostName (cStr target.host), false, ()⟩ :: log) .thrown
  | response {log target status body error} : Secures request target log → error ≠ some .other →
      NetworkEnds () (⟨.shutdown, error, ()⟩ :: ⟨.readResponse, some (status, body), ()⟩ ::
        ⟨.write .tls (postMessage target request), true, ()⟩ :: log) (.response status body)

section Follows
variable {request target}

private theorem trust_follows :
    (trust request.caCert).Follows (NetworkIssues request) (fun _ log ok => ok = true → Trusts request log) () [] := by
  unfold trust
  split
  · rename_i h
    exact fun _ => .defaults (List.isEmpty_iff.mp h)
  · rename_i h
    refine ⟨.trust fun hn => h (List.isEmpty_iff.mpr hn), fun ok _ hok => ?_⟩
    obtain rfl : ok = true := hok
    exact .provided

private theorem connectTo_follows {uri : Uri} {log : Log} (hn : Names request target log)
    (hu : if request.proxyUri = [] then uri = target else Uri.parse request.proxyUri = .ok uri) :
    (connectTo uri).Follows (NetworkIssues request) (fun _ log' ok => ok = true → Connects uri log log') () log := by
  refine ⟨.resolve hn hu, fun endpoints _ => ?_⟩
  cases endpoints with
  | none => exact fun h => nomatch h
  | some endpoints =>
    refine ⟨.connect hn hu, fun ok _ hok => ?_⟩
    obtain rfl : ok = true := hok
    exact .connected

private theorem openTunnel_follows {proxy : Uri} {log : Log} (hn : Names request target log)
    (hp : request.proxyUri ≠ []) (hu : Uri.parse request.proxyUri = .ok proxy) :
    (openTunnel proxy target).Follows (NetworkIssues request)
      (fun _ log' ok => ok = true → Reaches request target log') () log := by
  refine (connectTo_follows hn (by simpa [hp] using hu)).bind fun _ log' ok hc => ?_
  cases ok with
  | false => exact fun h => nomatch h
  | true =>
    refine ⟨.sendConnect hn hp hu (hc rfl), fun ok _ => ?_⟩
    cases ok with
    | false => exact fun h => nomatch h
    | true =>
      refine ⟨.readConnect hn hp hu (hc rfl), fun status _ => ?_⟩
      cases status with
      | none => exact fun h => nomatch h
      | some status => exact fun _ => .tunnel hn hp hu (hc rfl)

private theorem openConnection_follows {log : Log} (hn : Names request target log) :
    (openConnection target request.proxyUri).Follows (NetworkIssues request)
      (fun _ log' ok => ok = true → Reaches request target log') () log := by
  unfold openConnection
  split
  · rename_i h
    have hp : request.proxyUri = [] := List.isEmpty_iff.mp h
    exact (connectTo_follows hn (by simp [hp])).mono fun _ _ _ hc ok => .direct hn hp (hc ok)
  · rename_i h
    have hp : request.proxyUri ≠ [] := fun hn => h (List.isEmpty_iff.mpr hn)
    split
    · exact fun h => nomatch h
    · rename_i proxy hu
      exact openTunnel_follows hn hp hu

private theorem exchange_follows {log : Log} (hr : Reaches request target log) :
    (exchange target request).Follows (NetworkIssues request) (NetworkEnds request) () log := by
  refine ⟨.handshake hr, fun ok _ => ?_⟩
  cases ok with
  | false => exact .null
  | true =>
    have hs : Secures request target (⟨.handshake, true, ()⟩ :: log) := .secured hr
    refine ⟨.send hs, fun ok _ => ?_⟩
    cases ok with
    | false => exact .null
    | true =>
      refine ⟨.read hs, fun answer _ => ?_⟩
      cases answer with
      | none => exact .null
      | some answer =>
        refine ⟨.shutdown hs, fun error _ => ?_⟩
        cases error with
        | none => exact .response hs (by simp)
        | some error =>
          cases error with
          | notConnected => exact .response hs (by simp)
          | streamTruncated => exact .response hs (by simp)
          | other => exact .null

end Follows

/-- `Post` follows its protocol. -/
theorem post_follows :
    (post request).Follows (NetworkIssues request) (NetworkEnds request) () [] := by
  refine trust_follows.bind fun _ log ok ht => ?_
  cases ok with
  | false => exact .null
  | true =>
    have ht := ht rfl
    cases hu : Uri.parse request.uri with
    | error what => exact .null
    | ok target =>
      refine ⟨.name ht hu, fun ok _ => ?_⟩
      cases ok with
      | false => exact .thrown ht hu
      | true =>
        refine (openConnection_follows (.named ht hu)).bind fun _ log ok hr => ?_
        cases ok with
        | false => exact .null
        | true => exact exchange_follows (hr rfl)

section Runs
variable {σ : Type} (handler : (o : NetworkOp) → σ → o.Res × σ) (s : σ)

/-- The calls of one run, newest first, against any network. -/
def trace : Log := (post request).calls () handler s []

def result : PostResult := ((post request).run () handler s).1

/-- The calls that put bytes on the socket without TLS. -/
def inPlain (c : Program.Called Unit NetworkOp.Res) : Bool :=
  match c.op with
  | .write .tcp _ => true
  | _ => false

/-- The calls that send the request. -/
def sends (c : Program.Called Unit NetworkOp.Res) : Bool :=
  match c.op with
  | .write .tls _ => true
  | _ => false

variable {request target}

theorem Names.parses {log : Log} (h : Names request target log) : Uri.parse request.uri = .ok target := by
  cases h with
  | named _ hu => exact hu

theorem Secures.parses {log : Log} (h : Secures request target log) : Uri.parse request.uri = .ok target := by
  cases h with
  | secured hr =>
    cases hr with
    | direct hn => exact hn.parses
    | tunnel hn => exact hn.parses

private theorem Names.sends_nothing {log : Log} (h : Names request target log) : log.countP sends = 0 := by
  cases h with
  | named ht _ =>
    cases ht with
    | defaults => rfl
    | provided => rfl

/-- Nothing of the request has been sent when the TLS stream comes up. -/
theorem Secures.sends_nothing {log : Log} (h : Secures request target log) : log.countP sends = 0 := by
  cases h with
  | secured hr =>
    cases hr with
    | direct hn _ hc =>
      cases hc
      simpa [sends] using hn.sends_nothing
    | tunnel hn _ _ hc =>
      cases hc
      simpa [sends] using hn.sends_nothing

variable (request)

private theorem countP_sends : (trace request handler s).countP sends ≤ 1 := by
  refine (post_follows request).run_keeps (Program.executes_nil.mpr rfl) (fun log _ => log.countP sends ≤ 1) ?_
    (by simp)
  intro log o s' _ hi ih
  cases hi with
  | send hs => simp [hs.sends_nothing, List.countP_cons, sends]
  | _ => exact (List.countP_cons_of_neg (by simp [sends])).trans_le ih

private theorem plain_exchange (target : Uri) (log : Log) :
    ((exchange target request).calls () handler s log).filter inPlain = log.filter inPlain := by
  unfold exchange
  simp only [Program.perform_bind, Program.calls_call]
  split
  · simp only [Program.calls_call]
    split
    · simp only [Program.calls_call]
      split
      · simp [inPlain]
      · simp only [Program.calls_call]
        split <;> simp [inPlain]
    · simp [inPlain]
  · simp [inPlain]

/-- The traffic without TLS does not depend on what is posted. -/
theorem plain_eq {request request' : PostRequest} (hu : request'.uri = request.uri)
    (hc : request'.caCert = request.caCert) (hp : request'.proxyUri = request.proxyUri) :
    (trace request' handler s).filter inPlain = (trace request handler s).filter inPlain := by
  unfold trace post
  rw [hu, hc, hp]
  simp only [Program.calls_bind]
  split
  · split
    · rfl
    · simp only [Program.perform_bind, Program.calls_call]
      split
      · simp only [Program.calls_bind]
        split
        · rw [plain_exchange, plain_exchange]
        · rfl
      · rfl
  · rfl

/-- Where a request goes. Against any network, all that is written without TLS is the `CONNECT` to a
configured proxy, which names the target and is the same whatever is posted; the request itself is written
at most once, over TLS, after a handshake on a socket that is connected to the target or to a proxy that has
answered the `CONNECT`; and the response that is returned was read from that stream. -/
theorem request_sent_over_tls :
    (∀ newer c older message, trace request handler s = newer ++ c :: older → c.op = .write .tcp message →
      ∃ target, Uri.parse request.uri = .ok target ∧ request.proxyUri ≠ [] ∧ message = connectMessage target) ∧
    (∀ request' : PostRequest, request'.uri = request.uri → request'.caCert = request.caCert →
      request'.proxyUri = request.proxyUri →
      (trace request' handler s).filter inPlain = (trace request handler s).filter inPlain) ∧
    (∀ newer c older message, trace request handler s = newer ++ c :: older → c.op = .write .tls message →
      ∃ target, Uri.parse request.uri = .ok target ∧ message = postMessage target request ∧
        Secures request target older) ∧
    (trace request handler s).countP sends ≤ 1 ∧
    ∀ status body, result request handler s = .response status body →
      ∃ target error older, Uri.parse request.uri = .ok target ∧ Secures request target older ∧
        trace request handler s = ⟨.shutdown, error, ()⟩ :: ⟨.readResponse, some (status, body), ()⟩ ::
          ⟨.write .tls (postMessage target request), true, ()⟩ :: older := by
  refine ⟨?_, fun _ => plain_eq handler s, ?_, countP_sends request handler s, ?_⟩
  · intro newer c older message hl hc
    have hi := (post_follows request).issued newer hl
    rw [hc] at hi
    cases hi with
    | sendConnect hn hp _ _ => exact ⟨_, hn.parses, hp, rfl⟩
  · intro newer c older message hl hc
    have hi := (post_follows request).issued newer hl
    rw [hc] at hi
    cases hi with
    | send hs => exact ⟨_, hs.parses, rfl, hs⟩
  · intro status body hr
    have he : NetworkEnds request () (trace request handler s) (result request handler s) :=
      (post_follows request).run_ends
    rw [hr] at he
    generalize hl : trace request handler s = log at he
    cases he with
    | response hs _ => exact ⟨_, _, _, hs.parses, hs, rfl⟩

end Runs

section Levels

/-- The calls that connect to a host were made and succeeded. -/
def connected (log : Log) (uri : Uri) : Bool :=
  match Program.answered log (.resolve uri.host (decimal uri.port)) with
  | some (some endpoints) => (Program.answered log (.connect endpoints)).getD false
  | _ => false

/-- The status with which the proxy answered the `CONNECT`, if it came to that. -/
def connectAnswer (log : Log) (proxy target : Uri) : Option Nat :=
  if connected log proxy && (Program.answered log (.write .tcp (connectMessage target))).getD false then
    (Program.answered log .readConnectResponse).join
  else none

/-- The exchange that was made: failed, when a call of it was not made or threw. Without a proxy connecting is
a part of it. -/
def exchangeAnswer (log : Log) (target : Uri) : Exchange :=
  if request.proxyUri.isEmpty && !connected log target then .failed
  else match Program.answered log .handshake, Program.answered log (.write .tls (postMessage target request)),
      Program.answered log .readResponse, Program.answered log .shutdown with
    | some true, some true, some (some (status, body)), some error => .completed status body error
    | _, _, _, _ => .failed

/-- A network, seen as a whole, that is as the calls of a run have shown it. A tunnel or an exchange that the run
did not bring to its end is one that fails. -/
structure Agrees (network : Network) (log : Log) : Prop where
  authority : ∀ ok, Program.answered log (.addCertificateAuthority request.caCert) = some ok →
    network.addCertificateAuthority request.caCert = ok
  name : ∀ host ok, Program.answered log (.setTlsextHostName host) = some ok → network.setTlsextHostName host = ok
  tunnel : ∀ proxy target, Uri.parse request.proxyUri = .ok proxy → Uri.parse request.uri = .ok target →
    network.httpConnect proxy.host proxy.port (HttpImpl.connectTarget target) = connectAnswer log proxy target
  exchange : ∀ target, Uri.parse request.uri = .ok target →
    network.exchange target (request.headers.map fun h => (cStr h.1, cStr h.2)) request.body =
      exchangeAnswer request log target

/-- Such a network; what was not asked is granted. -/
def networkOf (log : Log) : Network where
  addCertificateAuthority caCert := (Program.answered log (.addCertificateAuthority caCert)).getD true
  setTlsextHostName host := (Program.answered log (.setTlsextHostName host)).getD true
  httpConnect _ _ _ :=
    match Uri.parse request.proxyUri, Uri.parse request.uri with
    | .ok proxy, .ok target => connectAnswer log proxy target
    | _, _ => none
  exchange target _ _ := exchangeAnswer request log target

theorem agrees_networkOf (log : Log) : Agrees request (networkOf request log) log where
  authority ok h := by simp [networkOf, h]
  name host ok h := by simp [networkOf, h]
  tunnel proxy target hp hu := by simp [networkOf, hp, hu]
  exchange target _ := rfl

private def Exchange.read : Exchange → Option (Nat × Bytes)
  | .failed => none
  | .completed status body _ => some (status, body)

private def Exchange.shutdown : Exchange → Option ShutdownError
  | .failed => none
  | .completed _ _ error => error

/-- Calls that are answered as a network answers; when its exchange fails, it is in reading the response. -/
def handlerOf (network : Network) : (o : NetworkOp) → Unit → o.Res × Unit :=
  let exchanged := (Uri.parse request.uri).toOption.elim .failed fun target =>
    network.exchange target (request.headers.map fun h => (cStr h.1, cStr h.2)) request.body
  fun
  | .addCertificateAuthority caCert, _ => (network.addCertificateAuthority caCert, ())
  | .setTlsextHostName host, _ => (network.setTlsextHostName host, ())
  | .resolve _ _, _ => (some [], ())
  | .connect _, _ => (true, ())
  | .write _ _, _ => (true, ())
  | .readConnectResponse, _ =>
    (match Uri.parse request.uri, Uri.parse request.proxyUri with
      | .ok target, .ok proxy => network.httpConnect proxy.host proxy.port (HttpImpl.connectTarget target)
      | _, _ => none, ())
  | .handshake, _ => (true, ())
  | .readResponse, _ => (Exchange.read exchanged, ())
  | .shutdown, _ => (Exchange.shutdown exchanged, ())

variable {request target}

section Agreement
variable {log : Log} {network : Network}

/-- The calls that open the connection have all succeeded. -/
private def reached (request : PostRequest) (log : Log) (target : Uri) : Bool :=
  if request.proxyUri.isEmpty then connected log target
  else match Uri.parse request.proxyUri with
    | .error _ => false
    | .ok proxy => (connectAnswer log proxy target).isSome

/-- The context is usable and the stream has its name. -/
private structure Usable (request : PostRequest) (target : Uri) (log : Log) : Prop where
  authority : request.caCert.isEmpty = true ∨
    Program.answered log (.addCertificateAuthority request.caCert) = some true
  name : Program.answered log (.setTlsextHostName (cStr target.host)) = some true

private theorem Usable.cons (h : Usable request target log) {c : Program.Called Unit NetworkOp.Res}
    (ha : c.op ≠ .addCertificateAuthority request.caCert) (hn : c.op ≠ .setTlsextHostName (cStr target.host)) :
    Usable request target (c :: log) := by
  obtain ⟨o, r, e⟩ := c
  refine ⟨?_, ?_⟩
  · rw [Program.answered_cons_of_ne ha]
    exact h.authority
  · rw [Program.answered_cons_of_ne hn]
    exact h.name

private theorem post_of_usable (ha : Agrees request network log) (hs : Usable request target log)
    (hu : Uri.parse request.uri = .ok target) :
    HttpImpl.post network request =
      if reached request log target then HttpImpl.send network target request else .null := by
  have hca : (!request.caCert.isEmpty && !network.addCertificateAuthority request.caCert) = false := by
    rcases hs.authority with he | ht
    · simp [he]
    · simp [ha.authority true ht]
  unfold HttpImpl.post reached
  simp only [hca, hu, ha.name _ true hs.name, Bool.not_true, Bool.false_eq_true, if_false]
  cases hp : request.proxyUri.isEmpty with
  | true =>
    cases hc : connected log target with
    | true => rfl
    | false => simp [HttpImpl.send, ha.exchange target hu, exchangeAnswer, hp, hc]
  | false =>
    cases hq : Uri.parse request.proxyUri with
    | error what => rfl
    | ok proxy =>
      simp only [ha.tunnel proxy target hq hu, Bool.false_eq_true, if_false]
      cases connectAnswer log proxy target <;> rfl

private theorem connectTo_connected (uri : Uri) (hs : Usable request target log) :
    (connectTo uri).Follows (fun _ _ => True) (fun _ log' ok => connected log' uri = ok ∧ Usable request target log')
      () log := by
  refine ⟨trivial, fun endpoints _ => ?_⟩
  have hs := hs.cons (c := ⟨.resolve uri.host (decimal uri.port), endpoints, ()⟩) (by simp) (by simp)
  cases endpoints with
  | none => exact ⟨by simp [connected], hs⟩
  | some endpoints =>
    refine ⟨trivial, fun ok _ => ⟨?_, hs.cons (by simp) (by simp)⟩⟩
    simp [connected, Program.answered_cons_of_ne]

private theorem openConnection_reached (hs : Usable request target log) :
    (openConnection target request.proxyUri).Follows (fun _ _ => True)
      (fun _ log' ok => reached request log' target = ok ∧ Usable request target log') () log := by
  unfold openConnection
  split
  · rename_i hp
    exact (connectTo_connected target hs).mono fun _ log' ok h => ⟨by simpa [reached, hp] using h.1, h.2⟩
  · rename_i hp
    split
    · rename_i what hq
      exact ⟨by simp [reached, hp, hq], hs⟩
    · rename_i proxy hq
      refine (connectTo_connected proxy hs).bind fun _ log' ok ⟨hc, hs⟩ => ?_
      cases ok with
      | false => exact ⟨by simp [reached, hp, hq, connectAnswer, hc], hs⟩
      | true =>
        refine ⟨trivial, fun ok _ => ?_⟩
        have hs := hs.cons (c := ⟨.write .tcp (connectMessage target), ok, ()⟩) (by simp) (by simp)
        have hc : connected (⟨.write .tcp (connectMessage target), ok, ()⟩ :: log') proxy = true := by
          simpa [connected, Program.answered_cons_of_ne] using hc
        cases ok with
        | false => exact ⟨by simp [reached, hp, hq, connectAnswer, hc], hs⟩
        | true =>
          refine ⟨trivial, fun status _ => ?_⟩
          have hs := hs.cons (c := ⟨.readConnectResponse, status, ()⟩) (by simp) (by simp)
          have ha : connectAnswer (⟨.readConnectResponse, status, ()⟩ ::
              ⟨.write .tcp (connectMessage target), true, ()⟩ :: log') proxy target = status := by
            have hc : connected (⟨.readConnectResponse, status, ()⟩ ::
                ⟨.write .tcp (connectMessage target), true, ()⟩ :: log') proxy = true := by
              simpa [connected, Program.answered_cons_of_ne] using hc
            simp [connectAnswer, hc, Program.answered_cons_of_ne]
          cases status with
          | none => exact ⟨by simp [reached, hp, hq, ha], hs⟩
          | some status => exact ⟨by simp [reached, hp, hq, ha, HttpImpl.httpConnectRes], hs⟩

/-- Every network that agrees with the calls of a run leads the function to this result. -/
private def Determines (request : PostRequest) (log : Log) (r : PostResult) : Prop :=
  ∀ network, Agrees request network log → HttpImpl.post network request = r

/-- The calls of the exchange, which come behind all others. -/
private def exchanges : NetworkOp → Bool
  | .handshake => true
  | .write .tls _ => true
  | .readResponse => true
  | .shutdown => true
  | _ => false

private theorem ne_of_exchanges {o : NetworkOp} (ho : exchanges o = true) (o' : NetworkOp)
    (ho' : exchanges o' = false) : o ≠ o' := by
  rintro rfl
  exact Bool.false_ne_true (ho'.symm.trans ho)

private theorem connected_cons {c : Program.Called Unit NetworkOp.Res} (hc : exchanges c.op = true) (log : Log)
    (uri : Uri) : connected (c :: log) uri = connected log uri := by
  obtain ⟨o, r, e⟩ := c
  have hne := ne_of_exchanges hc
  simp only [connected, Program.answered_cons_of_ne (hne (.resolve _ _) rfl),
    Program.answered_cons_of_ne (hne (.connect _) rfl)]

private theorem reached_cons {c : Program.Called Unit NetworkOp.Res} (hc : exchanges c.op = true) :
    reached request (c :: log) target = reached request log target := by
  have hconnected := connected_cons hc log
  obtain ⟨o, r, e⟩ := c
  have hne := ne_of_exchanges hc
  simp only [reached, connectAnswer, hconnected, Program.answered_cons_of_ne (hne (.write .tcp _) rfl),
    Program.answered_cons_of_ne (hne .readConnectResponse rfl)]

/-- The connection is there for the exchange. -/
private structure Ready (request : PostRequest) (target : Uri) (log : Log) : Prop where
  parses : Uri.parse request.uri = .ok target
  reached : reached request log target = true
  usable : Usable request target log

private theorem Ready.cons (h : Ready request target log) {o : NetworkOp} (r : o.Res) (ho : exchanges o = true) :
    Ready request target (⟨o, r, ()⟩ :: log) where
  parses := h.parses
  reached := (reached_cons ho).trans h.reached
  usable := h.usable.cons (ne_of_exchanges ho _ rfl) (ne_of_exchanges ho _ rfl)

private theorem Ready.connected (h : Ready request target log) :
    (request.proxyUri.isEmpty && !Connection.connected log target) = false := by
  have hr := h.reached
  unfold Connection.reached at hr
  cases hp : request.proxyUri.isEmpty with
  | false => rfl
  | true =>
    rw [hp, if_pos rfl] at hr
    simp [hr]

private theorem Ready.determines {r : PostResult} {x : Exchange} (h : Ready request target log)
    (hx : exchangeAnswer request log target = x)
    (hsend : ∀ network : Network, network.exchange target (request.headers.map fun h => (cStr h.1, cStr h.2))
      request.body = x → HttpImpl.send network target request = r) : Determines request log r := by
  intro network ha
  rw [post_of_usable ha h.usable h.parses, if_pos h.reached]
  exact hsend network ((ha.exchange target h.parses).trans hx)

private theorem Ready.determines_null (h : Ready request target log)
    (hx : exchangeAnswer request log target = .failed) : Determines request log .null :=
  h.determines hx fun _ hx => by simp [HttpImpl.send, hx]

private theorem exchange_determines (h : Ready request target log) :
    (exchange target request).Follows (fun _ _ => True) (fun _ log' r => Determines request log' r) () log := by
  refine ⟨trivial, fun ok _ => ?_⟩
  have h := h.cons (o := .handshake) ok rfl
  cases ok with
  | false => exact h.determines_null (by simp [exchangeAnswer, h.connected])
  | true =>
    refine ⟨trivial, fun ok _ => ?_⟩
    have h := h.cons (o := .write .tls (postMessage target request)) ok rfl
    cases ok with
    | false => exact h.determines_null (by simp [exchangeAnswer, h.connected])
    | true =>
      refine ⟨trivial, fun answer _ => ?_⟩
      have h := h.cons (o := .readResponse) answer rfl
      cases answer with
      | none => exact h.determines_null (by simp [exchangeAnswer, h.connected])
      | some answer =>
        refine ⟨trivial, fun error _ => ?_⟩
        have h := h.cons (o := .shutdown) error rfl
        have hx : exchangeAnswer request (⟨.shutdown, error, ()⟩ :: ⟨.readResponse, some answer, ()⟩ ::
            ⟨.write .tls (postMessage target request), true, ()⟩ :: ⟨.handshake, true, ()⟩ :: log) target =
            .completed answer.1 answer.2 error := by
          simp [exchangeAnswer, h.connected, Program.answered_cons_of_ne]
        cases error with
        | none => exact h.determines hx fun _ hn => by simp [HttpImpl.send, hn]
        | some error => cases error <;> exact h.determines hx fun _ hn => by simp [HttpImpl.send, hn]

private theorem trust_authority : (trust request.caCert).Follows (fun _ _ => True) (fun _ log ok =>
    request.caCert.isEmpty = true ∧ ok = true ∨ request.caCert.isEmpty = false ∧
      Program.answered log (.addCertificateAuthority request.caCert) = some ok) () [] := by
  unfold trust
  split
  · rename_i h
    exact .inl ⟨h, rfl⟩
  · rename_i h
    exact ⟨trivial, fun ok _ => .inr ⟨by simpa using h, by simp⟩⟩

private theorem post_determines (request : PostRequest) :
    (post request).Follows (fun _ _ => True) (fun _ log r => Determines request log r) () [] := by
  refine trust_authority.bind fun _ log ok ht => ?_
  cases ok with
  | false =>
    intro network ha
    rcases ht with ⟨_, h⟩ | ⟨hc, ht⟩
    · cases h
    · simp [HttpImpl.post, hc, ha.authority false ht]
  | true =>
    have ht : request.caCert.isEmpty = true ∨
        Program.answered log (.addCertificateAuthority request.caCert) = some true := ht.imp And.left And.right
    cases hu : Uri.parse request.uri with
    | error what =>
      intro network _
      simp [HttpImpl.post, hu]
    | ok target =>
      refine ⟨trivial, fun ok _ => ?_⟩
      have ht : request.caCert.isEmpty = true ∨
          Program.answered (⟨.setTlsextHostName (cStr target.host), ok, ()⟩ :: log)
            (.addCertificateAuthority request.caCert) = some true := by
        rwa [Program.answered_cons_of_ne (by simp)]
      have hn : Program.answered (⟨.setTlsextHostName (cStr target.host), ok, ()⟩ :: log)
          (.setTlsextHostName (cStr target.host)) = some ok := Program.answered_cons_self _ _
      cases ok with
      | false =>
        intro network ha
        refine (HttpImpl.post_thrown_iff network request).mpr ⟨?_, target, hu, ha.name _ false hn⟩
        exact ht.imp_right (ha.authority true)
      | true =>
        refine (openConnection_reached ⟨ht, hn⟩).bind fun _ log' ok ⟨hr, hs⟩ => ?_
        cases ok with
        | true => exact exchange_determines ⟨hu, hr, hs⟩
        | false =>
          intro network ha
          rw [post_of_usable ha hs hu, hr]
          rfl

end Agreement
private theorem run_openTunnel {network : Network} {proxy : Uri} (hu : Uri.parse request.uri = .ok target)
    (hp : Uri.parse request.proxyUri = .ok proxy) :
    (openTunnel proxy target).run () (handlerOf request network) () =
      ((network.httpConnect proxy.host proxy.port (HttpImpl.connectTarget target)).isSome, ()) := by
  have hread : (handlerOf request network .readConnectResponse ()).1 =
      network.httpConnect proxy.host proxy.port (HttpImpl.connectTarget target) := by
    simp [handlerOf, hu, hp]
  have hrun : (openTunnel proxy target).run () (handlerOf request network) () =
      Program.run () (handlerOf request network) (match (handlerOf request network .readConnectResponse ()).1 with
        | none => pure false
        | some _ => pure (HttpImpl.httpConnectRes == 200)) () := rfl
  rw [hrun, hread]
  cases network.httpConnect proxy.host proxy.port (HttpImpl.connectTarget target) <;> rfl

private theorem run_exchange {network : Network} (hu : Uri.parse request.uri = .ok target) :
    ((exchange target request).run () (handlerOf request network) ()).1 = HttpImpl.send network target request := by
  unfold HttpImpl.send
  generalize hx : network.exchange target (request.headers.map fun h => (cStr h.1, cStr h.2)) request.body = x
  have hread : (handlerOf request network .readResponse ()).1 = Exchange.read x := by
    simp [handlerOf, hu, hx, Except.toOption]
  have hshut : (handlerOf request network .shutdown ()).1 = Exchange.shutdown x := by
    simp [handlerOf, hu, hx, Except.toOption]
  have hrun : (exchange target request).run () (handlerOf request network) () =
      Program.run () (handlerOf request network) (match (handlerOf request network .readResponse ()).1 with
        | none => pure .null
        | some (status, body) => call .shutdown >>= fun
          | some .other => pure .null
          | _ => pure (.response status body)) () := rfl
  rw [hrun, hread]
  cases x with
  | failed => rfl
  | completed status body error =>
    simp only [Exchange.read, Program.perform_bind, Program.run_call, hshut, Exchange.shutdown]
    rcases error with _ | error
    · rfl
    · cases error <;> rfl

private theorem result_handlerOf (network : Network) :
    result request (handlerOf request network) () = HttpImpl.post network request := by
  have htrust : (trust request.caCert).run () (handlerOf request network) () =
      (request.caCert.isEmpty || network.addCertificateAuthority request.caCert, ()) := by
    unfold trust
    cases request.caCert.isEmpty <;> rfl
  unfold result post HttpImpl.post
  rw [Program.run_bind, htrust, ← Bool.not_or]
  cases request.caCert.isEmpty || network.addCertificateAuthority request.caCert with
  | false => rfl
  | true =>
    cases hu : Uri.parse request.uri with
    | error what => rfl
    | ok target =>
      have hname : handlerOf request network (.setTlsextHostName (cStr target.host)) () =
        (network.setTlsextHostName (cStr target.host), ()) := rfl
      simp only [if_true, Program.perform_bind, Program.run_call, hname, Bool.not_true, Bool.false_eq_true, if_false]
      cases network.setTlsextHostName (cStr target.host) with
      | false => rfl
      | true =>
        rw [if_pos rfl, Program.run_bind]
        unfold openConnection
        cases request.proxyUri.isEmpty with
        | true => exact run_exchange hu
        | false =>
          cases hp : Uri.parse request.proxyUri with
          | error what => rfl
          | ok proxy =>
            simp only [Bool.false_eq_true, if_false, run_openTunnel hu hp, Bool.not_true]
            cases network.httpConnect proxy.host proxy.port (HttpImpl.connectTarget target) with
            | none => rfl
            | some status => simp [HttpImpl.httpConnectRes, run_exchange hu]

/-- The two levels of `Post` agree run by run. Whatever the network answers, the result is that of the function on
every network, seen as a whole, that is as the run's calls have shown it, and there is one; and what the function
returns for a network is the result of the calls that this network answers. -/
theorem result_eq_post (request : PostRequest) :
    (∀ (σ : Type) (handler : (o : NetworkOp) → σ → o.Res × σ) (s : σ),
      Agrees request (networkOf request (trace request handler s)) (trace request handler s) ∧
      ∀ network, Agrees request network (trace request handler s) →
        HttpImpl.post network request = result request handler s) ∧
    ∀ network, result request (handlerOf request network) () = HttpImpl.post network request := by
  refine ⟨fun σ handler s => ⟨agrees_networkOf request _, ?_⟩, result_handlerOf⟩
  exact (post_determines request).run_ends

end Levels
end AuthService.Common.Http.Connection
