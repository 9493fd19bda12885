import AuthService.Service.AsyncServiceImpl

/-! Header names in the configuration, and two services whose configurations differ in their
letter case only. -/
namespace AuthService

def lowerCase (s : Bytes) : Bytes := s.map toLower

def LowerCase (s : Bytes) : Prop := lowerCase s = s

instance (s : Bytes) : Decidable (LowerCase s) := inferInstanceAs (Decidable (_ = _))

private theorem lowerCase_idem (s : Bytes) : lowerCase (lowerCase s) = lowerCase s := by
  have hbyte : ∀ c, toLower (toLower c) = toLower c := forall_byte (by decide +kernel)
  simp [lowerCase, hbyte]

private theorem cStr_lowerCase (s : Bytes) : cStr (lowerCase s) = lowerCase (cStr s) := by
  have hbyte : ∀ c, decide (toLower c ≠ 0) = decide (c ≠ 0) := forall_byte (by decide +kernel)
  simp only [cStr, lowerCase, List.takeWhile_map]
  congr 2
  funext c
  exact hbyte c

private theorem lookup_of_lowerCase {headers : HeaderMap} (h : ∀ p ∈ headers, LowerCase p.1) (header : Bytes) :
    headers.lookup header = if LowerCase header then headers.lookup (lowerCase header) else none := by
  split
  · rename_i hl
    rw [hl]
  · rename_i hl
    rw [List.lookup_eq_none_iff]
    intro p hp
    exact bne_iff_ne.mpr fun he => hl (he ▸ h p hp)

namespace Config

def TokenConfig.lowered (c : TokenConfig) : TokenConfig := { c with header := lowerCase c.header }

def OIDCConfig.lowered (c : OIDCConfig) : OIDCConfig :=
  { c with idToken? := c.idToken?.map (·.lowered), accessToken? := c.accessToken?.map (·.lowered) }

def Match.lowered (m : Match) : Match := { m with header := lowerCase m.header }

def Filter.lowered (f : Filter) : Filter := ⟨f.oidc?.map (·.lowered)⟩

def FilterChain.lowered (c : FilterChain) : FilterChain :=
  { c with match? := c.match?.map (·.lowered), filters := c.filters.map (·.lowered) }

end Config

/-- A configuration with its header names in lower case. -/
def Config.lowered (c : AuthService.Config) : AuthService.Config := { c with chains := c.chains.map (·.lowered) }

namespace Filters.Oidc
open Lib Common.Http Config OidcFilter

/-- Where `Process` goes. -/
inductive Branch where
  | noHttp
  | logout
  | authenticated
  | noSession
  | badCallbackUri (what : Bytes)
  | callback
  | session
  deriving DecidableEq

def branch (cfg : OIDCConfig) (request : CheckRequest) : Branch :=
  match request.http? with
  | none => .noHttp
  | some http =>
    if matchesLogoutRequest cfg request then .logout
    else if (http.headers.lookup cfg.idToken.header).isSome then .authenticated
    else match getSessionIdFromCookie cfg http.headers with
      | none => .noSession
      | some _ =>
        match matchesCallbackRequest cfg request with
        | .error what => .badCallbackUri what
        | .ok true => .callback
        | .ok false => .session

/-- An outcome with the names of the added headers in lower case. -/
def lowerHeaders (response : CheckResponse) : CheckResponse :=
  match response.httpResponse with
  | .ok o => { response with httpResponse := .ok ⟨o.headers.map fun h => { h with key := lowerCase h.key }⟩ }
  | _ => response

def Outcome.lowered : Outcome → Outcome
  | .returned code response => .returned code (lowerHeaders response)
  | .thrown exn response => .thrown exn (lowerHeaders response)

section Lowered
variable {lib : Libraries} {cfg cfg₁ cfg₂ : OIDCConfig} {request : CheckRequest} {response : CheckResponse}

private theorem hasAccessToken_lowered : cfg.lowered.hasAccessToken = cfg.hasAccessToken := by
  simp [OIDCConfig.hasAccessToken, OIDCConfig.lowered]

private theorem idToken_lowered : cfg.lowered.idToken = cfg.idToken.lowered := by
  cases h : cfg.idToken? <;> simp [OIDCConfig.idToken, OIDCConfig.lowered, h, TokenConfig.lowered, lowerCase]

private theorem accessToken_lowered : cfg.lowered.accessToken = cfg.accessToken.lowered := by
  cases h : cfg.accessToken? <;> simp [OIDCConfig.accessToken, OIDCConfig.lowered, h, TokenConfig.lowered, lowerCase]

/-- What `Process` does on a branch. -/
private def proceed (cfg : OIDCConfig) (lib : Libraries) (request : CheckRequest) (response : CheckResponse) :
    Branch → Proc Outcome
  | .noHttp => pure (.returned .invalidArgument (setStandardResponseHeaders response))
  | .logout => do
    match getSessionIdFromCookie cfg request.http.headers with
    | some sessionId => SessionStore.removeSession sessionId
    | none => pure ()
    pure (.returned .unauthenticated (setLogoutHeaders cfg response))
  | .authenticated => pure (.returned .ok response)
  | .noSession => redirectToIdp cfg response request.http none
  | .badCallbackUri what => pure (.thrown (.runtimeError what) response)
  | .callback =>
    retrieveToken cfg lib request response ((getSessionIdFromCookie cfg request.http.headers).getD [])
  | .session =>
    processSession cfg lib request.http response ((getSessionIdFromCookie cfg request.http.headers).getD [])

private theorem process_eq_proceed :
    process cfg lib request response = proceed cfg lib request response (branch cfg request) := by
  unfold process branch
  cases hr : request.http? with
  | none => rfl
  | some http =>
    obtain rfl : request.http = http := by simp [CheckRequest.http, hr]
    dsimp only
    split
    · rfl
    · split
      · rfl
      · cases hs : getSessionIdFromCookie cfg request.http.headers with
        | none => rfl
        | some s =>
          rcases matchesCallbackRequest cfg request with what | b
          · rfl
          · cases b <;> simp [proceed, hs]

private def lowerKey (h : HeaderValue) : HeaderValue := { h with key := lowerCase h.key }

private theorem lowerHeaders_okHeaders :
    ((lowerHeaders response).okResponse.getD ⟨[]⟩).headers = (response.okResponse.getD ⟨[]⟩).headers.map lowerKey := by
  obtain ⟨code, message, http⟩ := response
  cases http <;> rfl

private theorem lowerHeaders_status : (lowerHeaders response).statusCode = response.statusCode ∧
    (lowerHeaders response).statusMessage = response.statusMessage := by
  unfold lowerHeaders
  split <;> exact ⟨rfl, rfl⟩

private theorem lowerHeaders_setOk (name name' value : Bytes) (hn : lowerCase name = lowerCase name')
    {r r' : CheckResponse} (hr : lowerHeaders r = lowerHeaders r') :
    lowerHeaders (r.mutableOkResponse fun o => ⟨setHeader o.headers name value⟩) =
      lowerHeaders (r'.mutableOkResponse fun o => ⟨setHeader o.headers name' value⟩) := by
  have hset (name : Bytes) (r : CheckResponse) :
      lowerHeaders (r.mutableOkResponse fun o => ⟨setHeader o.headers name value⟩) =
        ⟨(lowerHeaders r).statusCode, (lowerHeaders r).statusMessage,
          .ok ⟨((lowerHeaders r).okResponse.getD ⟨[]⟩).headers ++ [⟨cStr (lowerCase name), cStr value⟩]⟩⟩ := by
    rw [lowerHeaders_okHeaders, lowerHeaders_status.1, lowerHeaders_status.2, cStr_lowerCase]
    simp [lowerHeaders, CheckResponse.mutableOkResponse, setHeader, lowerKey]
  rw [hset, hset, hr, hn]

private theorem lowerHeaders_addTokens (t : TokenResponse) :
    lowerHeaders (addTokensToRequestHeaders cfg.lowered response t) =
      lowerHeaders (addTokensToRequestHeaders cfg response t) := by
  have hid : lowerHeaders (setIdTokenHeader cfg.lowered t.idToken.jwt response) =
      lowerHeaders (setIdTokenHeader cfg t.idToken.jwt response) := by
    unfold setIdTokenHeader
    rw [idToken_lowered]
    exact lowerHeaders_setOk _ _ _ (lowerCase_idem _) rfl
  unfold addTokensToRequestHeaders
  rw [hasAccessToken_lowered]
  dsimp only
  split
  · unfold setAccessTokenHeader
    rw [accessToken_lowered]
    exact lowerHeaders_setOk _ _ _ (lowerCase_idem _) hid
  · exact hid

private theorem requiredTokensPresent_lowered : requiredTokensPresent cfg.lowered = requiredTokensPresent cfg := by
  unfold requiredTokensPresent
  rw [hasAccessToken_lowered]

private theorem requiredTokensExpired_lowered : requiredTokensExpired cfg.lowered = requiredTokensExpired cfg := by
  unfold requiredTokensExpired
  rw [hasAccessToken_lowered]

private theorem retrieveToken_lowered : retrieveToken cfg.lowered = retrieveToken cfg := by
  unfold retrieveToken
  rw [hasAccessToken_lowered]
  rfl

private theorem processSession_lowered (http : HttpRequest) (s : Bytes) :
    Outcome.lowered <$> processSession cfg.lowered lib http response s =
      Outcome.lowered <$> processSession cfg lib http response s := by
  unfold processSession
  rw [requiredTokensPresent_lowered, requiredTokensExpired_lowered]
  simp only [Program.perform_bind, Program.map_call]
  congr 1
  funext stored
  cases stored with
  | none => rfl
  | some t =>
    cases requiredTokensPresent cfg (some t) with
    | false => rfl
    | true =>
      simp only [Program.env_bind, Program.map_read]
      congr 1
      funext now
      have hadd (t : TokenResponse) :
          Outcome.lowered (.returned .ok (addTokensToRequestHeaders cfg.lowered response t)) =
            Outcome.lowered (.returned .ok (addTokensToRequestHeaders cfg response t)) :=
        congrArg (Outcome.returned .ok) (lowerHeaders_addTokens t)
      split
      · exact congrArg Program.pure (hadd t)
      · cases t.refreshToken with
        | none => rfl
        | some token =>
          dsimp only
          rw [Program.map_bind, Program.map_bind]
          refine congrArg (refreshToken cfg lib t token >>= ·) (funext fun refreshed => ?_)
          rcases refreshed with exn | _ | refreshed
          · rfl
          · rfl
          · exact congrArg (fun o => SessionStore.setTokenResponse s refreshed >>= fun _ => Program.pure o)
              (hadd refreshed)

private theorem proceed_lowered (b : Branch) :
    Outcome.lowered <$> proceed cfg.lowered lib request response b =
      Outcome.lowered <$> proceed cfg lib request response b := by
  cases b with
  | callback => rw [proceed, retrieveToken_lowered]; rfl
  | session => exact processSession_lowered _ _
  | _ => rfl

/-- On the same branch, two filters make the same calls and come to the same outcome. -/
theorem process_of_branch_eq (hc : cfg₁.lowered = cfg₂.lowered) (hb : branch cfg₁ request = branch cfg₂ request) :
    Outcome.lowered <$> process cfg₁ lib request response = Outcome.lowered <$> process cfg₂ lib request response := by
  rw [process_eq_proceed, process_eq_proceed, ← hb, ← proceed_lowered, hc, proceed_lowered]

theorem runProcess_of_branch_eq (hc : cfg₁.lowered = cfg₂.lowered) (hb : branch cfg₁ request = branch cfg₂ request)
    (now : Int) (x : External) (store : InMemorySessionStore) :
    (runProcess lib cfg₁ now x request store).1.lowered = (runProcess lib cfg₂ now x request store).1.lowered := by
  have hprocess : Outcome.lowered <$> process cfg₁ lib request .empty =
      Outcome.lowered <$> process cfg₂ lib request .empty := process_of_branch_eq hc hb
  have hrun := congrArg (fun p => (p.run now (Op.exec now x) store).1) hprocess
  simpa only [Program.run_map, runProcess] using hrun

/-- A request that carries the id-token header, on the way to be looked at. -/
structure Carries (cfg : OIDCConfig) (request : CheckRequest) : Prop where
  http : request.http?.isSome
  no_logout : matchesLogoutRequest cfg request = false
  header : (request.http.headers.lookup (lowerCase cfg.idToken.header)).isSome

private def unauthenticated (cfg : OIDCConfig) (request : CheckRequest) (http : HttpRequest) : Branch :=
  match getSessionIdFromCookie cfg http.headers with
  | none => .noSession
  | some _ =>
    match matchesCallbackRequest cfg request with
    | .error what => .badCallbackUri what
    | .ok true => .callback
    | .ok false => .session

private def branchWith (cfg : OIDCConfig) (request : CheckRequest) (seen : Bool) : Branch :=
  request.http?.elim .noHttp fun http =>
    if matchesLogoutRequest cfg request then .logout
    else if seen then .authenticated
    else unauthenticated cfg request http

private theorem branch_eq_branchWith :
    branch cfg request = branchWith cfg.lowered request (request.http.headers.lookup cfg.idToken.header).isSome := by
  unfold branch branchWith
  cases hr : request.http? with
  | none => rfl
  | some http =>
    have hhttp : request.http = http := by simp [CheckRequest.http, hr]
    rw [hhttp]
    rfl

private theorem branchWith_eq_iff {seen₁ seen₂ : Bool} : branchWith cfg request seen₁ = branchWith cfg request seen₂ ↔
    (request.http?.isSome → matchesLogoutRequest cfg request = false → seen₁ = seen₂) := by
  have hother (http : HttpRequest) : unauthenticated cfg request http ≠ .authenticated := by
    unfold unauthenticated
    split
    · exact Branch.noConfusion
    · split <;> exact Branch.noConfusion
  unfold branchWith
  cases request.http? with
  | none => simp
  | some http =>
    cases hl : matchesLogoutRequest cfg request with
    | true => simp
    | false =>
      cases seen₁ <;> cases seen₂ <;> simp [hother http, Ne.symm (hother http)]

private theorem branch_eq_iff (hc : cfg₁.lowered = cfg₂.lowered) (hk : ∀ p ∈ request.http.headers, LowerCase p.1) :
    branch cfg₁ request = branch cfg₂ request ↔
      (Carries cfg₁ request → (LowerCase cfg₁.idToken.header ↔ LowerCase cfg₂.idToken.header)) := by
  have hname : lowerCase cfg₁.idToken.header = lowerCase cfg₂.idToken.header := by
    have h : cfg₁.lowered.idToken.header = cfg₂.lowered.idToken.header := congrArg (·.idToken.header) hc
    rwa [idToken_lowered, idToken_lowered] at h
  have hlogout : matchesLogoutRequest cfg₁.lowered request = matchesLogoutRequest cfg₁ request := rfl
  rw [branch_eq_branchWith, branch_eq_branchWith, ← hc, branchWith_eq_iff, lookup_of_lowerCase hk,
    lookup_of_lowerCase hk cfg₂.idToken.header, ← hname, hlogout]
  have hseen : (if LowerCase cfg₁.idToken.header then request.http.headers.lookup (lowerCase cfg₁.idToken.header)
        else none).isSome =
      (if LowerCase cfg₂.idToken.header then request.http.headers.lookup (lowerCase cfg₁.idToken.header)
        else none).isSome ↔
      ((request.http.headers.lookup (lowerCase cfg₁.idToken.header)).isSome →
        (LowerCase cfg₁.idToken.header ↔ LowerCase cfg₂.idToken.header)) := by
    by_cases h₁ : LowerCase cfg₁.idToken.header <;> by_cases h₂ : LowerCase cfg₂.idToken.header <;>
      cases request.http.headers.lookup (lowerCase cfg₁.idToken.header) <;> simp [h₁, h₂]
  rw [hseen]
  exact ⟨fun h hcarries => h hcarries.http hcarries.no_logout hcarries.header,
    fun h hhttp hlogout hheader => h ⟨hhttp, hlogout, hheader⟩⟩

end Lowered
end Filters.Oidc

namespace Service
open Lib Config Filters Filters.Oidc Common.Http AuthServiceImpl

section Selection
variable (request : CheckRequest)

/-- A chain matches the request. -/
def accepts (chain : FilterChainImpl) : Bool := chain.matchesRequest request matches .ok true

/-- The match of a chain, with the header's name taken in lower case. -/
def intended (c : FilterChain) : Bool := (FilterChainImpl.create c.lowered).matchesRequest request matches .ok true

/-- The match of a chain, if there is one, names its header in lower case. -/
def namedLower (c : FilterChain) : Bool := c.match?.all fun m => LowerCase m.header

/-- The same chain of two services. -/
structure Twin (c₁ c₂ : FilterChainImpl) : Prop where
  config : c₁.config.lowered = c₂.config.lowered
  store : c₁.oidcSessionStore = c₂.oidcSessionStore

/-- The first chain that is meant for the request and can match it in one of the services. -/
def firstNamed (chains₁ chains₂ : List FilterChainImpl) : Option (FilterChainImpl × FilterChainImpl) :=
  (chains₁.zip chains₂).find? fun p =>
    intended request p.1.config && (namedLower p.1.config || namedLower p.2.config)

variable {request} {c₁ c₂ : FilterChainImpl} {chains₁ chains₂ : List FilterChainImpl}

private theorem accepts_eq (hk : ∀ p ∈ request.http.headers, LowerCase p.1) (chain : FilterChainImpl) :
    accepts request chain = (intended request chain.config && namedLower chain.config) := by
  obtain ⟨config, store⟩ := chain
  cases hm : config.match? with
  | none =>
    simp [accepts, intended, namedLower, FilterChainImpl.matchesRequest, FilterChainImpl.create,
      FilterChain.lowered, hm]
  | some m =>
    simp only [accepts, intended, namedLower, FilterChainImpl.matchesRequest, FilterChainImpl.create,
      FilterChain.lowered, hm, Match.lowered, Option.map_some, Option.all_some, lookup_of_lowerCase hk m.header]
    by_cases hl : LowerCase m.header
    · simp [hl]
    · simp [hl]

private theorem firstMatch_cons (chain : FilterChainImpl) (chains : List FilterChainImpl) :
    firstMatch request (chain :: chains) =
      if accepts request chain then some chain else firstMatch request chains := by
  change List.find? (accepts request) (chain :: chains) = _
  rw [List.find?_cons]
  cases accepts request chain <;> rfl

private theorem firstNamed_cons (c₁ c₂ : FilterChainImpl) (chains₁ chains₂ : List FilterChainImpl) :
    firstNamed request (c₁ :: chains₁) (c₂ :: chains₂) =
      if intended request c₁.config && (namedLower c₁.config || namedLower c₂.config) then some (c₁, c₂)
      else firstNamed request chains₁ chains₂ := by
  rw [firstNamed, List.zip_cons_cons, List.find?_cons]
  cases intended request c₁.config && (namedLower c₁.config || namedLower c₂.config) <;> rfl

private theorem selection_cases (hk : ∀ p ∈ request.http.headers, LowerCase p.1)
    (ht : List.Forall₂ Twin chains₁ chains₂) :
    (firstNamed request chains₁ chains₂ = none ∧ firstMatch request chains₁ = none ∧ firstMatch request chains₂ = none ∧
      chains₁.findIdx? (accepts request) = none ∧ chains₂.findIdx? (accepts request) = none) ∨
    ∃ c₁ c₂, firstNamed request chains₁ chains₂ = some (c₁, c₂) ∧ Twin c₁ c₂ ∧
      ((namedLower c₁.config ∧ namedLower c₂.config) ∧ firstMatch request chains₁ = some c₁ ∧
          firstMatch request chains₂ = some c₂ ∧
          chains₁.findIdx? (accepts request) = chains₂.findIdx? (accepts request) ∨
        ¬ (namedLower c₁.config ∧ namedLower c₂.config) ∧
          chains₁.findIdx? (accepts request) ≠ chains₂.findIdx? (accepts request)) := by
  induction ht with
  | nil => exact .inl ⟨rfl, rfl, rfl, rfl, rfl⟩
  | @cons c₁ c₂ chains₁ chains₂ hc _ ih =>
    have hsame : intended request c₂.config = intended request c₁.config := by
      rw [intended, intended, hc.config]
    rw [firstMatch_cons, firstMatch_cons, firstNamed_cons, List.findIdx?_cons, List.findIdx?_cons, accepts_eq hk,
      accepts_eq hk, hsame]
    cases hcand : intended request c₁.config && (namedLower c₁.config || namedLower c₂.config) with
    | false =>
      have h₁ : (intended request c₁.config && namedLower c₁.config) = false := by grind
      have h₂ : (intended request c₁.config && namedLower c₂.config) = false := by grind
      simp only [h₁, h₂, Bool.false_eq_true, if_false, Option.map_eq_none_iff]
      refine ih.imp_right ?_
      rintro ⟨d₁, d₂, hnamed, hd, h⟩
      refine ⟨d₁, d₂, hnamed, hd, h.imp ?_ ?_⟩
      · exact fun ⟨hlow, h₁, h₂, hidx⟩ => ⟨hlow, h₁, h₂, by rw [hidx]⟩
      · exact fun ⟨hlow, hidx⟩ => ⟨hlow, fun h => hidx (Option.map_injective Nat.succ_injective h)⟩
    | true =>
      obtain ⟨hi, hlow⟩ := Bool.and_eq_true_iff.mp hcand
      refine .inr ⟨c₁, c₂, rfl, hc, ?_⟩
      rw [hi]
      cases h₁ : namedLower c₁.config <;> cases h₂ : namedLower c₂.config
      · simp [h₁, h₂] at hlow
      · simp
      · simp
      · simp

end Selection

section Check
variable (w : Surroundings) (request : CheckRequest)

/-- The position of the chain that gets a request. -/
def selected (service : AuthServiceImpl) : Option Nat :=
  match triggered w request service with
  | .ok true => service.chains.findIdx? (accepts request)
  | _ => none

/-- Two services select the same chain, take the same branch in its filter and answer alike. -/
structure Alike (s₁ s₂ : AuthServiceImpl) : Prop where
  selects : selected w request s₁ = selected w request s₂
  branch : ∀ c₁ c₂ cfg₁ cfg₂, triggered w request s₁ = .ok true → firstMatch request s₁.chains = some c₁ →
    firstMatch request s₂.chains = some c₂ → c₁.config.filters = [⟨some cfg₁⟩] → c₂.config.filters = [⟨some cfg₂⟩] →
    Oidc.branch cfg₁ request = Oidc.branch cfg₂ request
  status : (check w request s₁).1 = (check w request s₂).1
  code : (check w request s₁).2.1.statusCode = (check w request s₂).2.1.statusCode

/-- The names that decide are spelled alike: those of the first chain that can match in one of the
services, and the id-token header of its filter when the request carries it. -/
def SpelledAlike (s₁ s₂ : AuthServiceImpl) : Prop :=
  triggered w request s₁ = .ok true → ∀ c₁ c₂, firstNamed request s₁.chains s₂.chains = some (c₁, c₂) →
    (namedLower c₁.config ∧ namedLower c₂.config) ∧
      ∀ cfg₁ cfg₂, c₁.config.filters = [⟨some cfg₁⟩] → c₂.config.filters = [⟨some cfg₂⟩] → Carries cfg₁ request →
        (LowerCase cfg₁.idToken.header ↔ LowerCase cfg₂.idToken.header)

variable {w request} {s₁ s₂ : AuthServiceImpl} {c₁ c₂ : FilterChainImpl}

private theorem relay_settled {o₁ o₂ : Outcome} (h : o₁.lowered = o₂.lowered) :
    (relay (Pipe.settled o₁)).1 = (relay (Pipe.settled o₂)).1 ∧
      (relay (Pipe.settled o₁)).2.statusCode = (relay (Pipe.settled o₂)).2.statusCode := by
  cases o₁ with
  | returned code₁ r₁ =>
    cases o₂ with
    | returned code₂ r₂ =>
      obtain ⟨rfl, -⟩ := Outcome.returned.inj h
      cases code₁ <;> exact ⟨rfl, rfl⟩
    | thrown exn₂ r₂ => cases h
  | thrown exn₁ r₁ =>
    cases o₂ with
    | returned code₂ r₂ => cases h
    | thrown exn₂ r₂ =>
      obtain ⟨rfl, hr⟩ := Outcome.thrown.inj h
      refine ⟨rfl, ?_⟩
      have hcode := congrArg CheckResponse.statusCode hr
      rwa [lowerHeaders_status.1, lowerHeaders_status.1] at hcode

private theorem twin_filters (ht : Twin c₁ c₂) {cfg₁ : OIDCConfig} {others₁ : List Filter}
    (h₁ : c₁.config.filters = ⟨some cfg₁⟩ :: others₁) :
    ∃ cfg₂ others₂, c₂.config.filters = ⟨some cfg₂⟩ :: others₂ ∧ cfg₁.lowered = cfg₂.lowered ∧
      others₁.map (·.lowered) = others₂.map (·.lowered) := by
  have hmap : c₁.config.filters.map (·.lowered) = c₂.config.filters.map (·.lowered) :=
    congrArg FilterChain.filters ht.config
  rw [h₁] at hmap
  cases hf : c₂.config.filters with
  | nil => simp [hf] at hmap
  | cons filter others₂ =>
    rw [hf] at hmap
    obtain ⟨hhead, htail⟩ := List.cons.inj hmap
    obtain ⟨_ | cfg₂⟩ := filter
    · cases hhead
    · exact ⟨cfg₂, others₂, rfl, Option.some.inj (Config.Filter.mk.inj hhead), htail⟩

private theorem processChain_twin (ht : Twin c₁ c₂) (hl₁ : Loaded c₁.config) (hl₂ : Loaded c₂.config)
    (hb : ∀ cfg₁ cfg₂, c₁.config.filters = [⟨some cfg₁⟩] → c₂.config.filters = [⟨some cfg₂⟩] →
      Oidc.branch cfg₁ request = Oidc.branch cfg₂ request) :
    (processChain w request c₁).1 = (processChain w request c₂).1 ∧
      (processChain w request c₁).2.1.statusCode = (processChain w request c₂).2.1.statusCode := by
  obtain ⟨cfg₁, others₁, hf₁, -⟩ := hl₁.filters
  obtain ⟨cfg₂, others₂, hf₂, hcfg, hothers⟩ := twin_filters ht hf₁
  cases others₁ with
  | nil =>
    obtain rfl : others₂ = [] := by simpa using hothers.symm
    obtain ⟨hs₁, hr₁⟩ := Prod.mk.inj (processChain_single w request hf₁)
    obtain ⟨hs₂, hr₂⟩ := Prod.mk.inj (processChain_single w request hf₂)
    have hstore : c₁.storeFor cfg₁ = c₂.storeFor cfg₂ := by
      have htimeouts : cfg₁.lowered.absoluteSessionTimeout = cfg₂.lowered.absoluteSessionTimeout ∧
          cfg₁.lowered.idleSessionTimeout = cfg₂.lowered.idleSessionTimeout := by rw [hcfg]; exact ⟨rfl, rfl⟩
      obtain ⟨ha, hi⟩ : cfg₁.absoluteSessionTimeout = cfg₂.absoluteSessionTimeout ∧
          cfg₁.idleSessionTimeout = cfg₂.idleSessionTimeout := htimeouts
      rw [FilterChainImpl.storeFor, FilterChainImpl.storeFor, ht.store, ha, hi]
    rw [hs₁, hr₁, hs₂, hr₂, hstore]
    exact relay_settled (runProcess_of_branch_eq hcfg (hb cfg₁ cfg₂ hf₁ hf₂) w.now w.external _)
  | cons second₁ others₁ =>
    obtain ⟨second₁, rfl⟩ := hl₁.oidc second₁ (by simp [hf₁])
    cases others₂ with
    | nil => cases hothers
    | cons second₂ others₂ =>
      obtain ⟨second₂, rfl⟩ := hl₂.oidc second₂ (by simp [hf₂])
      obtain ⟨hs₁, hr₁⟩ := processChain_second w request hf₁
      obtain ⟨hs₂, hr₂⟩ := processChain_second w request hf₂
      rw [hs₁, hs₂, hr₁, hr₂]
      exact ⟨rfl, rfl⟩

private theorem check_untriggered {b : Except Exn Bool} (hb : b ≠ .ok true) (h₁ : triggered w request s₁ = b)
    (h₂ : triggered w request s₂ = b) :
    (check w request s₁).1 = (check w request s₂).1 ∧
      (check w request s₁).2.1.statusCode = (check w request s₂).2.1.statusCode := by
  unfold triggered at h₁ h₂
  simp only [check, h₁, h₂]
  rcases b with exn | _ | _
  · exact ⟨rfl, rfl⟩
  · exact ⟨rfl, rfl⟩
  · exact absurd rfl hb

private theorem twins_of_maps {chains₁ chains₂ : List FilterChainImpl}
    (hconfig : chains₁.map (·.config.lowered) = chains₂.map (·.config.lowered))
    (hstore : chains₁.map (·.oidcSessionStore) = chains₂.map (·.oidcSessionStore)) :
    List.Forall₂ Twin chains₁ chains₂ := by
  induction chains₁ generalizing chains₂ with
  | nil =>
    obtain rfl : chains₂ = [] := by simpa using hconfig.symm
    exact .nil
  | cons c₁ chains₁ ih =>
    cases chains₂ with
    | nil => cases hconfig
    | cons c₂ chains₂ =>
      obtain ⟨hc, hconfig⟩ := List.cons.inj hconfig
      obtain ⟨hs, hstore⟩ := List.cons.inj hstore
      exact .cons ⟨hc, hs⟩ (ih hconfig hstore)

private theorem selected_triggered {service : AuthServiceImpl} (ht : triggered w request service = .ok true) :
    selected w request service = service.chains.findIdx? (accepts request) := by
  rw [selected, ht]

private theorem branch_twin_iff {cfg₁ cfg₂ : OIDCConfig} (hk : ∀ p ∈ request.http.headers, LowerCase p.1)
    (hc : Twin c₁ c₂) (h₁ : c₁.config.filters = [⟨some cfg₁⟩]) (h₂ : c₂.config.filters = [⟨some cfg₂⟩]) :
    Oidc.branch cfg₁ request = Oidc.branch cfg₂ request ↔
      (Carries cfg₁ request → (LowerCase cfg₁.idToken.header ↔ LowerCase cfg₂.idToken.header)) := by
  obtain ⟨cfg, others, hf, hcfg, -⟩ := twin_filters hc h₁
  obtain rfl : cfg₂ = cfg := by simpa using (List.cons.inj (h₂.symm.trans hf)).1
  exact branch_eq_iff hcfg hk

private theorem spelledAlike_of_alike (htwins : List.Forall₂ Twin s₁.chains s₂.chains)
    (htrigger : triggered w request s₁ = triggered w request s₂) (hk : ∀ p ∈ request.http.headers, LowerCase p.1)
    (h : Alike w request s₁ s₂) : SpelledAlike w request s₁ s₂ := by
  intro ht c₁ c₂ hnamed
  rcases selection_cases hk htwins with ⟨hnone, -⟩ | ⟨d₁, d₂, hsome, hd, hcases⟩
  · cases hnone.symm.trans hnamed
  · obtain ⟨rfl, rfl⟩ := Prod.mk.inj (Option.some.inj (hsome.symm.trans hnamed))
    rcases hcases with ⟨hlow, hf₁, hf₂, -⟩ | ⟨-, hne⟩
    · refine ⟨hlow, fun cfg₁ cfg₂ h₁ h₂ => ?_⟩
      exact (branch_twin_iff hk hd h₁ h₂).mp (h.branch _ _ cfg₁ cfg₂ ht hf₁ hf₂ h₁ h₂)
    · have hsel := h.selects
      rw [selected_triggered ht, selected_triggered (htrigger ▸ ht)] at hsel
      exact absurd hsel hne

private theorem alike_of_triggered (hl₁ : ∀ chain ∈ s₁.chains, Loaded chain.config)
    (hl₂ : ∀ chain ∈ s₂.chains, Loaded chain.config) (htwins : List.Forall₂ Twin s₁.chains s₂.chains)
    (hk : ∀ p ∈ request.http.headers, LowerCase p.1) (ht₁ : triggered w request s₁ = .ok true)
    (ht₂ : triggered w request s₂ = .ok true) (h : SpelledAlike w request s₁ s₂) : Alike w request s₁ s₂ := by
  obtain ⟨hstatus₁, hresponse₁⟩ := check_triggered ht₁
  obtain ⟨hstatus₂, hresponse₂⟩ := check_triggered ht₂
  rcases selection_cases hk htwins with ⟨-, hf₁, hf₂, hidx₁, hidx₂⟩ | ⟨d₁, d₂, hsome, hd, hcases⟩
  · obtain ⟨hp₁, hr₁⟩ := processChains_none w request hl₁ hf₁
    obtain ⟨hp₂, hr₂⟩ := processChains_none w request hl₂ hf₂
    refine ⟨?_, fun c₁ c₂ cfg₁ cfg₂ _ h₁ => ?_, ?_, ?_⟩
    · rw [selected_triggered ht₁, selected_triggered ht₂, hidx₁, hidx₂]
    · cases hf₁.symm.trans h₁
    · rw [hstatus₁, hstatus₂, hp₁, hp₂]
    · rw [hresponse₁, hresponse₂, hr₁, hr₂]
  · obtain ⟨hlow, hheader⟩ := h ht₁ d₁ d₂ hsome
    rcases hcases with ⟨-, hf₁, hf₂, hidx⟩ | ⟨hnot, -⟩
    · have hb (cfg₁ cfg₂ : OIDCConfig) (h₁ : d₁.config.filters = [⟨some cfg₁⟩])
          (h₂ : d₂.config.filters = [⟨some cfg₂⟩]) : Oidc.branch cfg₁ request = Oidc.branch cfg₂ request :=
        (branch_twin_iff hk hd h₁ h₂).mpr (hheader cfg₁ cfg₂ h₁ h₂)
      obtain ⟨hp₁, hr₁⟩ := processChains_some w request hl₁ hf₁
      obtain ⟨hp₂, hr₂⟩ := processChains_some w request hl₂ hf₂
      obtain ⟨hp, hr⟩ := processChain_twin hd (hl₁ _ (List.mem_of_find?_eq_some hf₁))
        (hl₂ _ (List.mem_of_find?_eq_some hf₂)) hb
      refine ⟨?_, fun c₁ c₂ cfg₁ cfg₂ _ h₁ h₂ => ?_, ?_, ?_⟩
      · rw [selected_triggered ht₁, selected_triggered ht₂, hidx]
      · obtain rfl := Option.some.inj (hf₁.symm.trans h₁)
        obtain rfl := Option.some.inj (hf₂.symm.trans h₂)
        exact hb cfg₁ cfg₂
      · rw [hstatus₁, hstatus₂, hp₁, hp₂, hp]
      · rw [hresponse₁, hresponse₂, hr₁, hr₂, hr]
    · exact absurd hlow hnot

private theorem alike_of_untriggered (htrigger : triggered w request s₁ = triggered w request s₂)
    (ht : triggered w request s₁ ≠ .ok true) : Alike w request s₁ s₂ := by
  obtain ⟨hstatus, hcode⟩ := check_untriggered ht rfl htrigger.symm
  refine ⟨?_, fun _ _ _ _ h => absurd h ht, hstatus, hcode⟩
  unfold selected
  rw [← htrigger]
  split
  · exact absurd ‹_› ht
  · rfl

/-- Header names are case-insensitive exactly as far as the names that decide are spelled alike. -/
theorem alike_iff {loader₁ loader₂ : Loader} {file₁ file₂ : Bytes} {config₁ config₂ : AuthService.Config}
    (hc₁ : getConfig loader₁ file₁ = .ok config₁) (hc₂ : getConfig loader₂ file₂ = .ok config₂)
    (hcase : config₁.lowered = config₂.lowered) (hs₁ : Serves config₁ s₁) (hs₂ : Serves config₂ s₂)
    (hstores : s₁.chains.map (·.oidcSessionStore) = s₂.chains.map (·.oidcSessionStore))
    (hk : ∀ p ∈ request.http.headers, LowerCase p.1) :
    Alike w request s₁ s₂ ↔ SpelledAlike w request s₁ s₂ := by
  have hl₁ (chain : FilterChainImpl) (h : chain ∈ s₁.chains) : Loaded chain.config :=
    loaded_of_getConfig hc₁ (hs₁.chains ▸ List.mem_map_of_mem h)
  have hl₂ (chain : FilterChainImpl) (h : chain ∈ s₂.chains) : Loaded chain.config :=
    loaded_of_getConfig hc₂ (hs₂.chains ▸ List.mem_map_of_mem h)
  have htwins : List.Forall₂ Twin s₁.chains s₂.chains := by
    refine twins_of_maps ?_ hstores
    have hmap : config₁.chains.map (·.lowered) = config₂.chains.map (·.lowered) :=
      congrArg AuthService.Config.chains hcase
    rw [← hs₁.chains, ← hs₂.chains, List.map_map, List.map_map] at hmap
    exact hmap
  have htrigger : triggered w request s₁ = triggered w request s₂ := by
    have hrules : config₁.lowered.triggerRules = config₂.lowered.triggerRules := by rw [hcase]
    rw [triggered, triggered, hs₁.triggerRules, hs₂.triggerRules]
    exact congrArg _ hrules
  constructor
  · exact spelledAlike_of_alike htwins htrigger hk
  · intro h
    by_cases ht : triggered w request s₁ = .ok true
    · exact alike_of_triggered hl₁ hl₂ htwins hk ht (htrigger ▸ ht) h
    · exact alike_of_untriggered htrigger ht

private def namedOidc (header : Bytes) : OIDCConfig := { fileOidc with idToken? := some ⟨header, text "Bearer"⟩ }

/-- A file with the id-token header's name in one spelling. -/
private def namedLoader (header : Bytes) : Loader :=
  loaderFor (filterText (text "https://me.tld/callback") header) (namedOidc header)

private def namedService (header : Bytes) : AuthServiceImpl := .create (fileConfig [⟨some (namedOidc header)⟩])

private def bearer : HeaderMap := [(text "authorization", text "Bearer a.b.c")]

private theorem getConfig_named {header : Bytes} (h : header ∈ [text "Authorization", text "authorization"]) :
    getConfig (namedLoader header) (text "config.json") = .ok (fileConfig [⟨some (namedOidc header)⟩]) := by
  revert h header
  decide +kernel

theorem alike_without_token :
    Alike sampleSurroundings (visit []).request (namedService (text "Authorization"))
      (namedService (text "authorization")) := by
  have hupper := getConfig_named (show text "Authorization" ∈ _ by decide)
  have hlower := getConfig_named (show text "authorization" ∈ _ by decide)
  refine (alike_iff hupper hlower (by decide +kernel) (serves_create _) (serves_create _) rfl (by decide +kernel)).mpr ?_
  intro _ c₁ c₂ hnamed
  obtain ⟨rfl, rfl⟩ : FilterChainImpl.create ⟨text "chain", none, [⟨some (namedOidc (text "Authorization"))⟩]⟩ = c₁ ∧
      FilterChainImpl.create ⟨text "chain", none, [⟨some (namedOidc (text "authorization"))⟩]⟩ = c₂ := by
    simpa [firstNamed, namedService, AuthServiceImpl.create, fileConfig, intended, namedLower, FilterChain.lowered,
      FilterChainImpl.create, FilterChainImpl.matchesRequest] using hnamed
  refine ⟨⟨rfl, rfl⟩, fun cfg₁ cfg₂ h₁ _ hcarries => ?_⟩
  obtain rfl : namedOidc (text "Authorization") = cfg₁ := by simpa [FilterChainImpl.create] using h₁
  exact absurd hcarries.header (by decide +kernel)

/-- A client that brings a token is let through under one spelling and sent to the login page under
the other. -/
theorem capital_header_missed :
    getConfig (namedLoader (text "Authorization")) (text "config.json") =
        .ok (fileConfig [⟨some (namedOidc (text "Authorization"))⟩]) ∧
      getConfig (namedLoader (text "authorization")) (text "config.json") =
        .ok (fileConfig [⟨some (namedOidc (text "authorization"))⟩]) ∧
      (fileConfig [⟨some (namedOidc (text "Authorization"))⟩]).lowered =
        (fileConfig [⟨some (namedOidc (text "authorization"))⟩]).lowered ∧
      (∀ p ∈ (visit bearer).request.http.headers, LowerCase p.1) ∧
      ¬ Alike sampleSurroundings (visit bearer).request (namedService (text "Authorization"))
        (namedService (text "authorization")) := by
  refine ⟨getConfig_named (by decide), getConfig_named (by decide), by decide +kernel, by decide +kernel, fun h => ?_⟩
  exact absurd h.code (by decide +kernel)

end Check
end Service
end AuthService
