import AuthService.Service.AsyncServiceImpl

/-! What loading a configuration promises for the requests that follow: which callbacks are
recognised, and what cannot throw. -/
namespace AuthService.Service
open Config Filters Filters.Oidc Common.Http Common.Utilities AuthServiceImpl OidcFilter

section Callback

/-- The host names under which a callback arrives: with the port, or without it on port 443. -/
def CallbackHost (u : Uri) (host : Bytes) : Prop :=
  host = u.host ++ text ":" ++ decimal u.port ∨ u.port = 443 ∧ host = u.host

instance (u : Uri) (host : Bytes) : Decidable (CallbackHost u host) := inferInstanceAs (Decidable (_ ∨ _))

/-- Requests to the path of the URI, with or without a query, are recognised under its host names,
and no others are. -/
structure Recognises (cfg : OIDCConfig) (u : Uri) : Prop where
  callbacks : ∀ request : CheckRequest, CallbackHost u request.http.host →
    (request.http.path = u.getPath ∨ ∃ q, request.http.path = u.getPath ++ text "?" ++ q) →
    matchesCallbackRequest cfg request = .ok true
  others : ∀ request : CheckRequest, (¬ CallbackHost u request.http.host ∨ requestPath request ≠ u.getPath) →
    matchesCallbackRequest cfg request = .ok false

variable {cfg : OIDCConfig} {u : Uri} {request : CheckRequest}

private theorem matchesCallbackRequest_eq (hu : Uri.parse cfg.callbackUri = .ok u) (hs : u.scheme = text "https") :
    matchesCallbackRequest cfg request =
      .ok (decide (CallbackHost u request.http.host ∧ requestPath request = u.pathQueryFragmentString)) := by
  have hhost : (request.http.host == u.host ++ text ":" ++ decimal u.port ||
      (u.scheme == text "https" && u.port == 443 && request.http.host == u.host)) =
      decide (CallbackHost u request.http.host) := by
    rw [Bool.eq_iff_iff]
    simp [CallbackHost, hs]
  simp only [matchesCallbackRequest, hu, hhost]
  rw [Bool.decide_and, requestPath]
  congr 2
  rw [Bool.eq_iff_iff]
  simp

private theorem plain_getPath (hu : Uri.parse cfg.callbackUri = .ok u) :
    '?'.toUInt8 ∉ u.getPath ∧ '#'.toUInt8 ∉ u.getPath := by
  rw [Uri.getPath, (Uri.parse_path hu).2]
  exact PathQueryFragment.path_parse _

private theorem getPath_of_plain (hu : Uri.parse cfg.callbackUri = .ok u) (hq : '?'.toUInt8 ∉ u.pathQueryFragmentString)
    (hh : '#'.toUInt8 ∉ u.pathQueryFragmentString) : u.getPath = u.pathQueryFragmentString := by
  obtain ⟨hnul, hparse⟩ := Uri.parse_path hu
  rw [Uri.getPath, hparse, PathQueryFragment.parse_of_notMem hq hh]
  exact cStr_of_nulFree hnul

private theorem requestPath_of_getPath (hu : Uri.parse cfg.callbackUri = .ok u) (hnul : NulFree u.getPath)
    (hp : request.http.path = u.getPath ∨ ∃ q, request.http.path = u.getPath ++ text "?" ++ q) :
    requestPath request = u.getPath := by
  obtain ⟨hq, hh⟩ := plain_getPath hu
  rw [requestPath]
  rcases hp with hp | ⟨q, hp⟩
  · rw [hp, PathQueryFragment.parse_of_notMem hq hh]
    exact cStr_of_nulFree hnul
  · rw [hp, List.append_assoc]
    exact PathQueryFragment.path_parse_append hq hh q

/-- The configured callback is recognised exactly when its URI has no `?` and no `#`; loading
accepts one with an empty query or fragment. -/
theorem callback_recognised_iff {loader : Loader} {configFileName : Bytes} {config : AuthService.Config}
    (hc : getConfig loader configFileName = .ok config) {chain : FilterChain} (hchain : chain ∈ config.chains)
    {cfg : OIDCConfig} {filters : List Filter} (hf : chain.filters = ⟨some cfg⟩ :: filters) {u : Uri}
    (hu : Uri.parse cfg.callbackUri = .ok u) :
    Recognises cfg u ↔ '?'.toUInt8 ∉ u.pathQueryFragmentString ∧ '#'.toUInt8 ∉ u.pathQueryFragmentString := by
  obtain ⟨u', hu', hs⟩ := callbackUri_of_getConfig hc hchain hf
  obtain rfl : u' = u := Except.ok.inj (hu'.symm.trans hu)
  constructor
  · intro h
    -- the request to the bare path under the full host name
    have hmatch := h.callbacks ⟨some ⟨[], u'.host ++ text ":" ++ decimal u'.port, u'.getPath, [], []⟩⟩
      (.inl rfl) (.inl rfl)
    rw [matchesCallbackRequest_eq hu hs] at hmatch
    obtain ⟨-, hpath⟩ := of_decide_eq_true (Except.ok.inj hmatch)
    rw [← hpath]
    exact PathQueryFragment.path_parse _
  · rintro ⟨hq, hh⟩
    have hpath := getPath_of_plain hu hq hh
    have hnul : NulFree u'.getPath := hpath ▸ (Uri.parse_path hu).1
    refine ⟨fun request hhost hp => ?_, fun request hother => ?_⟩
    · rw [matchesCallbackRequest_eq hu hs, decide_eq_true ⟨hhost, (requestPath_of_getPath hu hnul hp).trans hpath⟩]
    · rw [matchesCallbackRequest_eq hu hs, decide_eq_false]
      rintro ⟨hhost, heq⟩
      exact hother.elim (absurd hhost) (absurd (heq.trans hpath.symm))

private def emptyQueryOidc : OIDCConfig := { fileOidc with callbackUri := text "https://me.tld/callback?" }

private def emptyQueryLoader : Loader :=
  loaderFor (filterText (text "https://me.tld/callback?") (text "authorization")) emptyQueryOidc

private def callbackUri (pathQueryFragmentString : Bytes) : Uri where
  host := text "me.tld"
  scheme := text "https"
  port := 443
  pathQueryFragmentString := pathQueryFragmentString
  pathQueryFragment := .parse pathQueryFragmentString

theorem callback_recognised_sample :
    getConfig sampleLoader (text "config.json") = .ok (fileConfig [⟨some fileOidc⟩]) ∧
      Recognises fileOidc (callbackUri (text "/callback")) := by
  have hu : Uri.parse fileOidc.callbackUri = .ok (callbackUri (text "/callback")) := by decide +kernel
  exact ⟨getConfig_sample,
    (callback_recognised_iff getConfig_sample List.mem_cons_self rfl hu).mpr (by decide +kernel)⟩

/-- A callback URI that ends in a question mark is accepted and never matched. -/
theorem callback_with_empty_query_missed :
    getConfig emptyQueryLoader (text "config.json") = .ok (fileConfig [⟨some emptyQueryOidc⟩]) ∧
      Uri.parse emptyQueryOidc.callbackUri = .ok (callbackUri (text "/callback?")) ∧
      ¬ Recognises emptyQueryOidc (callbackUri (text "/callback?")) := by
  refine ⟨by decide +kernel, by decide +kernel, fun h => ?_⟩
  have hmissed := h.callbacks ⟨some ⟨[], text "me.tld", text "/callback", [], []⟩⟩ (by decide +kernel)
    (.inl (by decide +kernel))
  exact absurd hmissed (by decide +kernel)

end Callback

section Unfailing

/-- `Check` leaves through one of its catch blocks. -/
def Caught (w : Surroundings) (request : CheckRequest) (service : AuthServiceImpl) : Prop :=
  (∃ exn, triggered w request service = .error exn) ∨
    triggered w request service = .ok true ∧ ∃ exn, (processChains w request service.chains).1 = .error exn

/-- The network accepts the server names of all token endpoints. -/
def Accepting (network : Network) (config : AuthService.Config) : Prop :=
  ∀ chain ∈ config.chains, ∀ oidc, ⟨some oidc⟩ ∈ chain.filters → ¬ PostRefused network oidc

/-- Nothing throws at request time because of the configuration, whatever the stores hold. -/
structure Unfailing (regexMatch : RegexMatch) (config : AuthService.Config) (request : CheckRequest) : Prop where
  trigger : ∃ b, TriggerRules.triggerRuleMatchesPath regexMatch (PathQueryFragment.parse request.http.path).path
    config.triggerRules = .ok b
  selects : ∀ chain : FilterChainImpl, chain.config ∈ config.chains → ∃ b, chain.matchesRequest request = .ok b
  builds : ∀ chain : FilterChainImpl, chain.config ∈ config.chains → ∃ filters, chain.new.1 = .ok filters
  parses : ∀ chain ∈ config.chains, ∀ oidc, ⟨some oidc⟩ ∈ chain.filters →
    ∃ b, matchesCallbackRequest oidc request = .ok b
  check : ∀ w service, w.regexMatch = regexMatch → Serves config service → Accepting w.network config →
    ¬ Caught w request service

/-- One filter a chain, and no regular expression that throws on the request's path. -/
structure Buildable (regexMatch : RegexMatch) (config : AuthService.Config) (request : CheckRequest) : Prop where
  filters : ∀ chain ∈ config.chains, chain.filters.length = 1
  regex : (PathQueryFragment.parse request.http.path).path ≠ [] → ∀ regex,
    TriggerRules.Reaches regexMatch (PathQueryFragment.parse request.http.path).path config.triggerRules regex →
    regexMatch regex (PathQueryFragment.parse request.http.path).path ≠ none

variable {w : Surroundings} {request : CheckRequest} {service : AuthServiceImpl} {config : AuthService.Config}
  {regexMatch : RegexMatch}

private theorem trigger_iff : (∃ b, TriggerRules.triggerRuleMatchesPath regexMatch
      (PathQueryFragment.parse request.http.path).path config.triggerRules = .ok b) ↔
    ((PathQueryFragment.parse request.http.path).path ≠ [] → ∀ regex,
      TriggerRules.Reaches regexMatch (PathQueryFragment.parse request.http.path).path config.triggerRules regex →
      regexMatch regex (PathQueryFragment.parse request.http.path).path ≠ none) := by
  have herror : (∃ e, TriggerRules.triggerRuleMatchesPath regexMatch (PathQueryFragment.parse request.http.path).path
      config.triggerRules = .error e) ↔ _ := TriggerRules.triggerRuleMatchesPath_error_iff
  cases ht : TriggerRules.triggerRuleMatchesPath regexMatch (PathQueryFragment.parse request.http.path).path
      config.triggerRules with
  | ok b =>
    refine iff_of_true ⟨b, rfl⟩ fun hp regex hreach hnone => ?_
    obtain ⟨e, he⟩ := herror.mpr ⟨hp, regex, hreach, hnone⟩
    cases ht.symm.trans he
  | error e =>
    obtain ⟨hp, regex, hreach, hnone⟩ := herror.mp ⟨e, ht⟩
    exact iff_of_false (fun ⟨b, hb⟩ => by cases hb) fun h => h hp regex hreach hnone

private theorem single_filter {chain : FilterChain} (hl : Loaded chain) (h : chain.filters.length = 1) :
    ∃ oidc u, chain.filters = [⟨some oidc⟩] ∧ Uri.parse oidc.callbackUri = .ok u := by
  obtain ⟨oidc, others, hf, u, hu⟩ := hl.filters
  obtain rfl : others = [] := by simpa [hf] using h
  exact ⟨oidc, u, hf, hu⟩

private theorem matchesCallbackRequest_ok {oidc : OIDCConfig} {u : Uri} (hu : Uri.parse oidc.callbackUri = .ok u) :
    ∃ b, matchesCallbackRequest oidc request = .ok b := by
  simp [matchesCallbackRequest, hu]

private theorem processChain_ok {chain : FilterChainImpl} {oidc : OIDCConfig} {u : Uri}
    (hf : chain.config.filters = [⟨some oidc⟩]) (hu : Uri.parse oidc.callbackUri = .ok u)
    (hn : ¬ PostRefused w.network oidc) (exn : Exn) : (processChain w request chain).1 ≠ .error exn := by
  obtain ⟨hs, -⟩ := Prod.mk.inj (processChain_single w request hf)
  rw [hs]
  cases hrun : (runProcess w.lib oidc w.now w.external request (chain.storeFor oidc)).1 with
  | returned code response => cases code <;> simp [Pipe.settled]
  | thrown exn response =>
    have hcallback (what : Bytes) : matchesCallbackRequest oidc request ≠ .error what := by
      simp [matchesCallbackRequest, hu]
    exact absurd (posts_of_thrown rfl hcallback hrun).2 hn

private theorem not_caught (hl : ∀ chain ∈ config.chains, Loaded chain) (hb : Buildable regexMatch config request)
    (hw : w.regexMatch = regexMatch) (hs : Serves config service) (hn : Accepting w.network config) :
    ¬ Caught w request service := by
  have hchains (chain : FilterChainImpl) (h : chain ∈ service.chains) : chain.config ∈ config.chains :=
    hs.chains ▸ List.mem_map_of_mem h
  have hloaded (chain : FilterChainImpl) (h : chain ∈ service.chains) : Loaded chain.config := hl _ (hchains chain h)
  rintro (⟨exn, ht⟩ | ⟨-, exn, hp⟩)
  · obtain ⟨b, hok⟩ := trigger_iff.mpr hb.regex
    rw [triggered, hw, hs.triggerRules, hok] at ht
    cases ht
  · cases hf : firstMatch request service.chains with
    | none =>
      rw [(processChains_none w request hloaded hf).1] at hp
      cases hp
    | some chain =>
      have hin := hchains chain (List.mem_of_find?_eq_some hf)
      obtain ⟨oidc, u, hfilters, hu⟩ := single_filter (hl _ hin) (hb.filters _ hin)
      have hposts : ¬ PostRefused w.network oidc := hn _ hin oidc (by simp [hfilters])
      rw [(processChains_some w request hloaded hf).1] at hp
      exact processChain_ok hfilters hu hposts exn hp

/-- Loading keeps exceptions out of request handling exactly for one filter a chain and regular
expressions that do not throw. -/
theorem unfailing_iff {loader : Loader} {configFileName : Bytes} (regexMatch : RegexMatch) (request : CheckRequest)
    (hc : getConfig loader configFileName = .ok config) :
    Unfailing regexMatch config request ↔ Buildable regexMatch config request := by
  have hl (chain : FilterChain) (h : chain ∈ config.chains) : Loaded chain := loaded_of_getConfig hc h
  constructor
  · intro h
    refine ⟨fun chain hin => ?_, trigger_iff.mp h.trigger⟩
    obtain ⟨oidc, others, hf, -⟩ := (hl chain hin).filters
    cases others with
    | nil => simp [hf]
    | cons second others =>
      obtain ⟨second, rfl⟩ := (hl chain hin).oidc second (by simp [hf])
      obtain ⟨filters, hok⟩ := h.builds (.create chain) hin
      have herror : (FilterChainImpl.create chain).new.1 = _ := FilterChainImpl.new_second hf
      cases hok.symm.trans herror
  · intro hb
    refine ⟨trigger_iff.mpr hb.regex, fun chain hin => chain.matchesRequest_of_loaded (hl _ hin) request, ?_, ?_, ?_⟩
    · intro chain hin
      obtain ⟨oidc, u, hf, -⟩ := single_filter (hl _ hin) (hb.filters _ hin)
      exact ⟨[oidc], by rw [FilterChainImpl.new_single hf]⟩
    · intro chain hin oidc hfilter
      obtain ⟨oidc', u, hf, hu⟩ := single_filter (hl _ hin) (hb.filters _ hin)
      obtain rfl : oidc = oidc' := by simpa [hf] using hfilter
      exact matchesCallbackRequest_ok hu
    · exact fun w service hw hs hn => not_caught hl hb hw hs hn

theorem unfailing_visit :
    Unfailing sampleSurroundings.regexMatch (fileConfig [⟨some fileOidc⟩]) (visit []).request := by
  refine (unfailing_iff _ _ getConfig_sample).mpr ⟨by decide, fun _ regex _ => ?_⟩
  exact Option.some_ne_none false

/-- Two filters in a chain are accepted, and building them for a request throws. -/
theorem second_filter_throws :
    getConfig sampleLoader (text "doubled.json") = .ok (fileConfig [⟨some fileOidc⟩, ⟨some fileOidc⟩]) ∧
      ¬ Unfailing sampleSurroundings.regexMatch (fileConfig [⟨some fileOidc⟩, ⟨some fileOidc⟩]) (visit []).request := by
  refine ⟨getConfig_doubled, fun h => ?_⟩
  obtain ⟨filters, hok⟩ := h.builds (.create ⟨text "chain", none, [⟨some fileOidc⟩, ⟨some fileOidc⟩]⟩)
    List.mem_cons_self
  cases hok

end Unfailing
end AuthService.Service
