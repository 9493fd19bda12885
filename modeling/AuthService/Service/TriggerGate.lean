import AuthService.Service.AsyncServiceImpl

/-! The gate in front of the filter chains: which requests the trigger rules lead to them. -/
namespace AuthService.Service
open Config Filters Filters.Oidc Common.Http Common.Utilities AuthServiceImpl TriggerRules

/-- The part of a request path before its first `?` or `#`. -/
def beforeQuery (p : Bytes) : Bytes := p.takeWhile fun c => c ≠ '?'.toUInt8 ∧ c ≠ '#'.toUInt8

section Path
variable {p more : Bytes}

private theorem all_of_plain (h : PathQueryFragment.Plain p) :
    ∀ c ∈ p, decide (c ≠ '?'.toUInt8 ∧ c ≠ '#'.toUInt8) = true := by
  intro c hc
  refine decide_eq_true ⟨?_, ?_⟩
  · rintro rfl
    exact h.question hc
  · rintro rfl
    exact h.hashtag hc

private theorem beforeQuery_plain (h : PathQueryFragment.Plain p) : beforeQuery p = p :=
  List.takeWhile_eq_self_iff.mpr (all_of_plain h)

private theorem beforeQuery_append {c : UInt8} (h : PathQueryFragment.Plain p) (hc : c = '?'.toUInt8 ∨ c = '#'.toUInt8) :
    beforeQuery (p ++ c :: more) = p := by
  rw [beforeQuery, List.takeWhile_append_of_pos (all_of_plain h)]
  rcases hc with rfl | rfl <;> simp

private theorem path_eq (p : Bytes) :
    (PathQueryFragment.parse p).path = if '?'.toUInt8 ∈ p ∨ '#'.toUInt8 ∈ p then beforeQuery p else cStr p := by
  cases PathQueryFragment.arranged p with
  | plain hp =>
    rw [PathQueryFragment.parse_plain hp, if_neg (not_or.mpr ⟨hp.question, hp.hashtag⟩)]
  | query hp hq =>
    rw [PathQueryFragment.parse_query hp hq, if_pos (.inl (by simp)), beforeQuery_append hp (.inl rfl)]
  | fragment hp =>
    rw [PathQueryFragment.parse_fragment hp, if_pos (.inr (by simp)), beforeQuery_append hp (.inr rfl)]
  | both hp hq =>
    rw [PathQueryFragment.parse_both hp hq, if_pos (.inl (by simp)), beforeQuery_append hp (.inl rfl)]

end Path

section Gate
variable (w : Surroundings) (p : Bytes)

/-- The check of a request goes on to the filter chains. -/
def Consults (request : CheckRequest) (service : AuthServiceImpl) : Prop := triggered w request service = .ok true

/-- A request for a path at a service whose rules hold no invalid regular expression. -/
structure Arrives (request : CheckRequest) (service : AuthServiceImpl) : Prop where
  path : request.http.path = p
  valid : ∀ rule ∈ service.triggerRulesConfig, ValidRule w.regexMatch rule

/-- The documented meaning of the trigger rules for a path, and what follows from it. -/
structure Gate : Prop where
  meaning : ∀ request service, Arrives w p request service →
    (Consults w request service ↔ Selects w.regexMatch (beforeQuery p) service.triggerRulesConfig)
  consulted : ∀ request service, Arrives w p request service → Consults w request service →
    (check w request service).1 = statusOf (processChains w request service.chains).1 ∧
      (check w request service).2.1 = (processChains w request service.chains).2.1
  skipped : ∀ request service, Arrives w p request service → ¬ Consults w request service →
    check w request service = (.ok, .empty, service)
  query : PathQueryFragment.Plain p → ∀ c more request request' service, c = '?'.toUInt8 ∨ c = '#'.toUInt8 →
    Arrives w p request service → Arrives w (p ++ c :: more) request' service →
    (Consults w request service ↔ Consults w request' service)
  order : ∀ request service service', Arrives w p request service → Arrives w p request service' →
    Reordered service.triggerRulesConfig service'.triggerRulesConfig →
    (Consults w request service ↔ Consults w request service')
  further : ∀ request service service' front rule back, Arrives w p request service → Arrives w p request service' →
    service.triggerRulesConfig = front ++ back → front ++ back ≠ [] →
    service'.triggerRulesConfig = front ++ rule :: back → Consults w request service → Consults w request service'

variable {w p} {request : CheckRequest} {service : AuthServiceImpl}

private theorem consults_iff (h : Arrives w p request service) :
    Consults w request service ↔
      Selects w.regexMatch (PathQueryFragment.parse p).path service.triggerRulesConfig := by
  rw [Consults, triggered, h.path]
  exact (triggerRuleMatchesPath_of_valid h.valid).2

private theorem check_of_not_consults (h : Arrives w p request service) (hn : ¬ Consults w request service) :
    check w request service = (.ok, .empty, service) := by
  have hok : ∃ b, triggered w request service = .ok b := (triggerRuleMatchesPath_of_valid h.valid).1
  obtain ⟨b, hb⟩ := hok
  cases b with
  | true => exact absurd hb hn
  | false =>
    unfold triggered at hb
    simp only [check, hb]

private theorem path_of_nulFree (h : NulFree p ∨ '?'.toUInt8 ∈ p ∨ '#'.toUInt8 ∈ p) :
    (PathQueryFragment.parse p).path = beforeQuery p := by
  rw [path_eq]
  split
  · rfl
  · rename_i hn
    rw [cStr_of_nulFree (h.resolve_right hn), beforeQuery_plain ⟨(not_or.mp hn).1, (not_or.mp hn).2⟩]

private theorem gate_of_path (h : (PathQueryFragment.parse p).path = beforeQuery p) : Gate w p where
  meaning request service ha := by rw [consults_iff ha, h]
  consulted _ _ _ hc := check_triggered hc
  skipped _ _ ha hn := check_of_not_consults ha hn
  query hp c more request request' service hc ha ha' := by
    have hquery : '?'.toUInt8 ∈ p ++ c :: more ∨ '#'.toUInt8 ∈ p ++ c :: more := by
      rcases hc with rfl | rfl
      · exact .inl (by simp)
      · exact .inr (by simp)
    rw [consults_iff ha, consults_iff ha', h, path_of_nulFree (.inr hquery), beforeQuery_append hp hc,
      beforeQuery_plain hp]
  order request service service' ha ha' hr := by
    rw [consults_iff ha, consults_iff ha', selects_reordered hr]
  further request service service' front rule back ha ha' hs hne hs' hc := by
    rw [consults_iff ha, hs] at hc
    rw [consults_iff ha', hs']
    exact selects_insert hne rule hc

/-- The rule that tells a path from its part before a NUL. -/
private def tellingRule (p : Bytes) : TriggerRule := ⟨[.kExact p], [.kExact (cStr p)]⟩

private def serviceFor (rule : TriggerRule) : AuthServiceImpl := ⟨[rule], []⟩

private def requestFor (p : Bytes) : CheckRequest := ⟨some ⟨[], [], p, [], []⟩⟩

private theorem arrives_telling : Arrives w p (requestFor p) (serviceFor (tellingRule p)) := by
  refine ⟨rfl, ?_⟩
  intro rule hr r hin
  obtain rfl := List.mem_singleton.mp hr
  simp [tellingRule] at hin

private theorem nulFree_of_gate (h : Gate w p) : NulFree p ∨ '?'.toUInt8 ∈ p ∨ '#'.toUInt8 ∈ p := by
  by_contra hn
  obtain ⟨hnul, hplain⟩ := not_or.mp hn
  have hne : cStr p ≠ p := fun he => hnul (he ▸ nulFree_cStr p)
  have hconsults : Consults w (requestFor p) (serviceFor (tellingRule p)) := by
    rw [consults_iff arrives_telling, path_eq, if_neg hplain]
    refine .inr (.inr ⟨tellingRule p, List.mem_singleton_self _, ?_, .inr ⟨_, List.mem_singleton_self _, .exact⟩⟩)
    intro m hm hmatch
    rw [List.mem_singleton.mp hm, matches_kExact] at hmatch
    exact hne hmatch.symm
  rw [h.meaning _ _ arrives_telling, beforeQuery_plain ⟨(not_or.mp hplain).1, (not_or.mp hplain).2⟩] at hconsults
  rcases hconsults with hp | hnil | ⟨rule, hr, hs⟩
  · exact hne (by rw [hp]; rfl)
  · cases hnil
  · obtain rfl := List.mem_singleton.mp hr
    exact hs.excluded _ (List.mem_singleton_self _) .exact

/-- The gate means what the rules are documented to mean exactly for the paths without a NUL, or with a
query or a fragment. -/
theorem gate_iff (w : Surroundings) (p : Bytes) : Gate w p ↔ NulFree p ∨ '?'.toUInt8 ∈ p ∨ '#'.toUInt8 ∈ p :=
  ⟨nulFree_of_gate, fun h => gate_of_path (path_of_nulFree h)⟩

private def publicRule : TriggerRule := ⟨[.kExact (text "/public")], []⟩

private def hiddenPath : Bytes := text "/public" ++ 0 :: text "/secret"

/-- With only `/public` excluded, a longer path with a NUL behind `/public` is let past the chains. -/
theorem hidden_path_skipped :
    check sampleSurroundings (requestFor hiddenPath) (serviceFor publicRule) = (.ok, .empty, serviceFor publicRule) ∧
      Selects sampleSurroundings.regexMatch (beforeQuery hiddenPath) [publicRule] ∧
      ¬ Gate sampleSurroundings hiddenPath := by
  have harrives : Arrives sampleSurroundings hiddenPath (requestFor hiddenPath) (serviceFor publicRule) :=
    ⟨rfl, fun _ _ _ _ _ => ⟨false, rfl⟩⟩
  have hskipped : ¬ Consults sampleSurroundings (requestFor hiddenPath) (serviceFor publicRule) := by
    have htriggered : triggered sampleSurroundings (requestFor hiddenPath) (serviceFor publicRule) = .ok false := by
      decide +kernel
    rw [Consults, htriggered]
    simp
  have hselects : Selects sampleSurroundings.regexMatch (beforeQuery hiddenPath) [publicRule] := by
    refine .inr (.inr ⟨publicRule, List.mem_singleton_self _, ?_, .inl rfl⟩)
    intro m hm hmatch
    rw [List.mem_singleton.mp hm, matches_kExact] at hmatch
    exact absurd hmatch (by decide)
  refine ⟨check_of_not_consults harrives hskipped, hselects, fun h => ?_⟩
  exact hskipped ((h.meaning _ _ harrives).mpr hselects)

end Gate
end AuthService.Service
