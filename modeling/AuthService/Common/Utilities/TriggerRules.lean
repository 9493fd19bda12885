import AuthService.Config.Messages
import AuthService.Filters.Oidc.TokenResponse
import AuthService.Lib.Containers

/-! Trigger rules: which request paths the service looks at. -/
namespace AuthService.Common.Utilities
open Lib Config Filters.Oidc

/-- `std::regex_match` on a pattern and a string; none when it or the construction throws. -/
abbrev RegexMatch := (regex : Bytes) → (str : Bytes) → Option Bool

namespace TriggerRules
variable (regexMatch : RegexMatch)

def matchString (str : Bytes) : StringMatch → Except Exn Bool
  | .kExact s => .ok (s == str)
  | .kPrefix s => .ok (startsWith str s)
  | .kSuffix s => .ok (endsWith str s)
  | .kRegex r =>
    match regexMatch r str with
    | some b => .ok b
    | none => .error .regexError
  | .notSet => .ok false

/-- The two loops of `matchRule`: later entries are looked at only when earlier ones fail. -/
def matchAny (path : Bytes) : List StringMatch → Except Exn Bool
  | [] => .ok false
  | m :: ms => do
    if ← matchString regexMatch path m then pure true else matchAny path ms

def matchRule (path : Bytes) (rule : TriggerRule) : Except Exn Bool := do
  if ← matchAny regexMatch path rule.excludedPaths then pure false
  else if 0 < rule.includedPaths.length then matchAny regexMatch path rule.includedPaths
  else pure true

def matchAnyRule (path : Bytes) : List TriggerRule → Except Exn Bool
  | [] => .ok false
  | rule :: rules => do
    if ← matchRule regexMatch path rule then pure true else matchAnyRule path rules

def triggerRuleMatchesPath (path : Bytes) (triggerRulesConfig : List TriggerRule) : Except Exn Bool :=
  if path = [] ∨ triggerRulesConfig.length = 0 then .ok true
  else matchAnyRule regexMatch path triggerRulesConfig

/-- A regular expression that the evaluation of the rules comes to. -/
inductive Reaches (path : Bytes) (rules : List TriggerRule) (regex : Bytes) : Prop
  | excluded {before after rule front back} : rules = before ++ rule :: after →
      (∀ r ∈ before, matchRule regexMatch path r = .ok false) → rule.excludedPaths = front ++ .kRegex regex :: back →
      (∀ m ∈ front, matchString regexMatch path m = .ok false) → Reaches path rules regex
  | included {before after rule front back} : rules = before ++ rule :: after →
      (∀ r ∈ before, matchRule regexMatch path r = .ok false) →
      (∀ m ∈ rule.excludedPaths, matchString regexMatch path m = .ok false) →
      rule.includedPaths = front ++ .kRegex regex :: back →
      (∀ m ∈ front, matchString regexMatch path m = .ok false) → Reaches path rules regex

variable {regexMatch} {path : Bytes}

private theorem matchString_error_iff {m : StringMatch} : (∃ e, matchString regexMatch path m = .error e) ↔
    ∃ regex, m = .kRegex regex ∧ regexMatch regex path = none := by
  cases m <;> simp [matchString]
  split <;> simp_all

private theorem matchAny_loop : SearchLoop (matchString regexMatch path) (matchAny regexMatch path) :=
  ⟨rfl, fun _ _ => rfl⟩

private theorem matchAnyRule_loop : SearchLoop (matchRule regexMatch path) (matchAnyRule regexMatch path) :=
  ⟨rfl, fun _ _ => rfl⟩

private theorem matchRule_error_iff {rule : TriggerRule} : (∃ e, matchRule regexMatch path rule = .error e) ↔
    (∃ e, matchAny regexMatch path rule.excludedPaths = .error e) ∨
      matchAny regexMatch path rule.excludedPaths = .ok false ∧
        ∃ e, matchAny regexMatch path rule.includedPaths = .error e := by
  unfold matchRule
  rcases matchAny regexMatch path rule.excludedPaths with e | b
  · simp [bind, Except.bind]
  · cases b with
    | true => simp [bind, Except.bind, pure, Except.pure]
    | false =>
      cases hi : rule.includedPaths with
      | nil => simp [bind, Except.bind, pure, Except.pure, matchAny]
      | cons m ms => simp [bind, Except.bind]

private theorem matchAny_error_iff {l : List StringMatch} : (∃ e, matchAny regexMatch path l = .error e) ↔
    ∃ regex front back, l = front ++ .kRegex regex :: back ∧
      (∀ m ∈ front, matchString regexMatch path m = .ok false) ∧ regexMatch regex path = none := by
  rw [matchAny_loop.error_iff]
  constructor
  · rintro ⟨front, m, back, rfl, hfront, he⟩
    obtain ⟨regex, rfl, hr⟩ := matchString_error_iff.mp he
    exact ⟨regex, front, back, rfl, hfront, hr⟩
  · rintro ⟨regex, front, back, rfl, hfront, hr⟩
    exact ⟨front, .kRegex regex, back, rfl, hfront, matchString_error_iff.mpr ⟨regex, rfl, hr⟩⟩

/-- Evaluation throws exactly when it comes to a regular expression that does. -/
theorem triggerRuleMatchesPath_error_iff {rules : List TriggerRule} :
    (∃ e, triggerRuleMatchesPath regexMatch path rules = .error e) ↔
      path ≠ [] ∧ ∃ regex, Reaches regexMatch path rules regex ∧ regexMatch regex path = none := by
  have hloop : (∃ e, triggerRuleMatchesPath regexMatch path rules = .error e) ↔
      path ≠ [] ∧ ∃ e, matchAnyRule regexMatch path rules = .error e := by
    unfold triggerRuleMatchesPath
    by_cases hp : path = []
    · simp [hp]
    · cases rules with
      | nil => simp [matchAnyRule]
      | cons rule rules => simp [hp]
  rw [hloop, matchAnyRule_loop.error_iff]
  refine and_congr_right fun _ => ⟨?_, ?_⟩
  · rintro ⟨before, rule, after, rfl, hbefore, he⟩
    rcases matchRule_error_iff.mp he with he | ⟨hexcluded, he⟩
    · obtain ⟨regex, front, back, hl, hfront, hr⟩ := matchAny_error_iff.mp he
      exact ⟨regex, .excluded rfl hbefore hl hfront, hr⟩
    · obtain ⟨regex, front, back, hl, hfront, hr⟩ := matchAny_error_iff.mp he
      exact ⟨regex, .included rfl hbefore (matchAny_loop.ok_false_iff.mp hexcluded) hl hfront, hr⟩
  · rintro ⟨regex, hreach, hr⟩
    cases hreach with
    | excluded hrules hbefore hl hfront =>
      exact ⟨_, _, _, hrules, hbefore,
        matchRule_error_iff.mpr (.inl (matchAny_error_iff.mpr ⟨_, _, _, hl, hfront, hr⟩))⟩
    | included hrules hbefore hexcluded hl hfront =>
      exact ⟨_, _, _, hrules, hbefore, matchRule_error_iff.mpr
        (.inr ⟨matchAny_loop.ok_false_iff.mpr hexcluded, matchAny_error_iff.mpr ⟨_, _, _, hl, hfront, hr⟩⟩)⟩

section Meaning
variable (regexMatch) (path)

/-- How a string may be matched, as the configuration documents it. -/
inductive Matches : StringMatch → Prop
  | exact : Matches (.kExact path)
  | front {s : Bytes} : s <+: path → Matches (.kPrefix s)
  | back {s : Bytes} : s <:+ path → Matches (.kSuffix s)
  | regex {r : Bytes} : regexMatch r path = some true → Matches (.kRegex r)

/-- A rule is satisfied by a path that no excluded pattern matches and, if there are included ones,
one of them does. -/
structure Satisfies (rule : TriggerRule) : Prop where
  excluded : ∀ m ∈ rule.excludedPaths, ¬ Matches regexMatch path m
  included : rule.includedPaths = [] ∨ ∃ m ∈ rule.includedPaths, Matches regexMatch path m

/-- The paths on which the service is triggered. -/
def Selects (rules : List TriggerRule) : Prop :=
  path = [] ∨ rules = [] ∨ ∃ rule ∈ rules, Satisfies regexMatch path rule

/-- Every regular expression of a rule is one that the library accepts. -/
def ValidRule (regexMatch : RegexMatch) (rule : TriggerRule) : Prop :=
  ∀ r, .kRegex r ∈ rule.excludedPaths ++ rule.includedPaths → ∀ str, ∃ b, regexMatch r str = some b

end Meaning

theorem matches_kExact {s : Bytes} : Matches regexMatch path (.kExact s) ↔ s = path := by
  constructor
  · intro h
    cases h
    rfl
  · rintro rfl
    exact .exact

private theorem matchString_true_iff {m : StringMatch} :
    matchString regexMatch path m = .ok true ↔ Matches regexMatch path m := by
  constructor
  · intro h
    cases m with
    | notSet => cases h
    | kExact s =>
      obtain rfl : s = path := by simpa [matchString] using h
      exact .exact
    | kPrefix s => exact .front (List.isPrefixOf_iff_prefix.mp (Except.ok.inj h))
    | kSuffix s => exact .back (List.isSuffixOf_iff_suffix.mp (Except.ok.inj h))
    | kRegex r =>
      simp only [matchString] at h
      split at h
      · rename_i b hb
        exact .regex (hb.trans (congrArg some (Except.ok.inj h)))
      · cases h
  · intro h
    cases h with
    | exact => simp [matchString]
    | front hs => exact congrArg Except.ok (List.isPrefixOf_iff_prefix.mpr hs)
    | back hs => exact congrArg Except.ok (List.isSuffixOf_iff_suffix.mpr hs)
    | regex hr => simp [matchString, hr]

private theorem exists_matchString {patterns : List StringMatch}
    (h : ∀ r, .kRegex r ∈ patterns → ∀ str, ∃ b, regexMatch r str = some b) :
    ∀ m ∈ patterns, ∃ b, matchString regexMatch path m = .ok b := by
  intro m hm
  cases m with
  | notSet => exact ⟨_, rfl⟩
  | kExact s => exact ⟨_, rfl⟩
  | kPrefix s => exact ⟨_, rfl⟩
  | kSuffix s => exact ⟨_, rfl⟩
  | kRegex r =>
    obtain ⟨b, hb⟩ := h r hm path
    exact ⟨b, by simp [matchString, hb]⟩

private theorem matchAny_true_iff {patterns : List StringMatch}
    (h : ∀ m ∈ patterns, ∃ b, matchString regexMatch path m = .ok b) :
    matchAny regexMatch path patterns = .ok true ↔ ∃ m ∈ patterns, Matches regexMatch path m := by
  simp only [matchAny_loop.ok_true_iff h, matchString_true_iff]

private theorem matchRule_of_valid {rule : TriggerRule} (h : ValidRule regexMatch rule) :
    (∃ b, matchRule regexMatch path rule = .ok b) ∧
      (matchRule regexMatch path rule = .ok true ↔ Satisfies regexMatch path rule) := by
  have hex : ∀ m ∈ rule.excludedPaths, ∃ b, matchString regexMatch path m = .ok b :=
    exists_matchString fun r hr => h r (List.mem_append_left _ hr)
  have hin : ∀ m ∈ rule.includedPaths, ∃ b, matchString regexMatch path m = .ok b :=
    exists_matchString fun r hr => h r (List.mem_append_right _ hr)
  have hexTrue := matchAny_true_iff hex
  have hinTrue := matchAny_true_iff hin
  obtain ⟨b, hb⟩ := matchAny_loop.exists_ok hex
  obtain ⟨b', hb'⟩ := matchAny_loop.exists_ok hin
  unfold matchRule
  rw [hb] at hexTrue ⊢
  cases b with
  | true =>
    obtain ⟨m, hm, hmatch⟩ := hexTrue.mp rfl
    refine ⟨⟨false, rfl⟩, iff_of_false (by simp [bind, Except.bind, pure, Except.pure]) fun hs => ?_⟩
    exact hs.excluded m hm hmatch
  | false =>
    have hnone : ∀ m ∈ rule.excludedPaths, ¬ Matches regexMatch path m := by
      intro m hm hmatch
      cases hexTrue.mpr ⟨m, hm, hmatch⟩
    cases hi : rule.includedPaths with
    | nil => exact ⟨⟨true, rfl⟩, iff_of_true rfl ⟨hnone, .inl hi⟩⟩
    | cons m ms =>
      rw [hi] at hinTrue hb'
      refine ⟨⟨b', hb'⟩, hinTrue.trans ⟨fun hm => ⟨hnone, .inr (hi ▸ hm)⟩, fun hs => ?_⟩⟩
      rcases hs.included with hnil | hm
      · cases hi.symm.trans hnil
      · rwa [hi] at hm

/-- With valid regular expressions the three nested loops decide what the configuration documents. -/
theorem triggerRuleMatchesPath_of_valid {rules : List TriggerRule} (h : ∀ rule ∈ rules, ValidRule regexMatch rule) :
    (∃ b, triggerRuleMatchesPath regexMatch path rules = .ok b) ∧
      (triggerRuleMatchesPath regexMatch path rules = .ok true ↔ Selects regexMatch path rules) := by
  have hrules : ∀ rule ∈ rules, ∃ b, matchRule regexMatch path rule = .ok b :=
    fun rule hr => (matchRule_of_valid (h rule hr)).1
  unfold triggerRuleMatchesPath Selects
  by_cases hempty : path = [] ∨ rules.length = 0
  · rw [if_pos hempty]
    refine ⟨⟨true, rfl⟩, iff_of_true rfl ?_⟩
    exact hempty.imp_right fun hl => .inl (List.eq_nil_of_length_eq_zero hl)
  · rw [if_neg hempty]
    obtain ⟨hpath, hlength⟩ := not_or.mp hempty
    have hne : rules ≠ [] := by
      rintro rfl
      exact hlength rfl
    refine ⟨matchAnyRule_loop.exists_ok hrules, ?_⟩
    rw [matchAnyRule_loop.ok_true_iff hrules, or_iff_right hpath, or_iff_right hne]
    exact exists_congr fun rule => and_congr_right fun hr => (matchRule_of_valid (h rule hr)).2

section Order

def SamePatterns (rule rule' : TriggerRule) : Prop :=
  rule.excludedPaths.Perm rule'.excludedPaths ∧ rule.includedPaths.Perm rule'.includedPaths

/-- The same rules in another order, and in each the same patterns in another order. -/
inductive Reordered (rules rules' : List TriggerRule) : Prop
  | intro {middle : List TriggerRule} : rules.Perm middle → List.Forall₂ SamePatterns middle rules' →
      Reordered rules rules'

variable {rules rules' : List TriggerRule}

private theorem satisfies_congr {rule rule' : TriggerRule} (h : SamePatterns rule rule') :
    Satisfies regexMatch path rule ↔ Satisfies regexMatch path rule' := by
  have hnil : rule.includedPaths = [] ↔ rule'.includedPaths = [] := by
    rw [← List.length_eq_zero_iff, h.2.length_eq, List.length_eq_zero_iff]
  constructor
  · rintro ⟨hex, hin⟩
    refine ⟨fun m hm => hex m (h.1.mem_iff.mpr hm), hin.imp hnil.mp ?_⟩
    exact fun ⟨m, hm, hmatch⟩ => ⟨m, h.2.mem_iff.mp hm, hmatch⟩
  · rintro ⟨hex, hin⟩
    refine ⟨fun m hm => hex m (h.1.mem_iff.mp hm), hin.imp hnil.mpr ?_⟩
    exact fun ⟨m, hm, hmatch⟩ => ⟨m, h.2.mem_iff.mpr hm, hmatch⟩

private theorem exists_satisfies_congr (h : List.Forall₂ SamePatterns rules rules') :
    (∃ rule ∈ rules, Satisfies regexMatch path rule) ↔ ∃ rule ∈ rules', Satisfies regexMatch path rule := by
  induction h with
  | nil => rfl
  | cons hrule _ ih => rw [List.exists_mem_cons_iff, List.exists_mem_cons_iff, satisfies_congr hrule, ih]

theorem selects_reordered (h : Reordered rules rules') :
    Selects regexMatch path rules ↔ Selects regexMatch path rules' := by
  obtain ⟨hperm, hsame⟩ := h
  have hlength : rules.length = rules'.length := hperm.length_eq.trans hsame.length_eq
  have hnil : rules = [] ↔ rules' = [] := by
    rw [← List.length_eq_zero_iff, hlength, List.length_eq_zero_iff]
  simp only [Selects, hnil, ← exists_satisfies_congr hsame, hperm.mem_iff]

/-- One more rule selects no fewer paths, unless there was none. -/
theorem selects_insert {front back : List TriggerRule} (hne : front ++ back ≠ []) (rule : TriggerRule)
    (h : Selects regexMatch path (front ++ back)) : Selects regexMatch path (front ++ rule :: back) := by
  rcases h with hpath | hnil | ⟨r, hr, hs⟩
  · exact .inl hpath
  · exact absurd hnil hne
  · refine .inr (.inr ⟨r, ?_, hs⟩)
    rcases List.mem_append.mp hr with hr | hr
    · exact List.mem_append_left _ hr
    · exact List.mem_append_right _ (List.mem_cons_of_mem _ hr)

end Order
end TriggerRules
end AuthService.Common.Utilities
