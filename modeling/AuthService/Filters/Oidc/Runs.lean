import AuthService.Filters.Oidc.Execution
import AuthService.Filters.Oidc.Protocol
import AuthService.Lib.Interleaving

/-! Any number of requests over the session stores of all filter chains, interleaved call by
call, with clean-ups between; and the rule for what the stores hold. -/
namespace AuthService.Filters.Oidc
open Lib Common.Http Config OidcFilter

structure Job (C : Type) where
  chain : C
  request : CheckRequest
  deriving DecidableEq

/-- A clean-up of one chain's store, with its two clock readings. -/
structure Cleanup (C : Type) where
  chain : C
  nowAdded : Int
  nowIdle : Int

abbrev Moment (C : Type) := Event Nat (Job C) (Cleanup C) Int Op.Res
abbrev History (C : Type) := List (Moment C)
abbrev Stores (C : Type) := C → InMemorySessionStore
abbrev Requests (C : Type) := Pool Nat (Job C) Int Op.Res (Stores C) Outcome

variable {C : Type} [DecidableEq C]

/-- Every chain has its own configuration and its own store, empty at the start. -/
def service (lib : Libraries) (cfg : C → OIDCConfig) :
    System Nat (Job C) (Cleanup C) Int External Op.Res (Stores C) Outcome where
  program j := process (cfg j.chain) lib j.request .empty
  exec j now x o stores :=
    ((o.exec now x (stores j.chain)).1, Function.update stores j.chain (o.exec now x (stores j.chain)).2)
  tick u stores := Function.update stores u.chain ((stores u.chain).removeAllExpired u.nowAdded u.nowIdle)
  init c := .create (cfg c).absoluteSessionTimeout (cfg c).idleSessionTimeout

variable {lib : Libraries} {cfg : C → OIDCConfig} {stores : Stores C} {h : History C} {p : Requests C}
variable {cond : History C → Stores C → Moment C → Prop}

theorem service_follows (lib : Libraries) (cfg : C → OIDCConfig) (j : Job C) (e : Int) :
    ((service lib cfg).program j).Follows (Issues lib (cfg j.chain) j.request) (Ends lib (cfg j.chain) j.request)
      e [] :=
  process_follows lib (cfg j.chain) j.request e

/-- An answered request has come to an end its protocol permits. -/
theorem ends_of_answered {i : Nat} {j : Job C} {outcome : Outcome} (hr : (service lib cfg).Run cond h p)
    (ht : p.answer? i = some (j, outcome)) :
    System.Owns h i j ∧ ∃ e, Ends lib (cfg j.chain) j.request e (System.log i h) outcome :=
  (hr.onTrack (service_follows lib cfg)).running (Pool.answer?_eq_some.mp ht)

/-- A read returns what the store holds. -/
theorem tokens_of_step {a : Action Nat (Job C) (Cleanup C) Int External} {i : Nat} {j : Job C} {s : Bytes}
    {r : Option TokenResponse} {e : Int} {p' : Requests C}
    (hs : (service lib cfg).step p a = some (.call i j (.getTokenResponse s) r e, p')) :
    (p.shared j.chain).tokens (cStr s) = r := by
  rcases System.step_cases hs with ⟨_, _, _, _, hev, _⟩ | ⟨i', j', o, k, x, e', _, hev, _⟩ | ⟨_, hev, _⟩
  · cases hev
  · obtain ⟨rfl, rfl, rfl, hres, rfl⟩ := Event.call.inj hev
    exact Op.exec_getTokenResponse.symm.trans (eq_of_heq hres).symm
  · cases hev

section Steps
variable {j : Job C} {now : Int} {x : External} {o : Op} {u : Cleanup C} {c : C} {key : Bytes}

theorem tokens_call {t : TokenResponse}
    (ht : (((service lib cfg).exec j now x o stores).2 c).tokens key = some t) :
    (stores c).tokens key = some t ∨ j.chain = c ∧ ∃ s, o = .setTokenResponse s t ∧ cStr s = key := by
  by_cases hc : c = j.chain
  · subst hc
    simp only [service, Function.update_self] at ht
    exact (Op.exec_tokens ht).imp_right fun hs => ⟨rfl, hs⟩
  · simp only [service, Function.update_of_ne hc] at ht
    exact .inl ht

theorem pending_call {a : AuthorizationState}
    (ha : (((service lib cfg).exec j now x o stores).2 c).pending key = some a) :
    (stores c).pending key = some a ∨ j.chain = c ∧ ∃ s, o = .setAuthorizationState s a ∧ cStr s = key := by
  by_cases hc : c = j.chain
  · subst hc
    simp only [service, Function.update_self] at ha
    exact (Op.exec_pending ha).imp_right fun hs => ⟨rfl, hs⟩
  · simp only [service, Function.update_of_ne hc] at ha
    exact .inl ha

theorem hasKey_call (hk : (((service lib cfg).exec j now x o stores).2 c).HasKey key) :
    (stores c).HasKey key ∨ j.chain = c ∧ ((∃ s t, o = .setTokenResponse s t ∧ cStr s = key) ∨
      ∃ s a, o = .setAuthorizationState s a ∧ cStr s = key) := by
  by_cases hc : c = j.chain
  · subst hc
    simp only [service, Function.update_self] at hk
    exact (Op.exec_hasKey hk).imp_right fun hs => ⟨rfl, hs⟩
  · simp only [service, Function.update_of_ne hc] at hk
    exact .inl hk

theorem tokens_tick {t : TokenResponse} (ht : (((service lib cfg).tick u stores) c).tokens key = some t) :
    (stores c).tokens key = some t := by
  by_cases hc : c = u.chain
  · subst hc
    simp only [service, Function.update_self] at ht
    exact InMemorySessionStore.tokens_removeAllExpired ht
  · simpa only [service, Function.update_of_ne hc] using ht

theorem pending_tick {a : AuthorizationState} (ha : (((service lib cfg).tick u stores) c).pending key = some a) :
    (stores c).pending key = some a := by
  by_cases hc : c = u.chain
  · subst hc
    simp only [service, Function.update_self] at ha
    exact InMemorySessionStore.pending_removeAllExpired ha
  · simpa only [service, Function.update_of_ne hc] using ha

theorem hasKey_tick (hk : (((service lib cfg).tick u stores) c).HasKey key) : (stores c).HasKey key := by
  by_cases hc : c = u.chain
  · subst hc
    simp only [service, Function.update_self] at hk
    exact InMemorySessionStore.hasKey_removeAllExpired hk
  · simpa only [service, Function.update_of_ne hc] using hk

end Steps

/-- Facts about every stored token response and authorization state, as the stores hold them and
as they were when a request read them. -/
structure Kept (P : History C → C → Bytes → TokenResponse → Prop)
    (Q : History C → C → Bytes → AuthorizationState → Prop) (h : History C) (stores : Stores C) : Prop where
  tokens : ∀ c key t, (stores c).tokens key = some t → P h c key t
  pending : ∀ c key a, (stores c).pending key = some a → Q h c key a
  keys : ∀ c key, (stores c).HasKey key → (∃ t, P h c key t) ∨ ∃ a, Q h c key a
  written : ∀ i j s t e, .call i j (.setTokenResponse s t) () e ∈ h → P h j.chain (cStr s) t
  readTokens : ∀ h₂ h₁ i j s t e, h = h₂ ++ .call i j (.getTokenResponse s) (some t) e :: h₁ →
    P h₁ j.chain (cStr s) t
  readState : ∀ h₂ h₁ i j s a e, h = h₂ ++ .call i j (.getAuthorizationState s) (some a) e :: h₁ →
    Q h₁ j.chain (cStr s) a

section Rule
variable {P : History C → C → Bytes → TokenResponse → Prop} {Q : History C → C → Bytes → AuthorizationState → Prop}

omit [DecidableEq C] in
private theorem Kept.step {stores' : Stores C} {ev : Moment C}
    (hP : ∀ ev h c key t, P h c key t → P (ev :: h) c key t)
    (hQ : ∀ ev h c key a, Q h c key a → Q (ev :: h) c key a)
    (hk : Kept P Q h stores)
    (htokens : ∀ c key t, (stores' c).tokens key = some t → (stores c).tokens key = some t ∨ P (ev :: h) c key t)
    (hpending : ∀ c key a, (stores' c).pending key = some a → (stores c).pending key = some a ∨ Q (ev :: h) c key a)
    (hkeys : ∀ c key, (stores' c).HasKey key →
      (stores c).HasKey key ∨ (∃ t, P (ev :: h) c key t) ∨ ∃ a, Q (ev :: h) c key a)
    (hwritten : ∀ i j s t e, ev = .call i j (.setTokenResponse s t) () e → P (ev :: h) j.chain (cStr s) t)
    (hreadT : ∀ i j s t e, ev = .call i j (.getTokenResponse s) (some t) e → (stores j.chain).tokens (cStr s) = some t)
    (hreadA : ∀ i j s a e, ev = .call i j (.getAuthorizationState s) (some a) e →
      (stores j.chain).pending (cStr s) = some a) :
    Kept P Q (ev :: h) stores' where
  tokens c key t ht := (htokens c key t ht).elim (fun ht => hP _ _ _ _ _ (hk.tokens c key t ht)) id
  pending c key a ha := (hpending c key a ha).elim (fun ha => hQ _ _ _ _ _ (hk.pending c key a ha)) id
  keys c key hc := by
    rcases hkeys c key hc with hc | hc
    · exact (hk.keys c key hc).imp (fun ⟨t, ht⟩ => ⟨t, hP _ _ _ _ _ ht⟩) (fun ⟨a, ha⟩ => ⟨a, hQ _ _ _ _ _ ha⟩)
    · exact hc
  written i j s t e hm := by
    rcases List.mem_cons.mp hm with hev | hm
    · exact hwritten i j s t e hev.symm
    · exact hP _ _ _ _ _ (hk.written i j s t e hm)
  readTokens h₂ h₁ i j s t e he := by
    cases h₂ with
    | nil =>
      obtain ⟨rfl, rfl⟩ := List.cons.inj he
      exact hk.tokens _ _ _ (hreadT i j s t e rfl)
    | cons ev' h₂ => exact hk.readTokens h₂ h₁ i j s t e (List.cons.inj he).2
  readState h₂ h₁ i j s a e he := by
    cases h₂ with
    | nil =>
      obtain ⟨rfl, rfl⟩ := List.cons.inj he
      exact hk.pending _ _ _ (hreadA i j s a e rfl)
    | cons ev' h₂ => exact hk.readState h₂ h₁ i j s a e (List.cons.inj he).2

/-- The rule for store contents: facts that persist and that every permitted write establishes
hold of all that is ever stored or read. -/
theorem Run.kept (hP : ∀ ev h c key t, P h c key t → P (ev :: h) c key t)
    (hQ : ∀ ev h c key a, Q h c key a → Q (ev :: h) c key a)
    (hwriteT : ∀ i j s t e h stores, Kept P Q h stores → System.Owns h i j →
      Issues lib (cfg j.chain) j.request (System.log i h) (.setTokenResponse s t) →
      cond h stores (.call i j (.setTokenResponse s t) () e) →
      P (.call i j (.setTokenResponse s t) () e :: h) j.chain (cStr s) t)
    (hwriteA : ∀ i j s a e h stores, Kept P Q h stores → System.Owns h i j →
      Issues lib (cfg j.chain) j.request (System.log i h) (.setAuthorizationState s a) →
      Q (.call i j (.setAuthorizationState s a) () e :: h) j.chain (cStr s) a)
    (hr : (service lib cfg).Run cond h p) : Kept P Q h p.shared := by
  refine hr.invariant (Kept P Q) (service_follows lib cfg) ?_ ?_ ?_ ?_
  · refine ⟨?_, ?_, ?_, by simp, by simp, by simp⟩
    · intro c key t ht
      cases ht
    · intro c key a ha
      cases ha
    · intro c key hc
      cases hc
  · intro i j e h stores hk _
    exact hk.step hP hQ (fun _ _ _ ht => .inl ht) (fun _ _ _ ha => .inl ha) (fun _ _ hc => .inl hc)
      (by simp) (by simp) (by simp)
  · intro i j o e x h stores hk hw hi hc
    refine hk.step hP hQ ?_ ?_ ?_ ?_ ?_ ?_
    · intro c key t ht
      rcases tokens_call ht with ht | ⟨rfl, s, rfl, rfl⟩
      · exact .inl ht
      · exact .inr (hwriteT i j s t e h stores hk hw hi hc)
    · intro c key a ha
      rcases pending_call ha with ha | ⟨rfl, s, rfl, rfl⟩
      · exact .inl ha
      · exact .inr (hwriteA i j s a e h stores hk hw hi)
    · intro c key hkey
      rcases hasKey_call hkey with hkey | ⟨rfl, ⟨s, t, rfl, rfl⟩ | ⟨s, a, rfl, rfl⟩⟩
      · exact .inl hkey
      · exact .inr (.inl ⟨t, hwriteT i j s t e h stores hk hw hi hc⟩)
      · exact .inr (.inr ⟨a, hwriteA i j s a e h stores hk hw hi⟩)
    · intro i' j' s t e' he
      obtain ⟨rfl, rfl, rfl, _, rfl⟩ := Event.call.inj he
      exact hwriteT i j s t e h stores hk hw hi hc
    · intro i' j' s t e' he
      obtain ⟨rfl, rfl, rfl, hres, rfl⟩ := Event.call.inj he
      exact Op.exec_getTokenResponse.symm.trans (eq_of_heq hres)
    · intro i' j' s a e' he
      obtain ⟨rfl, rfl, rfl, hres, rfl⟩ := Event.call.inj he
      exact Op.exec_getAuthorizationState.symm.trans (eq_of_heq hres)
  · intro u h stores hk _
    exact hk.step hP hQ (fun _ _ _ ht => .inl (tokens_tick ht)) (fun _ _ _ ha => .inl (pending_tick ha))
      (fun _ _ hc => .inl (hasKey_tick hc)) (by simp) (by simp) (by simp)

end Rule
end AuthService.Filters.Oidc
