import Mathlib.Init

/-! Machines that take one action after another. -/
namespace AuthService.Lib

variable {σ α : Type} (step : σ → α → Option σ) (start : σ)

/-- The state after a history of actions, the newest first; none when one of them was not possible. -/
def after : List α → Option σ
  | [] => some start
  | a :: h => (after h).bind (step · a)

variable {step start}

/-- The rule for properties of histories and the states they lead to. -/
theorem after_invariant {P : List α → σ → Prop} (hstart : P [] start)
    (hstep : ∀ h s a s', P h s → step s a = some s' → P (a :: h) s') {h : List α} {s : σ}
    (hs : after step start h = some s) : P h s := by
  induction h generalizing s with
  | nil =>
    obtain rfl : start = s := Option.some.inj hs
    exact hstart
  | cons a h ih =>
    obtain ⟨s₀, hs₀, ha⟩ := Option.bind_eq_some_iff.mp hs
    exact hstep h s₀ a s (ih hs₀) ha

section Purge
variable {σ α β : Type} (next : σ → α → σ) (output : σ → α → β) (concerns : α → Bool)

/-- The outputs for the actions that concern an observer, the first action first. -/
def observed : σ → List α → List β
  | _, [] => []
  | s, a :: actions =>
    if concerns a then output s a :: observed (next s a) actions else observed (next s a) actions

/-- States that look alike to the observer stay alike, also when only one of them meets an action that does not
concern it. -/
structure Unwinding (alike : σ → σ → Prop) : Prop where
  output_eq : ∀ {s t a}, alike s t → concerns a = true → output s a = output t a
  both : ∀ {s t a}, alike s t → concerns a = true → alike (next s a) (next t a)
  other : ∀ {s t a}, alike s t → concerns a = false → alike (next s a) t

variable {next output concerns}

/-- The actions that do not concern the observer can be left out. -/
theorem Unwinding.purge {alike : σ → σ → Prop} (hu : Unwinding next output concerns alike) {s t : σ} (h : alike s t)
    (actions : List α) :
    observed next output concerns s actions = observed next output concerns t (actions.filter concerns) ∧
      alike (actions.foldl next s) ((actions.filter concerns).foldl next t) := by
  induction actions generalizing s t with
  | nil => exact ⟨rfl, h⟩
  | cons a actions ih =>
    cases ha : concerns a with
    | true =>
      obtain ⟨hobserved, halike⟩ := ih (hu.both h ha)
      simp only [observed, ha, if_true, List.filter_cons_of_pos, List.foldl_cons, hobserved, hu.output_eq h ha]
      exact ⟨trivial, halike⟩
    | false =>
      simpa [observed, ha] using ih (hu.other h ha)

end Purge

end AuthService.Lib
