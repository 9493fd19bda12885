import Mathlib.Data.List.Basic
import Mathlib.Logic.Function.Basic

/-! Texts that spell a word letter by letter, where a letter may be written in several ways and one
of them is preferred: what a reader of all writings makes of the preferred ones. -/
namespace AuthService.Lib
variable {σ α : Type}

/-- A text made of one writing for each letter. -/
inductive Spells (write : σ → List α → Prop) : List σ → List α → Prop
  | nil : Spells write [] []
  | cons {c : σ} {s : List σ} {w t : List α} : write c w → Spells write s t → Spells write (c :: s) (w ++ t)

/-- A decoder that reads the texts that spell something, and nothing else. -/
def ReadsSpellings (write : σ → List α → Prop) (decode : List α → Option (List σ)) : Prop :=
  ∀ t s, decode t = some s ↔ Spells write s t

/-- One writing for each letter, none of whose other writings is shorter. -/
structure Preferred (write : σ → List α → Prop) (best : σ → List α) : Prop where
  writes : ∀ c, write c (best c)
  shortest : ∀ c w, write c w → (best c).length ≤ w.length

namespace Preferred
variable {write : σ → List α → Prop} {best : σ → List α} {decode : List α → Option (List σ)}
  {s : List σ} {t : List α}

theorem spells (hb : Preferred write best) (s : List σ) : Spells write s (s.flatMap best) := by
  induction s with
  | nil => exact .nil
  | cons c s ih => exact .cons (hb.writes c) ih

theorem decode_flatMap (hb : Preferred write best) (hr : ReadsSpellings write decode) (s : List σ) :
    decode (s.flatMap best) = some s :=
  (hr _ _).mpr (hb.spells s)

theorem flatMap_injective (hb : Preferred write best) (hr : ReadsSpellings write decode) :
    Function.Injective fun s : List σ => s.flatMap best := by
  intro s s' h
  have hs := hb.decode_flatMap hr s
  rw [show s.flatMap best = s'.flatMap best from h, hb.decode_flatMap hr s'] at hs
  exact (Option.some.inj hs).symm

/-- No text is shorter than the preferred spelling of what it spells. -/
theorem length_le (hb : Preferred write best) (h : Spells write s t) : (s.flatMap best).length ≤ t.length := by
  induction h with
  | nil => exact Nat.le_refl _
  | @cons c s w t hw _ ih =>
    have hc := hb.shortest c w hw
    rw [List.flatMap_cons, List.length_append, List.length_append]
    omega

end Preferred

/-- A function that replaces each writing by the preferred one gives the preferred spelling. -/
theorem Spells.normalized {write : σ → List α → Prop} {best : σ → List α} {normal : List α → List α}
    {s : List σ} {t : List α} (h : Spells write s t) (hnil : normal [] = [])
    (hcons : ∀ c w t, write c w → normal (w ++ t) = best c ++ normal t) : normal t = s.flatMap best := by
  induction h with
  | nil => exact hnil
  | cons hw _ ih => rw [hcons _ _ _ hw, ih, List.flatMap_cons]

end AuthService.Lib
