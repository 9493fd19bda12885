import Mathlib.Logic.Function.Basic
import Mathlib.Data.List.Basic

/-! Interaction programs: trees of typed calls, with environment readings that are
not scheduling points. One tree has a sequential and an interleaved reading. -/
namespace AuthService.Lib

/-- A call names an operation and continues on its result; a read continues on the
environment value of the segment between two calls. -/
inductive Program (E : Type) {Op : Type} (Res : Op → Type) (α : Type) where
  | pure : α → Program E Res α
  | read : (E → Program E Res α) → Program E Res α
  | call : (o : Op) → (Res o → Program E Res α) → Program E Res α

namespace Program
variable {E Op σ α β : Type} {Res : Op → Type}

def bind : Program E Res α → (α → Program E Res β) → Program E Res β
  | .pure a, f => f a
  | .read k, f => .read (fun e => (k e).bind f)
  | .call o k, f => .call o (fun r => (k r).bind f)

instance : Monad (Program E Res) where
  pure := .pure
  bind := .bind

@[simp] theorem pure_def (a : α) : (Pure.pure a : Program E Res α) = .pure a := rfl
@[simp] theorem pure_bind (a : α) (f : α → Program E Res β) : (Program.pure a >>= f) = f a := rfl
@[simp] theorem read_bind (k : E → Program E Res α) (f : α → Program E Res β) :
    (Program.read k >>= f) = .read (fun e => k e >>= f) := rfl
@[simp] theorem call_bind (o : Op) (k : Res o → Program E Res α) (f : α → Program E Res β) :
    (Program.call o k >>= f) = .call o (fun r => k r >>= f) := rfl

@[simp] theorem map_pure (f : α → β) (a : α) : f <$> (Program.pure a : Program E Res α) = .pure (f a) := rfl
@[simp] theorem map_read (f : α → β) (k : E → Program E Res α) :
    f <$> Program.read k = .read (fun e => f <$> k e) := rfl
@[simp] theorem map_call (f : α → β) (o : Op) (k : Res o → Program E Res α) :
    f <$> Program.call o k = .call o (fun r => f <$> k r) := rfl

theorem map_bind {γ : Type} (f : β → γ) (p : Program E Res α) (g : α → Program E Res β) :
    f <$> (p >>= g) = p >>= fun a => f <$> g a := by
  induction p with
  | pure a => rfl
  | read k ih => simp only [read_bind, map_read, ih]
  | call o k ih => simp only [call_bind, map_call, ih]

/-- Read the environment. -/
def env : Program E Res E := .read .pure

/-- Perform one operation. -/
def perform (o : Op) : Program E Res (Res o) := .call o .pure

@[simp] theorem env_bind (f : E → Program E Res β) : (env >>= f) = .read f := rfl
@[simp] theorem perform_bind (o : Op) (f : Res o → Program E Res β) : (perform o >>= f) = .call o f := rfl

/-- Sequential meaning under one environment value and a handler for the calls. -/
def run (e : E) (handler : (o : Op) → σ → Res o × σ) : Program E Res α → σ → α × σ
  | .pure a, s => (a, s)
  | .read k, s => (k e).run e handler s
  | .call o k, s => (k (handler o s).1).run e handler (handler o s).2

variable {e : E} {handler : (o : Op) → σ → Res o × σ}

@[simp] theorem run_pure (a : α) (s : σ) : (Program.pure a : Program E Res α).run e handler s = (a, s) := rfl
@[simp] theorem run_read (k : E → Program E Res α) (s : σ) :
    (Program.read k).run e handler s = (k e).run e handler s := rfl
@[simp] theorem run_call (o : Op) (k : Res o → Program E Res α) (s : σ) :
    (Program.call o k).run e handler s = (k (handler o s).1).run e handler (handler o s).2 := rfl

@[simp] theorem run_bind (p : Program E Res α) (f : α → Program E Res β) (s : σ) :
    (p >>= f).run e handler s =
      (f (p.run e handler s).1).run e handler (p.run e handler s).2 := by
  induction p generalizing s with
  | pure a => rfl
  | read k ih => exact ih e s
  | call o k ih => exact ih _ _

@[simp] theorem run_map (f : α → β) (p : Program E Res α) (s : σ) :
    (f <$> p).run e handler s = (f (p.run e handler s).1, (p.run e handler s).2) :=
  run_bind p (Pure.pure ∘ f) s

/-- A program that works on one component of a family of states leaves the others as they are. -/
theorem run_component {ι : Type} [DecidableEq ι] (i : ι) (p : Program E Res α) (family : ι → σ) :
    p.run e (fun o family => ((handler o (family i)).1, Function.update family i (handler o (family i)).2)) family =
      ((p.run e handler (family i)).1, Function.update family i (p.run e handler (family i)).2) := by
  induction p generalizing family with
  | pure a => simp
  | read k ih => exact ih e family
  | call o k ih =>
    rw [run_call, ih]
    simp

/-- A performed call: its result and the environment of the segment that it opens. -/
structure Called (E : Type) {Op : Type} (Res : Op → Type) where
  op : Op
  res : Res op
  env : E

/-- A program follows a protocol: each call is one that its log of earlier calls, newest first,
permits, and so is the value it ends with. -/
def Follows (issues : List (Called E Res) → Op → Prop) (ends : E → List (Called E Res) → α → Prop) :
    E → List (Called E Res) → Program E Res α → Prop
  | e, log, .pure a => ends e log a
  | e, log, .read k => (k e).Follows issues ends e log
  | _, log, .call o k => issues log o ∧ ∀ r e, (k r).Follows issues ends e (⟨o, r, e⟩ :: log)

variable {issues : List (Called E Res) → Op → Prop} {ends : E → List (Called E Res) → α → Prop}
variable {log : List (Called E Res)}

@[simp] theorem follows_pure (a : α) : (Program.pure a).Follows issues ends e log ↔ ends e log a := Iff.rfl
@[simp] theorem follows_read (k : E → Program E Res α) :
    (Program.read k).Follows issues ends e log ↔ (k e).Follows issues ends e log := Iff.rfl
@[simp] theorem follows_call (o : Op) (k : Res o → Program E Res α) :
    (Program.call o k).Follows issues ends e log ↔
      issues log o ∧ ∀ r e, (k r).Follows issues ends e (⟨o, r, e⟩ :: log) := Iff.rfl

/-- A protocol may be weakened. -/
theorem Follows.mono {ends' : E → List (Called E Res) → α → Prop} {p : Program E Res α}
    (hp : p.Follows issues ends e log) (hends : ∀ e log a, ends e log a → ends' e log a) :
    p.Follows issues ends' e log := by
  induction p generalizing e log with
  | pure a => exact hends e log a hp
  | read k ih => exact ih e hp
  | call o k ih => exact ⟨hp.1, fun r e => ih r (hp.2 r e)⟩

/-- Sequencing: what the first part may end with is what the second part starts from. -/
theorem Follows.bind {mid : E → List (Called E Res) → β → Prop} {p : Program E Res β} {f : β → Program E Res α}
    (hp : p.Follows issues mid e log) (hf : ∀ e log b, mid e log b → (f b).Follows issues ends e log) :
    (p >>= f).Follows issues ends e log := by
  induction p generalizing e log with
  | pure b => exact hf e log b hp
  | read k ih => exact ih e hp
  | call o k ih => exact ⟨hp.1, fun r e => ih r (hp.2 r e)⟩

/-- Resolve the readings that stand before the next call. -/
def settle (e : E) : Program E Res α → Program E Res α
  | .pure a => .pure a
  | .read k => (k e).settle e
  | .call o k => .call o k

theorem settle_settle (p : Program E Res α) (e e' : E) : (p.settle e).settle e' = p.settle e := by
  induction p with
  | pure a => rfl
  | read k ih => exact ih e
  | call o k _ => rfl

theorem Follows.settle {p : Program E Res α} (hp : p.Follows issues ends e log) :
    (p.settle e).Follows issues ends e log := by
  induction p with
  | pure a => exact hp
  | read k ih => exact ih e hp
  | call o k _ => exact hp

/-- A log whose results a handler gave, one call after the other. -/
def Executes (e : E) (handler : (o : Op) → σ → Res o × σ) (s : σ) : List (Called E Res) → σ → Prop
  | [], s' => s' = s
  | c :: log, s' => ∃ s₁, Executes e handler s log s₁ ∧ c.res = (handler c.op s₁).1 ∧ c.env = e ∧
      s' = (handler c.op s₁).2

@[simp] theorem executes_nil {s s' : σ} : Executes e handler s ([] : List (Called E Res)) s' ↔ s' = s := Iff.rfl
@[simp] theorem executes_cons {s s' : σ} {c : Called E Res} :
    Executes e handler s (c :: log) s' ↔ ∃ s₁, Executes e handler s log s₁ ∧ c.res = (handler c.op s₁).1 ∧
      c.env = e ∧ s' = (handler c.op s₁).2 := Iff.rfl

/-- A program that follows a protocol ends as the protocol permits after the calls of its run. -/
theorem Follows.run {p : Program E Res α} {s s' : σ} (hp : p.Follows issues ends e log)
    (hx : Executes e handler s log s') :
    ∃ log', Executes e handler s log' (p.run e handler s').2 ∧ ends e log' (p.run e handler s').1 := by
  induction p generalizing log s' with
  | pure a => exact ⟨log, hx, hp⟩
  | read k ih => exact ih e hp hx
  | call o k ih => exact ih _ (hp.2 _ e) ⟨s', hx, rfl, rfl, rfl⟩

theorem Executes.result {s s' : σ} {c : Called E Res} (hx : Executes e handler s log s') (hc : c ∈ log) :
    ∃ s₁, c.res = (handler c.op s₁).1 ∧ c.env = e := by
  induction log generalizing s' with
  | nil => cases hc
  | cons d log ih =>
    obtain ⟨s₁, hx, hres, henv, _⟩ := hx
    rcases List.mem_cons.mp hc with rfl | hin
    · exact ⟨s₁, hres, henv⟩
    · exact ih hx hin

/-- The log of a run, continuing the log of the calls before it. -/
def calls (e : E) (handler : (o : Op) → σ → Res o × σ) :
    Program E Res α → σ → List (Called E Res) → List (Called E Res)
  | .pure _, _, log => log
  | .read k, s, log => (k e).calls e handler s log
  | .call o k, s, log => (k (handler o s).1).calls e handler (handler o s).2 (⟨o, (handler o s).1, e⟩ :: log)

@[simp] theorem calls_pure (a : α) (s : σ) : (Program.pure a : Program E Res α).calls e handler s log = log := rfl
@[simp] theorem calls_call (o : Op) (k : Res o → Program E Res α) (s : σ) : (Program.call o k).calls e handler s log =
    (k (handler o s).1).calls e handler (handler o s).2 (⟨o, (handler o s).1, e⟩ :: log) := rfl

@[simp] theorem calls_bind (p : Program E Res α) (f : α → Program E Res β) (s : σ) :
    (p >>= f).calls e handler s log =
      (f (p.run e handler s).1).calls e handler (p.run e handler s).2 (p.calls e handler s log) := by
  induction p generalizing s log with
  | pure a => rfl
  | read k ih => exact ih e s
  | call o k ih => exact ih _ _

/-- A run adds its calls to the log that it finds. -/
theorem calls_append (p : Program E Res α) (s : σ) (log : List (Called E Res)) :
    p.calls e handler s log = p.calls e handler s [] ++ log := by
  induction p generalizing s log with
  | pure a => rfl
  | read k ih => exact ih e s log
  | call o k ih => rw [calls_call, ih, calls_call, ih _ _ [_], List.append_assoc, List.singleton_append]

/-- On one component of a family of states a program makes the calls that it makes on that component alone. -/
theorem calls_component {ι : Type} [DecidableEq ι] (i : ι) (p : Program E Res α) (family : ι → σ) :
    p.calls e (fun o family => ((handler o (family i)).1, Function.update family i (handler o (family i)).2)) family
      log = p.calls e handler (family i) log := by
  induction p generalizing family log with
  | pure a => rfl
  | read k ih => exact ih e family
  | call o k ih =>
    rw [calls_call, ih]
    simp

/-- A program that follows a protocol ends as the protocol permits after the log of its run. -/
theorem Follows.run_ends {p : Program E Res α} {s : σ} (hp : p.Follows issues ends e log) :
    ends e (p.calls e handler s log) (p.run e handler s).1 := by
  induction p generalizing log s with
  | pure a => exact hp
  | read k ih => exact ih e hp
  | call o k ih => exact ih _ (hp.2 _ e)

/-- The log of a run holds what the handler answered. -/
theorem result_of_mem_calls {p : Program E Res α} {s : σ} {c : Called E Res}
    (hc : c ∈ p.calls e handler s log) : c ∈ log ∨ ∃ s', c.res = (handler c.op s').1 ∧ c.env = e := by
  induction p generalizing log s with
  | pure a => exact .inl hc
  | read k ih => exact ih e hc
  | call o k ih =>
    rcases ih _ hc with hc | hc
    · rcases List.mem_cons.mp hc with rfl | hc
      · exact .inr ⟨s, rfl, rfl⟩
      · exact .inl hc
    · exact .inr hc

/-- The latest answer that a log holds for an operation. -/
def answered [DecidableEq Op] (log : List (Called E Res)) (o : Op) : Option (Res o) :=
  log.findSome? fun c => if h : c.op = o then some (h ▸ c.res) else none

@[simp] theorem answered_nil [DecidableEq Op] (o : Op) : answered ([] : List (Called E Res)) o = none := rfl

@[simp] theorem answered_cons_self [DecidableEq Op] (o : Op) (r : Res o) :
    answered (⟨o, r, e⟩ :: log) o = some r := by
  simp [answered]

theorem answered_cons_of_ne [DecidableEq Op] {o o' : Op} {r : Res o'} (h : o' ≠ o) :
    answered (⟨o', r, e⟩ :: log) o = answered log o := by
  simp [answered, h]

/-- One-run rule: what every permitted call preserves, a run preserves. -/
theorem Follows.run_keeps {p : Program E Res α} {s s' : σ} (hp : p.Follows issues ends e log)
    (hx : Executes e handler s log s') (I : List (Called E Res) → σ → Prop)
    (hstep : ∀ log o s', Executes e handler s log s' → issues log o → I log s' →
      I (⟨o, (handler o s').1, e⟩ :: log) (handler o s').2) (hi : I log s') :
    I (p.calls e handler s' log) (p.run e handler s').2 := by
  induction p generalizing log s' with
  | pure a => exact hi
  | read k ih => exact ih e hp hx hi
  | call o k ih => exact ih _ (hp.2 _ e) ⟨s', hx, rfl, rfl, rfl⟩ (hstep log o s' hx hp.1 hi)

/-- Every call of a run was permitted by the calls before it. -/
theorem Follows.issued {p : Program E Res α} {s : σ} (hp : p.Follows issues ends e []) {c : Called E Res}
    (newer : List (Called E Res)) {older : List (Called E Res)} (hl : p.calls e handler s [] = newer ++ c :: older) :
    issues older c.op := by
  refine hp.run_keeps (executes_nil.mpr rfl)
    (fun log _ => ∀ newer c older, log = newer ++ c :: older → issues older c.op) ?_ (by simp) newer c older hl
  intro log o s' _ ho ih newer c older hl
  cases newer with
  | nil =>
    obtain ⟨rfl, rfl⟩ := List.cons.inj hl
    exact ho
  | cons _ newer => exact ih newer c older (List.cons.inj hl).2

/-- Two-run rule: a relation that every permitted call preserves, with equal results, gives equal
outcomes from related states. -/
theorem Follows.run_rel {p : Program E Res α} {s s' : σ} (hp : p.Follows issues ends e log) (R : σ → σ → Prop)
    (hstep : ∀ log o s s', issues log o → R s s' →
      (handler o s).1 = (handler o s').1 ∧ R (handler o s).2 (handler o s').2) (hr : R s s') :
    (p.run e handler s).1 = (p.run e handler s').1 := by
  induction p generalizing log s s' with
  | pure a => rfl
  | read k ih => exact ih e hp hr
  | call o k ih =>
    obtain ⟨hres, hr⟩ := hstep log o s s' hp.1 hr
    simp only [run_call, ← hres]
    exact ih _ (hp.2 _ e) hr

end Program
end AuthService.Lib
