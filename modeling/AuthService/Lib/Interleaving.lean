import AuthService.Lib.Program

/-! Interleaved runs of interaction programs over one shared state, and the rule that
derives global invariants from the protocol each program follows on its own.
Histories are newest-first. -/
namespace AuthService.Lib

/-- What a run records: a program starting, one of its calls, or a step of nobody. -/
inductive Event (T J U E : Type) {Op : Type} (Res : Op → Type) where
  | spawn (t : T) (j : J) (e : E)
  | call (t : T) (j : J) (o : Op) (r : Res o) (e : E)
  | tick (u : U)

/-- Jobs name programs; external answers resolve what the shared state does not decide. -/
structure System (T J U E A : Type) {Op : Type} (Res : Op → Type) (σ α : Type) where
  program : J → Program E Res α
  exec : J → E → A → (o : Op) → σ → Res o × σ
  tick : U → σ → σ
  init : σ

inductive Action (T J U E A : Type) where
  | spawn (t : T) (j : J) (e : E)
  | call (t : T) (a : A) (e : E)
  | tick (u : U)

structure Pool (T J E : Type) {Op : Type} (Res : Op → Type) (σ α : Type) where
  shared : σ
  threads : T → Option (J × Program E Res α)

/-- What a thread ended with. -/
def Pool.answer? {T J E Op σ α : Type} {Res : Op → Type} (p : Pool T J E Res σ α) (t : T) : Option (J × α) :=
  match p.threads t with
  | some (j, .pure a) => some (j, a)
  | _ => none

theorem Pool.answer?_eq_some {T J E Op σ α : Type} {Res : Op → Type} {p : Pool T J E Res σ α} {t : T} {j : J} {a : α} :
    p.answer? t = some (j, a) ↔ p.threads t = some (j, .pure a) := by
  unfold answer?
  split
  · rename_i h
    simp [h]
  · rename_i h
    simpa using h j a

namespace System
variable {T J U E A Op σ α β : Type} {Res : Op → Type} [DecidableEq T]
variable (sys : System T J U E A Res σ α)

def start : Pool T J E Res σ α := ⟨sys.init, fun _ => none⟩

/-- One step. A call is atomic with the local code up to the next call. -/
def step (p : Pool T J E Res σ α) : Action T J U E A → Option (Event T J U E Res × Pool T J E Res σ α)
  | .spawn t j e =>
    match p.threads t with
    | none => some (.spawn t j e,
        ⟨p.shared, Function.update p.threads t (some (j, (sys.program j).settle e))⟩)
    | some _ => none
  | .call t a e =>
    match p.threads t with
    | some (j, .call o k) => some (.call t j o (sys.exec j e a o p.shared).1 e,
        ⟨(sys.exec j e a o p.shared).2,
          Function.update p.threads t (some (j, (k (sys.exec j e a o p.shared).1).settle e))⟩)
    | _ => none
  | .tick u => some (.tick u, ⟨sys.tick u p.shared, p.threads⟩)

/-- Runs in which every step meets a condition on the history, the state before and the event. -/
inductive Run (cond : List (Event T J U E Res) → σ → Event T J U E Res → Prop) :
    List (Event T J U E Res) → Pool T J E Res σ α → Prop
  | nil : Run cond [] sys.start
  | snoc {h p a ev p'} : Run cond h p → sys.step p a = some (ev, p') → cond h p.shared ev → Run cond (ev :: h) p'

/-- A run goes on. -/
inductive Extends (cond : List (Event T J U E Res) → σ → Event T J U E Res → Prop)
    (h : List (Event T J U E Res)) (p : Pool T J E Res σ α) :
    List (Event T J U E Res) → Pool T J E Res σ α → Prop
  | refl : Extends cond h p h p
  | snoc {h' p' a ev p''} : Extends cond h p h' p' → sys.step p' a = some (ev, p'') → cond h' p'.shared ev →
      Extends cond h p (ev :: h') p''

/-- Replay a schedule whose every step passes a test. -/
def replay (guard : List (Event T J U E Res) → σ → Event T J U E Res → Bool) : List (Action T J U E A) →
    List (Event T J U E Res) × Pool T J E Res σ α → Option (List (Event T J U E Res) × Pool T J E Res σ α)
  | [], c => some c
  | a :: as, c =>
    match sys.step c.2 a with
    | some (ev, p) => if guard c.1 c.2.shared ev then replay guard as (ev :: c.1, p) else none
    | none => none

variable {sys} {cond cond' : List (Event T J U E Res) → σ → Event T J U E Res → Prop}
variable {h : List (Event T J U E Res)} {p : Pool T J E Res σ α}

theorem Run.mono (hc : ∀ h s ev, cond h s ev → cond' h s ev) (hr : sys.Run cond h p) : sys.Run cond' h p := by
  induction hr with
  | nil => exact .nil
  | snoc _ hs hev ih => exact .snoc ih hs (hc _ _ _ hev)

/-- A property of histories that passes to prefixes may be added to every step. -/
theorem Run.and_history {F : List (Event T J U E Res) → Prop} (hF : ∀ ev h, F (ev :: h) → F h)
    (hr : sys.Run cond h p) (hf : F h) : sys.Run (fun h s ev => cond h s ev ∧ F (ev :: h)) h p := by
  induction hr with
  | nil => exact .nil
  | snoc _ hs hev ih => exact .snoc (ih (hF _ _ hf)) hs ⟨hev, hf⟩

section Replay
variable {guard : List (Event T J U E Res) → σ → Event T J U E Res → Bool} {as : List (Action T J U E A)}

theorem Extends.trans {h₁ h₂ : List (Event T J U E Res)} {p₁ p₂ : Pool T J E Res σ α}
    (hx : sys.Extends cond h p h₁ p₁) (hy : sys.Extends cond h₁ p₁ h₂ p₂) : sys.Extends cond h p h₂ p₂ := by
  induction hy with
  | refl => exact hx
  | snoc _ hs hc ih => exact .snoc ih hs hc

/-- A schedule that replays extends the run it starts from. -/
theorem Extends.replay {c c' : List (Event T J U E Res) × Pool T J E Res σ α}
    (hr : sys.replay guard as c = some c') :
    sys.Extends (fun h s ev => guard h s ev = true) c.1 c.2 c'.1 c'.2 := by
  induction as generalizing c with
  | nil =>
    cases hr
    exact .refl
  | cons a as ih =>
    simp only [System.replay] at hr
    split at hr
    · rename_i ev q hs
      split at hr
      · rename_i hg
        exact (Extends.snoc .refl hs hg).trans (ih hr)
      · cases hr
    · cases hr

theorem Extends.mono {h' : List (Event T J U E Res)} {p' : Pool T J E Res σ α}
    (hc : ∀ h s ev, cond h s ev → cond' h s ev) (hx : sys.Extends cond h p h' p') : sys.Extends cond' h p h' p' := by
  induction hx with
  | refl => exact .refl
  | snoc _ hs hev ih => exact .snoc ih hs (hc _ _ _ hev)

theorem Extends.run {h' : List (Event T J U E Res)} {p' : Pool T J E Res σ α}
    (hx : sys.Extends cond h p h' p') (hr : sys.Run cond h p) : sys.Run cond h' p' := by
  induction hx with
  | refl => exact hr
  | snoc _ hs hc ih => exact .snoc ih hs hc

theorem Extends.sublist {h' : List (Event T J U E Res)} {p' : Pool T J E Res σ α}
    (hx : sys.Extends cond h p h' p') : h.Sublist h' := by
  induction hx with
  | refl => exact .refl _
  | snoc _ _ _ ih => exact ih.cons _

/-- A schedule that replays from the start is a run. -/
theorem exists_run {check : List (Event T J U E Res) × Pool T J E Res σ α → Bool}
    (hc : (sys.replay guard as ([], sys.start)).any check = true) :
    ∃ h p, sys.Run (fun h s ev => guard h s ev = true) h p ∧ check (h, p) = true := by
  obtain ⟨c, hr, hc⟩ := (Option.any_eq_true _ _).mp hc
  exact ⟨c.1, c.2, (Extends.replay hr).run .nil, hc⟩

/-- A replay without a guard is a run in which anything may happen. -/
theorem exists_any_run {check : List (Event T J U E Res) × Pool T J E Res σ α → Bool}
    (hc : (sys.replay (fun _ _ _ => true) as ([], sys.start)).any check = true) :
    ∃ h p, sys.Run (fun _ _ _ => True) h p ∧ check (h, p) = true := by
  obtain ⟨h, p, hr, hc⟩ := exists_run hc
  exact ⟨h, p, hr.mono fun _ _ _ _ => trivial, hc⟩

end Replay

/-- What one step can do. -/
theorem step_cases {a : Action T J U E A} {ev : Event T J U E Res} {p' : Pool T J E Res σ α}
    (hs : sys.step p a = some (ev, p')) :
    (∃ t j e, p.threads t = none ∧ ev = .spawn t j e ∧
      p' = ⟨p.shared, Function.update p.threads t (some (j, (sys.program j).settle e))⟩) ∨
    (∃ t j o k ans e, p.threads t = some (j, .call o k) ∧
      ev = .call t j o (sys.exec j e ans o p.shared).1 e ∧
      p' = ⟨(sys.exec j e ans o p.shared).2,
        Function.update p.threads t (some (j, (k (sys.exec j e ans o p.shared).1).settle e))⟩) ∨
    (∃ u, ev = .tick u ∧ p' = ⟨sys.tick u p.shared, p.threads⟩) := by
  cases a with
  | spawn t j e =>
    simp only [step] at hs
    split at hs
    · rename_i ht
      cases hs
      exact .inl ⟨t, j, e, ht, rfl, rfl⟩
    · cases hs
  | call t ans e =>
    simp only [step] at hs
    split at hs
    · rename_i j o k ht
      cases hs
      exact .inr (.inl ⟨t, j, o, k, ans, e, ht, rfl, rfl⟩)
    · cases hs
  | tick u =>
    cases hs
    exact .inr (.inr ⟨u, rfl, rfl⟩)

/-- Between steps a thread has resolved its readings: it is at a call or at its end. -/
theorem Run.settled (hr : sys.Run cond h p) {t : T} {j : J} {q : Program E Res α} (ht : p.threads t = some (j, q))
    (e : E) : q.settle e = q := by
  induction hr generalizing t j q with
  | nil => cases ht
  | snoc _ hs _ ih =>
    rcases System.step_cases hs with ⟨t', j', e', _, _, rfl⟩ | ⟨t', j', o, k, a, e', _, _, rfl⟩ | ⟨u, _, rfl⟩
    · by_cases hn : t = t'
      · subst hn
        simp only [Function.update_self, Option.some.injEq, Prod.mk.injEq] at ht
        obtain ⟨_, rfl⟩ := ht
        exact Program.settle_settle _ e' e
      · simp only [Function.update_of_ne hn] at ht
        exact ih ht
    · by_cases hn : t = t'
      · subst hn
        simp only [Function.update_self, Option.some.injEq, Prod.mk.injEq] at ht
        obtain ⟨_, rfl⟩ := ht
        exact Program.settle_settle _ e' e
      · simp only [Function.update_of_ne hn] at ht
        exact ih ht
    · exact ih ht

/-- A thread that was started is there, with its job. -/
theorem Run.thread_of_spawn (hr : sys.Run cond h p) {t : T} {j : J} {e : E} (hm : .spawn t j e ∈ h) :
    ∃ q, p.threads t = some (j, q) := by
  induction hr with
  | nil => cases hm
  | snoc _ hs _ ih =>
    rcases System.step_cases hs with ⟨t', j', e', hnone, rfl, rfl⟩ | ⟨t', j', o, k, a, e', ht', rfl, rfl⟩ | ⟨u, rfl, rfl⟩
    · rcases List.mem_cons.mp hm with hev | hm
      · obtain ⟨rfl, rfl, rfl⟩ := Event.spawn.inj hev
        exact ⟨_, Function.update_self t _ _⟩
      · obtain ⟨q, hq⟩ := ih hm
        have hn : t ≠ t' := by
          rintro rfl
          rw [hnone] at hq
          cases hq
        exact ⟨q, (Function.update_of_ne hn _ _).trans hq⟩
    · obtain ⟨q, hq⟩ := ih (by simpa using hm)
      by_cases hn : t = t'
      · subst hn
        obtain ⟨rfl, _⟩ := Prod.mk.inj (Option.some.inj (hq.symm.trans ht'))
        exact ⟨_, Function.update_self t _ _⟩
      · exact ⟨q, (Function.update_of_ne hn _ _).trans hq⟩
    · exact ih (by simpa using hm)

/-- The history grows by calls of one thread, answered under one environment and by one external answer. -/
def OwnCalls (sys : System T J U E A Res σ α) (t : T) (j : J) (e : E) (a : A) (h h' : List (Event T J U E Res)) : Prop :=
  ∃ newer, h' = newer ++ h ∧ ∀ ev ∈ newer, ∃ o s, ev = .call t j o (sys.exec j e a o s).1 e

/-- The event that recorded one of a thread's calls. -/
def event (U : Type) (t : T) (j : J) (c : Program.Called E Res) : Event T J U E Res := .call t j c.op c.res c.env

omit [DecidableEq T] in
theorem ownCalls_calls (sys : System T J U E A Res σ α) (q : Program E Res α) (t : T) (j : J) (e : E) (a : A) (s : σ)
    (h : List (Event T J U E Res)) :
    sys.OwnCalls t j e a h ((q.calls e (sys.exec j e a) s []).map (event U t j) ++ h) := by
  refine ⟨_, rfl, fun ev hev => ?_⟩
  obtain ⟨c, hc, rfl⟩ := List.mem_map.mp hev
  rcases Program.result_of_mem_calls hc with hc | ⟨s', hres, henv⟩
  · cases hc
  · exact ⟨c.op, s', by rw [event, hres, henv]⟩

/-- No thread waits for another: one that has started can be run to its end by its own calls, all
answered under one environment, and then makes the calls that it makes, ends as it ends, and leaves the state
that it leaves when it is run alone. -/
theorem exists_finish (q : Program E Res α) {t : T} {j : J} {e : E} (a : A)
    (ht : p.threads t = some (j, q.settle e)) :
    ∃ p', sys.Extends (fun _ _ _ => True) h p
        ((q.calls e (sys.exec j e a) p.shared []).map (event U t j) ++ h) p' ∧
      p'.threads = Function.update p.threads t (some (j, .pure (q.run e (sys.exec j e a) p.shared).1)) ∧
      p'.shared = (q.run e (sys.exec j e a) p.shared).2 := by
  induction q generalizing h p with
  | pure x =>
    refine ⟨p, .refl, ?_, rfl⟩
    rw [Program.run_pure, eq_comm, Function.update_eq_self_iff]
    exact ht.symm
  | read k ih => exact ih e ht
  | call o k ih =>
    rw [Program.run_call, Program.calls_call, Program.calls_append, List.map_append, List.append_assoc]
    generalize hx : sys.exec j e a o p.shared = x
    let p₁ : Pool T J E Res σ α := ⟨x.2, Function.update p.threads t (some (j, (k x.1).settle e))⟩
    have hs : sys.step p (.call t a e) = some (.call t j o x.1 e, p₁) := by
      simp [step, ht, Program.settle, hx, p₁]
    have ht₁ : p₁.threads t = some (j, (k x.1).settle e) := Function.update_self t _ _
    obtain ⟨p', hext, hthreads, hshared⟩ := ih x.1 (h := .call t j o x.1 e :: h) ht₁
    refine ⟨p', (Extends.snoc .refl hs trivial).trans hext, ?_, hshared⟩
    rw [hthreads, Function.update_idem]

variable (sys) in
/-- A new thread can be started and run to its end, as one atomic step on the shared state. -/
theorem exists_atomic {t : T} {j : J} {e : E} (a : A) (ht : p.threads t = none) :
    ∃ p', sys.Extends (fun _ _ _ => True) h p
        (((sys.program j).calls e (sys.exec j e a) p.shared []).map (event U t j) ++ .spawn t j e :: h) p' ∧
      p'.threads = Function.update p.threads t
        (some (j, .pure ((sys.program j).run e (sys.exec j e a) p.shared).1)) ∧
      p'.shared = ((sys.program j).run e (sys.exec j e a) p.shared).2 := by
  let p₁ : Pool T J E Res σ α := ⟨p.shared, Function.update p.threads t (some (j, (sys.program j).settle e))⟩
  have hs : sys.step p (.spawn t j e) = some (.spawn t j e, p₁) := by
    simp [step, ht, p₁]
  have ht₁ : p₁.threads t = some (j, (sys.program j).settle e) := Function.update_self t _ _
  obtain ⟨p', hext, hthreads, hshared⟩ := exists_finish (sys.program j) (h := .spawn t j e :: h) a ht₁
  refine ⟨p', (Extends.snoc .refl hs trivial).trans hext, ?_, hshared⟩
  rw [hthreads, Function.update_idem]

/-- The calls of one thread, newest first. -/
def log (t : T) : List (Event T J U E Res) → List (Program.Called E Res)
  | [] => []
  | .call t' _ o r e :: h => if t' = t then ⟨o, r, e⟩ :: log t h else log t h
  | .spawn _ _ _ :: h => log t h
  | .tick _ :: h => log t h

@[simp] theorem log_nil (t : T) : log t ([] : List (Event T J U E Res)) = [] := rfl
@[simp] theorem log_spawn (t t' : T) (j : J) (e : E) (h : List (Event T J U E Res)) :
    log t (.spawn t' j e :: h) = log t h := rfl
@[simp] theorem log_tick (t : T) (u : U) (h : List (Event T J U E Res)) : log t (.tick u :: h) = log t h := rfl
@[simp] theorem log_call (t t' : T) (j : J) (o : Op) (r : Res o) (e : E) (h : List (Event T J U E Res)) :
    log t (.call t' j o r e :: h) = if t' = t then ⟨o, r, e⟩ :: log t h else log t h := rfl

theorem log_eq_nil {t : T} {h : List (Event T J U E Res)} (hn : ∀ j o r e, .call t j o r e ∉ h) : log t h = [] := by
  induction h with
  | nil => rfl
  | cons ev h ih =>
    have ih := ih fun j o r e hm => hn j o r e (List.mem_cons_of_mem _ hm)
    cases ev with
    | spawn t' j e => exact ih
    | tick u => exact ih
    | call t' j o r e =>
      rw [log_call, if_neg ?_]
      · exact ih
      · rintro rfl
        exact hn j o r e List.mem_cons_self

theorem mem_log {t : T} {j : J} {o : Op} {r : Res o} {e : E} {h : List (Event T J U E Res)}
    (hm : .call t j o r e ∈ h) : (⟨o, r, e⟩ : Program.Called E Res) ∈ log t h := by
  induction h with
  | nil => cases hm
  | cons ev h ih =>
    rcases List.mem_cons.mp hm with rfl | hin
    · simp
    · cases ev with
      | spawn t' j' e' => exact ih hin
      | tick u => exact ih hin
      | call t' j' o' r' e' =>
        rw [log_call]
        split
        · exact List.mem_cons_of_mem _ (ih hin)
        · exact ih hin

/-- A thread's identity in a history: it was started with its job, and all its calls carry it. -/
structure Owns (h : List (Event T J U E Res)) (t : T) (j : J) : Prop where
  spawned : ∃ e, .spawn t j e ∈ h
  own : ∀ j' o r e, .call t j' o r e ∈ h → j' = j

/-- A thread's log lies in the history, in order. -/
theorem log_sublist {t : T} {j : J} (ho : ∀ j' o r e, .call t j' o r e ∈ h → j' = j) :
    ((log t h).map (event U t j)).Sublist h := by
  induction h with
  | nil => exact .slnil
  | cons ev h ih =>
    have ih := ih fun j' o r e hm => ho j' o r e (List.mem_cons_of_mem _ hm)
    cases ev with
    | spawn t' j' e => exact ih.cons _
    | tick u => exact ih.cons _
    | call t' j' o r e =>
      rw [log_call]
      split
      · rename_i ht
        subst ht
        obtain rfl := ho j' o r e List.mem_cons_self
        exact ih.cons_cons _
      · exact ih.cons _

/-- One call of a log splits the history: the thread's later calls come after it. -/
theorem Owns.split {t : T} {j : J} {c : Program.Called E Res} {older : List (Program.Called E Res)}
    (hw : Owns h t j) (newer : List (Program.Called E Res)) (hl : log t h = newer ++ c :: older) :
    ∃ h₂ h₁, h = h₂ ++ event U t j c :: h₁ ∧ (newer.map (event U t j)).Sublist h₂ := by
  have hs := log_sublist hw.own
  rw [hl, List.map_append, List.map_cons, List.append_sublist_iff] at hs
  obtain ⟨h₂, h', rfl, hn, hs⟩ := hs
  obtain ⟨r, h₁, rfl, hc, _⟩ := List.cons_sublist_iff.mp hs
  obtain ⟨r₂, r₁, rfl⟩ := List.append_of_mem hc
  exact ⟨h₂ ++ r₂, r₁ ++ h₁, by simp, hn.trans (List.sublist_append_left _ _)⟩

/-- Every thread is where its protocol and its own calls have brought it. -/
def OnTrack (issues : J → List (Program.Called E Res) → Op → Prop)
    (ends : J → E → List (Program.Called E Res) → α → Prop)
    (h : List (Event T J U E Res)) (p : Pool T J E Res σ α) : Prop :=
  ∀ t, match p.threads t with
    | none => ∀ j o r e, .call t j o r e ∉ h
    | some (j, q) => Owns h t j ∧ ∃ e, q.Follows (issues j) (ends j) e (log t h)

variable {issues : J → List (Program.Called E Res) → Op → Prop}
variable {ends : J → E → List (Program.Called E Res) → α → Prop}

theorem OnTrack.running {t : T} {j : J} {q : Program E Res α} (ht : OnTrack issues ends h p)
    (hq : p.threads t = some (j, q)) :
    Owns h t j ∧ ∃ e, q.Follows (issues j) (ends j) e (log t h) := by
  have := ht t
  rwa [hq] at this

private theorem OnTrack.other {t : T} {ev : Event T J U E Res}
    (hp : OnTrack issues ends h p) (hev : ∀ j o r e, ev ≠ .call t j o r e) (hl : log t (ev :: h) = log t h) :
    match p.threads t with
    | none => ∀ j o r e, .call t j o r e ∉ ev :: h
    | some (j, q) => Owns (ev :: h) t j ∧ ∃ e, q.Follows (issues j) (ends j) e (log t (ev :: h)) := by
  have hne (j o r e) : Event.call t j o r e ≠ ev := (hev j o r e).symm
  have := hp t
  cases hq : p.threads t with
  | none =>
    rw [hq] at this
    simpa [hne] using this
  | some jq =>
    obtain ⟨⟨⟨e, hs⟩, ho⟩, hf⟩ := hp.running hq
    refine ⟨⟨⟨e, List.mem_cons_of_mem _ hs⟩, fun j' o r e hm => ?_⟩, hl ▸ hf⟩
    rcases List.mem_cons.mp hm with hm | hm
    · exact absurd hm (hne j' o r e)
    · exact ho j' o r e hm

private theorem OnTrack.update {t : T} {j : J} {q : Program E Res α} {e : E} {s : σ} {ev : Event T J U E Res}
    (hp : OnTrack issues ends h p)
    (hev : ∀ t', t' ≠ t → (∀ j o r e, ev ≠ .call t' j o r e) ∧ log t' (ev :: h) = log t' h)
    (hw : Owns (ev :: h) t j) (hq : q.Follows (issues j) (ends j) e (log t (ev :: h))) :
    OnTrack issues ends (ev :: h) ⟨s, Function.update p.threads t (some (j, q.settle e))⟩ := by
  intro t'
  by_cases hn : t' = t
  · subst hn
    simp only [Function.update_self]
    exact ⟨hw, e, hq.settle⟩
  · simp only [Function.update_of_ne hn]
    exact hp.other (hev t' hn).1 (hev t' hn).2

private theorem OnTrack.step {a : Action T J U E A} {ev : Event T J U E Res} {p' : Pool T J E Res σ α}
    (hprog : ∀ j e, (sys.program j).Follows (issues j) (ends j) e [])
    (hp : OnTrack issues ends h p) (hs : sys.step p a = some (ev, p')) : OnTrack issues ends (ev :: h) p' := by
  rcases step_cases hs with ⟨t, j, e, ht, rfl, rfl⟩ | ⟨t, j, o, k, ans, e, ht, rfl, rfl⟩ | ⟨u, rfl, rfl⟩
  · have hn : ∀ j o r e, Event.call t j o r e ∉ h := by
      have := hp t
      rwa [ht] at this
    refine hp.update (fun _ _ => ⟨by simp, rfl⟩) ⟨⟨e, List.mem_cons_self⟩, ?_⟩ ?_
    · intro j' o r e hm
      rcases List.mem_cons.mp hm with hm | hm
      · cases hm
      · exact absurd hm (hn j' o r e)
    · rw [log_spawn, log_eq_nil hn]
      exact hprog j e
  · obtain ⟨⟨⟨e₁, hsp⟩, ho⟩, e₀, hf⟩ := hp.running ht
    refine hp.update (fun t' hn => ⟨?_, by rw [log_call, if_neg (Ne.symm hn)]⟩)
      ⟨⟨e₁, List.mem_cons_of_mem _ hsp⟩, ?_⟩ ?_
    · rintro j o r e ⟨⟩
      exact hn rfl
    · intro j' o' r e' hm
      rcases List.mem_cons.mp hm with hm | hm
      · cases hm
        rfl
      · exact ho j' o' r e' hm
    · rw [log_call, if_pos rfl]
      exact hf.2 _ e
  · exact fun t => hp.other (by simp) rfl

/-- The threads of every run keep to their protocols. -/
theorem Run.onTrack (hprog : ∀ j e, (sys.program j).Follows (issues j) (ends j) e [])
    (hr : sys.Run cond h p) : OnTrack issues ends h p := by
  induction hr with
  | nil => exact fun t => by simp [start]
  | snoc _ hs _ ih => exact ih.step hprog hs

/-- What a step of a run can do, with the permission its protocol gives to a call. -/
theorem Run.step_cases {a : Action T J U E A} {ev : Event T J U E Res} {p' : Pool T J E Res σ α}
    (hprog : ∀ j e, (sys.program j).Follows (issues j) (ends j) e [])
    (hr : sys.Run cond h p) (hs : sys.step p a = some (ev, p')) :
    (∃ t j e, ev = .spawn t j e ∧ p'.shared = p.shared) ∨
    (∃ t j o e ans, Owns h t j ∧ issues j (log t h) o ∧ ev = .call t j o (sys.exec j e ans o p.shared).1 e ∧
      p'.shared = (sys.exec j e ans o p.shared).2) ∨
    (∃ u, ev = .tick u ∧ p'.shared = sys.tick u p.shared) := by
  rcases System.step_cases hs with ⟨t, j, e, _, rfl, rfl⟩ | ⟨t, j, o, k, ans, e, ht, rfl, rfl⟩ | ⟨u, rfl, rfl⟩
  · exact .inl ⟨t, j, e, rfl, rfl⟩
  · obtain ⟨hw, e₀, hf⟩ := (hr.onTrack hprog).running ht
    exact .inr (.inl ⟨t, j, o, e, ans, hw, hf.1, rfl, rfl⟩)
  · exact .inr (.inr ⟨u, rfl, rfl⟩)

/-- A call of a history was permitted when it was made, and its result is what the state then gave. -/
theorem Run.call_made {h₁ h₂ : List (Event T J U E Res)} {t : T} {j : J} {o : Op} {r : Res o} {e : E}
    (hprog : ∀ j e, (sys.program j).Follows (issues j) (ends j) e [])
    (hr : sys.Run cond h p) (hh : h = h₂ ++ .call t j o r e :: h₁) :
    ∃ p₁ ans, sys.Run cond h₁ p₁ ∧ Owns h₁ t j ∧ issues j (log t h₁) o ∧
      cond h₁ p₁.shared (.call t j o r e) ∧ r = (sys.exec j e ans o p₁.shared).1 := by
  induction hr generalizing h₂ with
  | nil => simp at hh
  | @snoc h p a ev p' hr hs hc ih =>
    cases h₂ with
    | cons ev' h₂ => exact ih (List.cons.inj hh).2
    | nil =>
      obtain ⟨rfl, rfl⟩ := List.cons.inj hh
      rcases hr.step_cases hprog hs with ⟨_, _, _, hev, _⟩ | ⟨t', j', o', e', ans, hw, hi, hev, _⟩ | ⟨_, hev, _⟩
      · cases hev
      · obtain ⟨rfl, rfl, rfl, hres, rfl⟩ := Event.call.inj hev
        exact ⟨p, ans, hr, hw, hi, hc, eq_of_heq hres⟩
      · cases hev

/-- An answer was there before a step, or is given without any call, or by this call. -/
theorem Run.answer_cases {a : Action T J U E A} {ev : Event T J U E Res} {p' : Pool T J E Res σ α}
    {t : T} {j : J} {x : α} (hprog : ∀ j e, (sys.program j).Follows (issues j) (ends j) e [])
    (hr : sys.Run cond h p) (hs : sys.step p a = some (ev, p')) (hx : p'.answer? t = some (j, x)) :
    p.answer? t = some (j, x) ∨ log t (ev :: h) = [] ∨ ∃ o r e, ev = .call t j o r e := by
  have htrack := hr.onTrack hprog
  rw [Pool.answer?_eq_some] at hx ⊢
  rcases System.step_cases hs with ⟨t', j', e, ht, rfl, rfl⟩ | ⟨t', j', o, k, ans, e, ht, rfl, rfl⟩ | ⟨u, rfl, rfl⟩
  · by_cases hn : t = t'
    · subst hn
      have hcalls := htrack t
      rw [ht] at hcalls
      exact .inr (.inl ((log_spawn t t j' e h).trans (log_eq_nil hcalls)))
    · simp only [Function.update_of_ne hn] at hx
      exact .inl hx
  · by_cases hn : t = t'
    · subst hn
      simp only [Function.update_self, Option.some.injEq, Prod.mk.injEq] at hx
      obtain ⟨rfl, _⟩ := hx
      exact .inr (.inr ⟨_, _, _, rfl⟩)
    · simp only [Function.update_of_ne hn] at hx
      exact .inl hx
  · exact .inl hx

/-- The interleaving rule. An invariant of history and shared state that survives every call a
protocol permits, every start and every tick holds along every run. -/
theorem Run.invariant (I : List (Event T J U E Res) → σ → Prop)
    (hprog : ∀ j e, (sys.program j).Follows (issues j) (ends j) e [])
    (hinit : I [] sys.init)
    (hspawn : ∀ t j e h s, I h s → cond h s (.spawn t j e) → I (.spawn t j e :: h) s)
    (hcall : ∀ t j o e a h s, I h s → Owns h t j → issues j (log t h) o →
      cond h s (.call t j o (sys.exec j e a o s).1 e) →
      I (.call t j o (sys.exec j e a o s).1 e :: h) (sys.exec j e a o s).2)
    (htick : ∀ u h s, I h s → cond h s (.tick u) → I (.tick u :: h) (sys.tick u s))
    (hr : sys.Run cond h p) : I h p.shared := by
  induction hr with
  | nil => exact hinit
  | @snoc h p a ev p' hr hs hev ih =>
    rcases hr.step_cases hprog hs with ⟨t, j, e, rfl, hp⟩ | ⟨t, j, o, e, ans, hw, hi, rfl, hp⟩ | ⟨u, rfl, hp⟩
    · exact hp ▸ hspawn t j e h _ ih hev
    · exact hp ▸ hcall t j o e ans h _ ih hw hi hev
    · exact hp ▸ htick u h _ ih hev

/-- Calls come from threads that were started. -/
theorem Run.spawned (hprog : ∀ j e, (sys.program j).Follows (issues j) (ends j) e [])
    (hr : sys.Run cond h p) {t : T} {j : J} {o : Op} {r : Res o} {e : E} (hc : .call t j o r e ∈ h) :
    ∃ e, .spawn t j e ∈ h := by
  refine hr.invariant (fun h _ => ∀ t j o (r : Res o) e, .call t j o r e ∈ h → ∃ e, .spawn t j e ∈ h) hprog
    ?_ ?_ ?_ ?_ t j o r e hc
  · simp
  · intro t j e h s ih _ t' j' o r e' hm
    obtain ⟨e'', hs⟩ := ih t' j' o r e' (by simpa using hm)
    exact ⟨e'', List.mem_cons_of_mem _ hs⟩
  · intro t j o e a h s ih hw _ _ t' j' o' r e' hm
    rcases List.mem_cons.mp hm with hm | hm
    · cases hm
      obtain ⟨e'', hs⟩ := hw.spawned
      exact ⟨e'', List.mem_cons_of_mem _ hs⟩
    · obtain ⟨e'', hs⟩ := ih t' j' o' r e' hm
      exact ⟨e'', List.mem_cons_of_mem _ hs⟩
  · intro u h s ih _ t' j' o r e' hm
    obtain ⟨e'', hs⟩ := ih t' j' o r e' (by simpa using hm)
    exact ⟨e'', List.mem_cons_of_mem _ hs⟩

end System
end AuthService.Lib
