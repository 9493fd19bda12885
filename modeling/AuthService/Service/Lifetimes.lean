import AuthService.Service.ServingLoop

/-! The objects behind the tags, from the first call to the draining of the queue: none is used or deleted
after it is gone, and which ones are never deleted. -/
namespace AuthService.Service
open Lib

/-- Whether a coroutine has yet to use its processor. -/
def Coroutine.atWork : Coroutine → Bool
  | .launched => true
  | .checked _ => true
  | .finished _ => false

namespace AsyncAuthServiceImpl

/-- What the queue or a coroutine comes back to: a tag, the processor of an answer that is being sent, and the
processor of a coroutine at work. -/
def Owned (s : AsyncAuthServiceImpl) (a : Address) : Prop :=
  (∃ o, (o, a) ∈ s.registered) ∨ (∃ c, (.finish a, c) ∈ s.registered) ∨ ∃ c ∈ s.coroutines a, c.atWork = true

/-- The event that ends the loop is dropped with its object, and from then on a processor is left
behind when its answer has been sent. -/
def Leaked : List Action → Address → Prop
  | [], _ => False
  | .deliver o t ok :: h, a =>
    Leaked h a ∨ (AllOk h ∧ ok = false ∧ a = t) ∨ (¬ (AllOk h ∧ ok = true) ∧ o = .finish a)
  | .check _ _ :: h, a => Leaked h a
  | .finish _ _ :: h, a => Leaked h a

/-- What holds in every state, whether the loop serves or the queue is drained. -/
structure Accounted (h : List Action) (s : AsyncAuthServiceImpl) : Prop where
  phase : s.phase = .serving ∧ AllOk h ∨ s.phase = .draining ∧ ¬ AllOk h
  registered_lt : ∀ o a, (o, a) ∈ s.registered → a < s.fresh
  coroutines_lt : ∀ p, s.coroutines p ≠ [] → p < s.fresh
  nodup : (s.registered.map Prod.snd).Nodup
  waiting : ∀ p, (.requestCheck, p) ∈ s.registered → s.objects p = some .processing ∧ s.coroutines p = []
  single : ∀ p, (s.coroutines p).length ≤ 1
  working : ∀ p c, c ∈ s.coroutines p → c.atWork = true →
    s.objects p = some .processing ∧ ∀ d, (.finish p, d) ∉ s.registered
  finishing : ∀ p c, (.finish p, c) ∈ s.registered → s.objects c = some (.complete p) ∧
    s.objects p = some .processing ∧ (∃ a, s.coroutines p = [.finished a]) ∧ s.coroutines c = []
  unique : ∀ p c c', (.finish p, c) ∈ s.registered → (.finish p, c') ∈ s.registered → c = c'
  live : ∀ a, s.objects a ≠ none ↔ Owned s a ∨ Leaked h a
  lost : ∀ a, Leaked h a → a < s.fresh ∧ ¬ Owned s a

variable {s s' : AsyncAuthServiceImpl} {h : List Action} {a : Action}

private theorem not_leaked (hok : AllOk h) (x : Address) : ¬ Leaked h x := by
  induction h with
  | nil => exact id
  | cons a h ih =>
    obtain ⟨ha, hh⟩ := allOk_cons.mp hok
    cases a with
    | deliver o t ok =>
      obtain rfl := ha o t ok rfl
      simp [Leaked, ih hh, hh]
    | check p response => exact ih hh
    | finish p response => exact ih hh

private theorem accounted_start : Accounted [] start where
  phase := .inl ⟨rfl, nofun⟩
  registered_lt := by simp [start, newProcessingState, register]
  coroutines_lt := by simp [start, newProcessingState, register]
  nodup := by simp [start, newProcessingState, register]
  waiting := by simp [start, newProcessingState, register]
  single := by simp [start, newProcessingState, register]
  working := by simp [start, newProcessingState, register]
  finishing := by simp [start, newProcessingState, register]
  unique := by simp [start, newProcessingState, register]
  live := by
    intro a
    simp only [start, newProcessingState, register, Owned, Leaked, Function.update_apply]
    grind
  lost := nofun

private theorem Accounted.coroutines_of_mem (hi : Accounted h s) {p : Address} {c : Coroutine}
    (hc : c ∈ s.coroutines p) : s.coroutines p = [c] := by
  have hlength : (s.coroutines p).length = 1 := le_antisymm (hi.single p) (List.length_pos_of_mem hc)
  obtain ⟨d, hd⟩ := List.length_eq_one_iff.mp hlength
  rw [hd, List.mem_singleton] at hc
  rw [hd, hc]

private theorem Accounted.step_cases (hi : Accounted h s) (hs : s.step a = some s') :
    (AllOk h ∧ ∃ p, a = .deliver .requestCheck p true ∧ (.requestCheck, p) ∈ s.registered ∧ s' = s.arrived p) ∨
    (AllOk h ∧ ∃ p c, a = .deliver (.finish p) c true ∧ (.finish p, c) ∈ s.registered ∧ s' = s.retired p c) ∨
    (AllOk h ∧ ∃ o t, a = .deliver o t false ∧ (o, t) ∈ s.registered ∧
      s' = { s with registered := s.registered.erase (o, t), phase := .draining }) ∨
    (¬ AllOk h ∧ ∃ o t ok, a = .deliver o t ok ∧ (o, t) ∈ s.registered ∧
      s' = { s with registered := s.registered.erase (o, t), objects := Function.update s.objects t none }) ∨
    (∃ p response, a = .check p response ∧ s.coroutines p = [.launched] ∧
      s' = s.setCoroutines p [.checked response]) ∨
    ∃ p response, a = .finish p response ∧ s.coroutines p = [.checked response] ∧
      s' = (s.register (.complete p) (.finish p)).setCoroutines p [.finished response] := by
  cases a with
  | deliver o t ok =>
    simp only [step] at hs
    split at hs
    · rename_i hm
      obtain rfl := Option.some.inj hs
      obtain ⟨hphase, hok⟩ | ⟨hphase, hok⟩ := hi.phase
      · cases ok with
        | false => exact .inr (.inr (.inl ⟨hok, o, t, rfl, hm, by simp [handle, hphase]⟩))
        | true =>
          cases o with
          | requestCheck =>
            obtain ⟨ho, hc⟩ := hi.waiting t hm
            refine .inl ⟨hok, t, rfl, hm, ?_⟩
            simp [handle, hphase, proceed, ho, hc, newProcessingState, register, setCoroutines, arrived]
          | finish p =>
            obtain ⟨hc, -⟩ := hi.finishing p t hm
            refine .inr (.inl ⟨hok, p, t, rfl, hm, ?_⟩)
            simp [handle, hphase, proceed, hc, delete, retired]
      · exact .inr (.inr (.inr (.inl ⟨hok, o, t, ok, rfl, hm, by simp [handle, hphase, delete]⟩)))
    · cases hs
  | check p response =>
    simp only [step] at hs
    split at hs
    · rename_i hm
      have hc := hi.coroutines_of_mem hm
      exact .inr (.inr (.inr (.inr (.inl ⟨p, response, rfl, hc, by simpa [hc] using hs.symm⟩))))
    · cases hs
  | finish p response =>
    simp only [step] at hs
    split at hs
    · rename_i hm
      have hc := hi.coroutines_of_mem hm
      exact .inr (.inr (.inr (.inr (.inr ⟨p, response, rfl, hc, by simpa [hc] using hs.symm⟩))))
    · cases hs

private theorem Accounted.mem_erase (hi : Accounted h s) {o o' : Operation} {t t' : Address}
    (hm : (o, t) ∈ s.registered) : (o', t') ∈ s.registered.erase (o, t) ↔ (o', t') ∈ s.registered ∧ t' ≠ t := by
  rw [(hi.nodup.of_map Prod.snd).mem_erase_iff]
  constructor
  · rintro ⟨hne, hm'⟩
    exact ⟨hm', fun ht => hne (List.inj_on_of_nodup_map hi.nodup hm' hm ht)⟩
  · rintro ⟨hm', hne⟩
    exact ⟨fun he => hne (congrArg Prod.snd he), hm'⟩

private theorem Accounted.nodup_register (hi : Accounted h s) {l : List (Operation × Address)}
    (hl : l.Sublist s.registered) (o : Operation) : (((o, s.fresh) :: l).map Prod.snd).Nodup := by
  simp only [List.map_cons, List.nodup_cons]
  refine ⟨fun hin => ?_, hi.nodup.sublist (hl.map _)⟩
  obtain ⟨⟨o, a⟩, hx, rfl⟩ := List.mem_map.mp hin
  exact absurd (hi.registered_lt o _ (hl.subset hx)) (lt_irrefl _)

private theorem Accounted.coroutines_of_tag (hi : Accounted h s) (o : Operation) (t : Address)
    (hm : (o, t) ∈ s.registered) : s.coroutines t = [] := by
  cases o with
  | requestCheck => exact (hi.waiting t hm).2
  | finish p =>
    obtain ⟨-, -, -, hc⟩ := hi.finishing p t hm
    exact hc

private theorem Accounted.arrived (hi : Accounted h s) (hok : AllOk h) {p : Address}
    (hm : (.requestCheck, p) ∈ s.registered) : Accounted (.deliver .requestCheck p true :: h) (s.arrived p) := by
  obtain ⟨ho, hc⟩ := hi.waiting p hm
  have hold {o t} : (o, t) ∈ s.registered.erase (.requestCheck, p) ↔ (o, t) ∈ s.registered ∧ t ≠ p := hi.mem_erase hm
  have hnodup := hi.nodup_register (List.erase_sublist (a := (.requestCheck, p))) .requestCheck
  have hall : AllOk (.deliver .requestCheck p true :: h) := allOk_cons.mpr ⟨by simp, hok⟩
  have hnone := not_leaked hok
  have hnone' := not_leaked hall
  obtain ⟨hphase, hlt, hclt, _, hwait, hsingle, hwork, hfin, huniq, hlive, hlost⟩ := hi
  constructor <;> simp only [AsyncAuthServiceImpl.arrived]
  case phase => exact .inl ⟨by grind, hall⟩
  case registered_lt => grind
  case coroutines_lt => grind
  case nodup => exact hnodup
  case waiting => grind
  case single => grind
  case working => grind
  case finishing => grind
  case unique => grind
  case live =>
    intro x
    have hx := hlive x
    simp only [Owned, hnone, hnone', List.mem_cons, hold, Function.update_apply] at hx ⊢
    grind [Coroutine.atWork]
  case lost => exact fun x hx => absurd hx (hnone' x)

private theorem Accounted.retired (hi : Accounted h s) (hok : AllOk h) {p c : Address}
    (hm : (.finish p, c) ∈ s.registered) : Accounted (.deliver (.finish p) c true :: h) (s.retired p c) := by
  obtain ⟨ho, hp, ⟨response, hc⟩, hcc⟩ := hi.finishing p c hm
  have hold {o t} : (o, t) ∈ s.registered.erase (.finish p, c) ↔ (o, t) ∈ s.registered ∧ t ≠ c := hi.mem_erase hm
  have hall : AllOk (.deliver (.finish p) c true :: h) := allOk_cons.mpr ⟨by simp, hok⟩
  have hnone := not_leaked hok
  have hnone' := not_leaked hall
  have htag := hi.coroutines_of_tag
  obtain ⟨hphase, hlt, hclt, hnodup, hwait, hsingle, hwork, hfin, huniq, hlive, hlost⟩ := hi
  constructor <;> simp only [AsyncAuthServiceImpl.retired]
  case phase => exact .inl ⟨by grind, hall⟩
  case registered_lt => grind
  case coroutines_lt => exact hclt
  case nodup => exact hnodup.sublist (List.erase_sublist.map _)
  case waiting => grind
  case single => exact hsingle
  case working => grind
  case finishing => grind
  case unique => grind
  case live =>
    intro x
    have hx := hlive x
    simp only [Owned, hnone, hnone', hold, Function.update_apply] at hx ⊢
    grind [Coroutine.atWork]
  case lost => exact fun x hx => absurd hx (hnone' x)

private theorem Accounted.stopped (hi : Accounted h s) (hok : AllOk h) {o : Operation} {t : Address}
    (hm : (o, t) ∈ s.registered) : Accounted (.deliver o t false :: h)
      { s with registered := s.registered.erase (o, t), phase := .draining } := by
  have hold {o' t'} : (o', t') ∈ s.registered.erase (o, t) ↔ (o', t') ∈ s.registered ∧ t' ≠ t := hi.mem_erase hm
  have hnone := not_leaked hok
  have htag := hi.coroutines_of_tag
  obtain ⟨hphase, hlt, hclt, hnodup, hwait, hsingle, hwork, hfin, huniq, hlive, hlost⟩ := hi
  constructor <;> dsimp only
  case phase => exact .inr ⟨rfl, fun hall => by simpa using (allOk_cons.mp hall).1 o t false rfl⟩
  case registered_lt => grind
  case coroutines_lt => exact hclt
  case nodup => exact hnodup.sublist (List.erase_sublist.map _)
  case waiting => grind
  case single => exact hsingle
  case working => grind
  case finishing => grind
  case unique => grind
  case live =>
    intro x
    have hx := hlive x
    simp only [Owned, Leaked, hnone, hold] at hx ⊢
    grind [Coroutine.atWork]
  case lost =>
    intro x hx
    simp only [Owned, Leaked, hnone, hold] at hx ⊢
    grind [Coroutine.atWork]

private theorem Accounted.drained (hi : Accounted h s) (hok : ¬ AllOk h) {o : Operation} {t : Address} {ok : Bool}
    (hm : (o, t) ∈ s.registered) : Accounted (.deliver o t ok :: h)
      { s with registered := s.registered.erase (o, t), objects := Function.update s.objects t none } := by
  have hold {o' t'} : (o', t') ∈ s.registered.erase (o, t) ↔ (o', t') ∈ s.registered ∧ t' ≠ t := hi.mem_erase hm
  have htag := hi.coroutines_of_tag
  obtain ⟨hphase, hlt, hclt, hnodup, hwait, hsingle, hwork, hfin, huniq, hlive, hlost⟩ := hi
  constructor <;> dsimp only
  case phase => exact .inr ⟨by grind, fun hall => hok (allOk_cons.mp hall).2⟩
  case registered_lt => grind
  case coroutines_lt => exact hclt
  case nodup => exact hnodup.sublist (List.erase_sublist.map _)
  case waiting => grind
  case single => exact hsingle
  case working => grind
  case finishing => grind
  case unique => grind
  case live =>
    intro x
    have hx := hlive x
    have hx' := hlost x
    simp only [Owned, Leaked, hold, Function.update_apply] at hx hx' ⊢
    grind [Coroutine.atWork]
  case lost =>
    intro x hx
    have hx' := hlost x
    simp only [Owned, Leaked, hold] at hx hx' ⊢
    grind [Coroutine.atWork]

private theorem Accounted.checked (hi : Accounted h s) {p : Address} {response : CheckResponse}
    (hc : s.coroutines p = [.launched]) :
    Accounted (.check p response :: h) (s.setCoroutines p [.checked response]) := by
  have hall : AllOk (.check p response :: h) ↔ AllOk h := by simp [allOk_cons]
  have howned (x : Address) : Owned (s.setCoroutines p [.checked response]) x ↔ Owned s x := by
    obtain rfl | hx := eq_or_ne x p
    · simp [Owned, setCoroutines, hc, Coroutine.atWork]
    · simp [Owned, setCoroutines, hx]
  obtain ⟨hphase, hlt, hclt, hnodup, hwait, hsingle, hwork, hfin, huniq, hlive, hlost⟩ := hi
  constructor
  case live => exact fun x => (hlive x).trans (or_congr_left (howned x).symm)
  case lost => exact fun x hx => ⟨(hlost x hx).1, fun hx' => (hlost x hx).2 ((howned x).mp hx')⟩
  all_goals simp only [setCoroutines]
  case phase => rwa [hall]
  case registered_lt => exact hlt
  case coroutines_lt => grind
  case nodup => exact hnodup
  case waiting => grind
  case single => grind
  case working => grind [Coroutine.atWork]
  case finishing => grind
  case unique => exact huniq

private theorem Accounted.finished (hi : Accounted h s) {p : Address} {response : CheckResponse}
    (hc : s.coroutines p = [.checked response]) :
    Accounted (.finish p response :: h)
      ((s.register (.complete p) (.finish p)).setCoroutines p [.finished response]) := by
  have hall : AllOk (.finish p response :: h) ↔ AllOk h := by simp [allOk_cons]
  have hp : p < s.fresh := hi.coroutines_lt p (by simp [hc])
  obtain ⟨hobj, hno⟩ := hi.working p (.checked response) (by simp [hc]) rfl
  have hnodup := hi.nodup_register (List.Sublist.refl _) (.finish p)
  have htag := hi.coroutines_of_tag
  have howned (x : Address) : Owned ((s.register (.complete p) (.finish p)).setCoroutines p [.finished response]) x ↔
      Owned s x ∨ x = s.fresh := by
    obtain rfl | hx := eq_or_ne x p
    · have hnew : ∃ c, (Operation.finish x, c) ∈ (.finish x, s.fresh) :: s.registered := ⟨s.fresh, List.mem_cons_self⟩
      exact iff_of_true (.inr (.inl hnew)) (.inl (.inr (.inr ⟨_, hc ▸ List.mem_singleton_self _, rfl⟩)))
    · simp only [Owned, setCoroutines, register, Function.update_of_ne hx, List.mem_cons, Prod.mk.injEq]
      grind
  obtain ⟨hphase, hlt, hclt, _, hwait, hsingle, hwork, hfin, huniq, hlive, hlost⟩ := hi
  constructor
  case live =>
    intro x
    rw [howned]
    obtain rfl | hx := eq_or_ne x s.fresh
    · simp [setCoroutines, register]
    · simpa [hx, setCoroutines, register, Leaked] using hlive x
  case lost =>
    intro x hx
    obtain ⟨hlt, hno⟩ := hlost x hx
    exact ⟨Nat.lt_succ_of_lt hlt, by simp [howned, hno, hlt.ne]⟩
  all_goals simp only [register, setCoroutines]
  case phase => rwa [hall]
  case registered_lt => grind
  case coroutines_lt => grind
  case nodup => exact hnodup
  case waiting => grind
  case single => grind
  case working => grind [Coroutine.atWork]
  case finishing => grind
  case unique => grind

private theorem Accounted.step (hi : Accounted h s) (hs : s.step a = some s') : Accounted (a :: h) s' := by
  rcases hi.step_cases hs with ⟨hok, p, rfl, hm, rfl⟩ | ⟨hok, p, c, rfl, hm, rfl⟩ | ⟨hok, o, t, rfl, hm, rfl⟩ |
    ⟨hok, o, t, ok, rfl, hm, rfl⟩ | ⟨p, response, rfl, hc, rfl⟩ | ⟨p, response, rfl, hc, rfl⟩
  · exact hi.arrived hok hm
  · exact hi.retired hok hm
  · exact hi.stopped hok hm
  · exact hi.drained hok hm
  · exact hi.checked hc
  · exact hi.finished hc

/-- The object that an operation's tag was created as. -/
def object : Operation → ServiceState
  | .requestCheck => .processing
  | .finish processor => .complete processor

/-- Nothing is used or deleted after it is gone, and what nobody will come back to is what leaked. -/
structure MemorySafe (h : List Action) (s : AsyncAuthServiceImpl) : Prop where
  running : s.phase ≠ .crashed
  tags : ∀ o t, (o, t) ∈ s.registered → s.objects t = some (object o)
  processors : ∀ p c, (.finish p, c) ∈ s.registered → s.objects p = some .processing ∧ p ≠ c
  coroutines : ∀ p c, c ∈ s.coroutines p → c.atWork = true → s.objects p = some .processing
  live : ∀ a, s.objects a ≠ none ↔ Owned s a ∨ Leaked h a
  kept : AllOk h → ∀ a, ¬ Leaked h a

/-- The tags and processors are safe to use in every state, the draining of the queue included. -/
theorem memory_safe (hs : after step start h = some s) : MemorySafe h s := by
  have hi : Accounted h s := after_invariant accounted_start (fun _ _ _ _ hi hstep => hi.step hstep) hs
  refine ⟨?_, fun o t hm => ?_, fun p c hm => ?_, fun p c hc hw => (hi.working p c hc hw).1, hi.live, not_leaked⟩
  · obtain ⟨hphase, -⟩ | ⟨hphase, -⟩ := hi.phase <;> simp [hphase]
  · cases o with
    | requestCheck => exact (hi.waiting t hm).1
    | finish p => exact (hi.finishing p t hm).1
  · obtain ⟨hc, hp, -⟩ := hi.finishing p c hm
    refine ⟨hp, ?_⟩
    rintro rfl
    cases hc.symm.trans hp

/-- The caller has gone when its answer is sent: the loop ends and the processor that waits is deleted, but not
the one of that call. -/
theorem memory_safe_cancelled :
    ∃ s, after step start (.deliver .requestCheck 1 false :: oneCall false) = some s ∧
      MemorySafe (.deliver .requestCheck 1 false :: oneCall false) s ∧
      s.objects 0 = some .processing ∧ s.objects 1 = none ∧ s.objects 2 = some (.complete 0) := by
  obtain ⟨s, hs, hobjects⟩ := (Option.any_eq_true _ _).mp
    (show (after step start (.deliver .requestCheck 1 false :: oneCall false)).any (fun s =>
      s.objects 0 = some .processing ∧ s.objects 1 = none ∧ s.objects 2 = some (.complete 0)) by decide +kernel)
  exact ⟨s, hs, memory_safe hs, of_decide_eq_true hobjects⟩

end AsyncAuthServiceImpl
end AuthService.Service
