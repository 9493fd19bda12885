import AuthService.Lib.Machine
import AuthService.Service.AsyncServiceImpl

/-! The loop over the completion queue: which calls wait, are worked on and are retired. -/
namespace AuthService.Service
open Lib

/-- Names of heap objects; none is given out twice. -/
abbrev Address := Nat

/-- The objects whose addresses are tags. -/
inductive ServiceState where
  | processing
  | complete (processor : Address)
  deriving DecidableEq, Repr

/-- What gRPC completes: the arrival of a call, or the sending of the answer to a processor's call. -/
inductive Operation where
  | requestCheck
  | finish (processor : Address)
  deriving DecidableEq, Repr

/-- How far a spawned coroutine has come. -/
inductive Coroutine where
  | launched
  | checked (response : CheckResponse)
  | finished (response : CheckResponse)
  deriving DecidableEq, Repr

/-- What the coroutine has got from `Check`. -/
@[simp] def Coroutine.checks : Coroutine → List CheckResponse
  | .launched => []
  | .checked response => [response]
  | .finished response => [response]

/-- What the coroutine has handed to `Finish`. -/
@[simp] def Coroutine.finishes : Coroutine → List Answer
  | .finished response => [⟨response, .ok⟩]
  | _ => []

/-- `crashed` stands for a call through a dangling tag. -/
inductive Phase where
  | serving
  | draining
  | crashed
  deriving DecidableEq, Repr

/-- The heap, the operations that gRPC has been given and has not completed, and the coroutines
spawned for each processor. -/
structure AsyncAuthServiceImpl where
  objects : Address → Option ServiceState
  fresh : Address
  registered : List (Operation × Address)
  coroutines : Address → List Coroutine
  phase : Phase

/-- What happens: the queue delivers an event, or a coroutine returns from `Check` with some
response or hands it to `Finish`. -/
inductive Action where
  | deliver (operation : Operation) (tag : Address) (ok : Bool)
  | check (processor : Address) (response : CheckResponse)
  | finish (processor : Address) (response : CheckResponse)
  deriving DecidableEq, Repr

namespace AsyncAuthServiceImpl

/-- An object is created and passed to gRPC as the tag of an operation. -/
def register (s : AsyncAuthServiceImpl) (object : ServiceState) (operation : Operation) : AsyncAuthServiceImpl :=
  { s with
    objects := Function.update s.objects s.fresh (some object)
    fresh := s.fresh + 1
    registered := (operation, s.fresh) :: s.registered }

/-- The constructor of `ProcessingState`. -/
def newProcessingState (s : AsyncAuthServiceImpl) : AsyncAuthServiceImpl := s.register .processing .requestCheck

def setCoroutines (s : AsyncAuthServiceImpl) (processor : Address) (cs : List Coroutine) : AsyncAuthServiceImpl :=
  { s with coroutines := Function.update s.coroutines processor cs }

def delete (s : AsyncAuthServiceImpl) (a : Address) : AsyncAuthServiceImpl :=
  { s with objects := Function.update s.objects a none }

/-- `Proceed`, by the class of the object the tag points to. -/
def proceed (s : AsyncAuthServiceImpl) (tag : Address) : AsyncAuthServiceImpl :=
  match s.objects tag with
  | some .processing => s.newProcessingState.setCoroutines tag (.launched :: s.coroutines tag)
  | some (.complete processor) => (s.delete processor).delete tag
  | none => { s with phase := .crashed }

/-- The body of the loop while serving, and of the loop that drains the queue afterwards. -/
def handle (s : AsyncAuthServiceImpl) (tag : Address) (ok : Bool) : AsyncAuthServiceImpl :=
  match s.phase with
  | .serving => if ok then s.proceed tag else { s with phase := .draining }
  | .draining => s.delete tag
  | .crashed => s

/-- The queue completes an operation, or a worker thread takes a coroutine one call further. -/
def step (s : AsyncAuthServiceImpl) : Action → Option AsyncAuthServiceImpl
  | .deliver operation tag ok =>
    if (operation, tag) ∈ s.registered then
      some (handle { s with registered := s.registered.erase (operation, tag) } tag ok)
    else none
  | .check processor response =>
    if .launched ∈ s.coroutines processor then
      some (s.setCoroutines processor (.checked response :: (s.coroutines processor).erase .launched))
    else none
  | .finish processor response =>
    if .checked response ∈ s.coroutines processor then
      some ((s.register (.complete processor) (.finish processor)).setCoroutines processor
        (.finished response :: (s.coroutines processor).erase (.checked response)))
    else none

/-- `Run` up to its loop. -/
def start : AsyncAuthServiceImpl :=
  newProcessingState
    { objects := fun _ => none, fresh := 0, registered := [], coroutines := fun _ => [], phase := .serving }

/-- The responses that the coroutines of a processor got from `Check`. -/
def checks (h : List Action) (processor : Address) : List CheckResponse :=
  h.filterMap fun
    | .check p response => if p = processor then some response else none
    | _ => none

/-- The answers that they handed to `Finish`. -/
def finishes (h : List Action) (processor : Address) : List Answer :=
  h.filterMap fun
    | .finish p response => if p = processor then some ⟨response, .ok⟩ else none
    | _ => none

/-- How often the queue has reported that the call of a processor arrived. -/
def arrivals (h : List Action) (processor : Address) : Nat := h.count (.deliver .requestCheck processor true)

/-- What is known while the loop serves: the one processor that waits for a call, the coroutines
that are at work on live processors, and the answered calls that are to be retired. -/
structure Inv (s : AsyncAuthServiceImpl) : Prop where
  phase : s.phase = .serving
  registered_lt : ∀ o a, (o, a) ∈ s.registered → a < s.fresh
  coroutines_lt : ∀ p, s.coroutines p ≠ [] → p < s.fresh
  nodup : (s.registered.map Prod.snd).Nodup
  waiting : ∃ p, s.registered.filter (·.1 = .requestCheck) = [(.requestCheck, p)] ∧
    s.objects p = some .processing ∧ s.coroutines p = []
  single : ∀ p, (s.coroutines p).length ≤ 1
  working : ∀ p, .launched ∈ s.coroutines p ∨ (∃ a, .checked a ∈ s.coroutines p) →
    s.objects p = some .processing ∧ ∀ c, (.finish p, c) ∉ s.registered
  finishing : ∀ p c, (.finish p, c) ∈ s.registered → s.objects c = some (.complete p) ∧
    s.objects p = some .processing ∧ (∃ a, s.coroutines p = [.finished a]) ∧ s.coroutines c = []
  unique : ∀ p c c', (.finish p, c) ∈ s.registered → (.finish p, c') ∈ s.registered → c = c'

theorem inv_start : Inv start where
  phase := rfl
  registered_lt := by simp [start, newProcessingState, register]
  coroutines_lt := by simp [start, newProcessingState, register]
  nodup := by simp [start, newProcessingState, register]
  waiting := ⟨0, by simp [start, newProcessingState, register]⟩
  single := by simp [start, newProcessingState, register]
  working := by simp [start, newProcessingState, register]
  finishing := by simp [start, newProcessingState, register]
  unique := by simp [start, newProcessingState, register]

variable {s : AsyncAuthServiceImpl}

/-- A tag of a call that arrived is the waiting processor. -/
theorem Inv.waiting_of_mem (hi : Inv s) {p : Address} (h : (.requestCheck, p) ∈ s.registered) :
    s.registered.filter (·.1 = .requestCheck) = [(.requestCheck, p)] ∧
      s.objects p = some .processing ∧ s.coroutines p = [] := by
  obtain ⟨q, hq, hrest⟩ := hi.waiting
  have hm : (Operation.requestCheck, p) ∈ s.registered.filter (·.1 = .requestCheck) := by simpa using h
  obtain rfl : p = q := by simpa [hq] using hm
  exact ⟨hq, hrest⟩

theorem Inv.exists_waiting (hi : Inv s) : ∃ p, (.requestCheck, p) ∈ s.registered ∧
    s.registered.filter (·.1 = .requestCheck) = [(.requestCheck, p)] ∧
      s.objects p = some .processing ∧ s.coroutines p = [] := by
  obtain ⟨p, hw, hrest⟩ := hi.waiting
  have hm : (Operation.requestCheck, p) ∈ s.registered.filter (·.1 = .requestCheck) := hw ▸ List.mem_singleton_self _
  exact ⟨p, (List.mem_filter.mp hm).1, hw, hrest⟩

/-- The state after the arrival of a call. -/
def arrived (s : AsyncAuthServiceImpl) (p : Address) : AsyncAuthServiceImpl where
  objects := Function.update s.objects s.fresh (some .processing)
  fresh := s.fresh + 1
  registered := (.requestCheck, s.fresh) :: s.registered.erase (.requestCheck, p)
  coroutines := Function.update s.coroutines p [.launched]
  phase := s.phase

/-- The state after the retirement of a call. -/
def retired (s : AsyncAuthServiceImpl) (p c : Address) : AsyncAuthServiceImpl where
  objects := Function.update (Function.update s.objects p none) c none
  fresh := s.fresh
  registered := s.registered.erase (.finish p, c)
  coroutines := s.coroutines
  phase := s.phase

theorem Inv.coroutines_of_mem (hi : Inv s) {p : Address} {c : Coroutine} (h : c ∈ s.coroutines p) :
    s.coroutines p = [c] := by
  have hl := hi.single p
  match hc : s.coroutines p with
  | [] => simp [hc] at h
  | [d] => simp_all
  | _ :: _ :: _ => simp [hc] at hl

/-- Every step that a serving loop can take, failed deliveries apart. -/
theorem step_cases (hi : Inv s) {a : Action} {s' : AsyncAuthServiceImpl} (h : s.step a = some s')
    (hok : ∀ o t ok, a = .deliver o t ok → ok = true) :
    (∃ p, a = .deliver .requestCheck p true ∧ (.requestCheck, p) ∈ s.registered ∧ s' = s.arrived p) ∨
    (∃ p c, a = .deliver (.finish p) c true ∧ (.finish p, c) ∈ s.registered ∧ s' = s.retired p c) ∨
    (∃ p response, a = .check p response ∧ s.coroutines p = [.launched] ∧
      s' = s.setCoroutines p [.checked response]) ∨
    ∃ p response, a = .finish p response ∧ s.coroutines p = [.checked response] ∧
      s' = (s.register (.complete p) (.finish p)).setCoroutines p [.finished response] := by
  cases a with
  | deliver o t ok =>
    obtain rfl : ok = true := hok o t ok rfl
    simp only [step] at h
    split at h
    · rename_i hm
      obtain rfl := Option.some.inj h
      cases o with
      | requestCheck =>
        obtain ⟨_, ho, hc⟩ := hi.waiting_of_mem hm
        refine .inl ⟨t, rfl, hm, ?_⟩
        simp [handle, hi.phase, proceed, ho, hc, newProcessingState, register, setCoroutines, arrived]
      | finish p =>
        obtain ⟨hc, _⟩ := hi.finishing p t hm
        refine .inr (.inl ⟨p, t, rfl, hm, ?_⟩)
        simp [handle, hi.phase, proceed, hc, delete, retired]
    · cases h
  | check p response =>
    simp only [step] at h
    split at h
    · rename_i hm
      have hc := hi.coroutines_of_mem hm
      refine .inr (.inr (.inl ⟨p, response, rfl, hc, ?_⟩))
      simpa [hc] using h.symm
    · cases h
  | finish p response =>
    simp only [step] at h
    split at h
    · rename_i hm
      have hc := hi.coroutines_of_mem hm
      refine .inr (.inr (.inr ⟨p, response, rfl, hc, ?_⟩))
      simpa [hc] using h.symm
    · cases h

theorem Inv.mem_erase (hi : Inv s) {o o' : Operation} {a a' : Address} (hm : (o, a) ∈ s.registered)
    (h : (o', a') ∈ s.registered.erase (o, a)) : (o', a') ∈ s.registered ∧ a' ≠ a := by
  obtain ⟨hne, hm'⟩ := (hi.nodup.of_map Prod.snd).mem_erase_iff.mp h
  refine ⟨hm', fun ha => hne ?_⟩
  exact List.inj_on_of_nodup_map hi.nodup hm' hm ha

theorem Inv.coroutines_fresh (hi : Inv s) : s.coroutines s.fresh = [] := by
  by_contra h
  exact absurd (hi.coroutines_lt _ h) (lt_irrefl _)

theorem Inv.nodup_register (hi : Inv s) {l : List (Operation × Address)} (hl : l.Sublist s.registered)
    (o : Operation) : (((o, s.fresh) :: l).map Prod.snd).Nodup := by
  simp only [List.map_cons, List.nodup_cons]
  refine ⟨fun h => ?_, hi.nodup.sublist (hl.map _)⟩
  obtain ⟨⟨o, a⟩, hx, rfl⟩ := List.mem_map.mp h
  exact absurd (hi.registered_lt o _ (hl.subset hx)) (lt_irrefl _)

theorem Inv.arrived (hi : Inv s) {p : Address} (hm : (.requestCheck, p) ∈ s.registered) : Inv (s.arrived p) := by
  obtain ⟨hw, ho, hc⟩ := hi.waiting_of_mem hm
  have hp := hi.registered_lt _ _ hm
  have hfresh := hi.coroutines_fresh
  have hold {o a} (h : (o, a) ∈ s.registered.erase (.requestCheck, p)) : (o, a) ∈ s.registered ∧ a ≠ p :=
    hi.mem_erase hm h
  have hnodup := hi.nodup_register (List.erase_sublist (a := (.requestCheck, p))) .requestCheck
  obtain ⟨hphase, hlt, hclt, _, _, hsingle, hwork, hfin, huniq⟩ := hi
  constructor <;> simp only [AsyncAuthServiceImpl.arrived]
  case phase => exact hphase
  case registered_lt => grind
  case coroutines_lt => grind
  case nodup => exact hnodup
  case waiting =>
    refine ⟨s.fresh, ?_, ?_, ?_⟩
    · simp [← List.erase_filter, hw]
    · simp
    · rw [Function.update_of_ne hp.ne', hfresh]
  case single => grind
  case working => grind
  case finishing => grind
  case unique => grind

theorem Inv.retired (hi : Inv s) {p c : Address} (hm : (.finish p, c) ∈ s.registered) : Inv (s.retired p c) := by
  obtain ⟨ho, hp, ⟨a, hfin⟩, hc⟩ := hi.finishing p c hm
  obtain ⟨q, hqm, hw, hq, hqc⟩ := hi.exists_waiting
  have hold {o a} (h : (o, a) ∈ s.registered.erase (.finish p, c)) : (o, a) ∈ s.registered ∧ a ≠ c :=
    hi.mem_erase hm h
  obtain ⟨hphase, hlt, hclt, hnodup, _, hsingle, hwork, hfinish, huniq⟩ := hi
  constructor <;> simp only [AsyncAuthServiceImpl.retired]
  case phase => exact hphase
  case registered_lt => grind
  case coroutines_lt => exact hclt
  case nodup => exact hnodup.sublist (List.erase_sublist.map _)
  case waiting =>
    refine ⟨q, ?_, ?_, hqc⟩
    · rw [← List.erase_filter, hw]
      simp
    · have hqp : q ≠ p := fun h => by simp [h, hfin] at hqc
      have hqc : q ≠ c := fun h => by simp [h, ho] at hq
      rw [Function.update_of_ne hqc, Function.update_of_ne hqp, hq]
  case single => exact hsingle
  case working => grind
  case finishing => grind
  case unique => grind

theorem Inv.checked (hi : Inv s) {p : Address} {response : CheckResponse} (h : s.coroutines p = [.launched]) :
    Inv (s.setCoroutines p [.checked response]) := by
  obtain ⟨hphase, hlt, hclt, hnodup, hwait, hsingle, hwork, hfin, huniq⟩ := hi
  constructor <;> simp only [setCoroutines]
  case phase => exact hphase
  case registered_lt => exact hlt
  case coroutines_lt => grind
  case nodup => exact hnodup
  case waiting => grind
  case single => grind
  case working => grind
  case finishing => grind
  case unique => exact huniq

theorem Inv.finished (hi : Inv s) {p : Address} {response : CheckResponse} (h : s.coroutines p = [.checked response]) :
    Inv ((s.register (.complete p) (.finish p)).setCoroutines p [.finished response]) := by
  have hp : p < s.fresh := hi.coroutines_lt p (by simp [h])
  obtain ⟨hobj, hno⟩ := hi.working p (.inr ⟨response, by simp [h]⟩)
  have hfresh := hi.coroutines_fresh
  obtain ⟨q, hqm, hw, hq, hqc⟩ := hi.exists_waiting
  have hqlt := hi.registered_lt _ _ hqm
  have hnodup := hi.nodup_register (List.Sublist.refl _) (.finish p)
  obtain ⟨hphase, hlt, hclt, _, _, hsingle, hwork, hfin, huniq⟩ := hi
  constructor <;> simp only [register, setCoroutines]
  case phase => exact hphase
  case registered_lt => grind
  case coroutines_lt => grind
  case nodup => exact hnodup
  case waiting =>
    have hqp : q ≠ p := fun hn => by simp [hn, h] at hqc
    refine ⟨q, ?_, ?_, ?_⟩
    · simpa using hw
    · rw [Function.update_of_ne hqlt.ne, hq]
    · rw [Function.update_of_ne hqp, hqc]
  case single => grind
  case working => grind
  case finishing => grind
  case unique => grind

/-- The coroutines account for the history. -/
structure Traced (h : List Action) (s : AsyncAuthServiceImpl) : Prop where
  arrivals : ∀ p, arrivals h p = (s.coroutines p).length
  checks : ∀ p, checks h p = (s.coroutines p).flatMap Coroutine.checks
  finishes : ∀ p, finishes h p = (s.coroutines p).flatMap Coroutine.finishes

/-- No operation has been completed with an error. -/
def AllOk (h : List Action) : Prop := ∀ o t ok, .deliver o t ok ∈ h → ok = true

variable {h : List Action} {p q : Address} {response : CheckResponse} {o : Operation} {t : Address} {ok : Bool}

@[simp] theorem arrivals_check : arrivals (.check p response :: h) q = arrivals h q := by simp [arrivals]

@[simp] theorem arrivals_finish : arrivals (.finish p response :: h) q = arrivals h q := by simp [arrivals]

@[simp] theorem arrivals_requestCheck :
    arrivals (.deliver .requestCheck p true :: h) q = arrivals h q + if p = q then 1 else 0 := by
  simp [arrivals, List.count_cons]

@[simp] theorem checks_deliver : checks (.deliver o t ok :: h) q = checks h q := rfl

@[simp] theorem checks_finish : checks (.finish p response :: h) q = checks h q := rfl

@[simp] theorem checks_check :
    checks (.check p response :: h) q = (if p = q then [response] else []) ++ checks h q := by
  by_cases hq : p = q <;> simp [checks, hq]

@[simp] theorem finishes_deliver : finishes (.deliver o t ok :: h) q = finishes h q := rfl

@[simp] theorem finishes_check : finishes (.check p response :: h) q = finishes h q := rfl

@[simp] theorem finishes_finish :
    finishes (.finish p response :: h) q = (if p = q then [⟨response, .ok⟩] else []) ++ finishes h q := by
  by_cases hq : p = q <;> simp [finishes, hq]

theorem Traced.step (hi : Inv s) {h : List Action} (ht : Traced h s) {a : Action} {s' : AsyncAuthServiceImpl}
    (hs : s.step a = some s') (hok : ∀ o t ok, a = .deliver o t ok → ok = true) : Traced (a :: h) s' := by
  rcases step_cases hi hs hok with ⟨p, rfl, hm, rfl⟩ | ⟨p, c, rfl, hm, rfl⟩ | ⟨p, response, rfl, hc, rfl⟩ |
    ⟨p, response, rfl, hc, rfl⟩
  · obtain ⟨_, _, hc⟩ := hi.waiting_of_mem hm
    refine ⟨fun q => ?_, fun q => ?_, fun q => ?_⟩ <;> obtain rfl | hq := eq_or_ne q p
    all_goals simp [*, ht.arrivals, ht.checks, ht.finishes, Ne.symm, AsyncAuthServiceImpl.arrived]
  · exact ⟨fun q => ht.arrivals q, fun q => ht.checks q, fun q => ht.finishes q⟩
  · refine ⟨fun q => ?_, fun q => ?_, fun q => ?_⟩ <;> obtain rfl | hq := eq_or_ne q p
    all_goals simp [*, ht.arrivals, ht.checks, ht.finishes, Ne.symm, setCoroutines]
  · refine ⟨fun q => ?_, fun q => ?_, fun q => ?_⟩ <;> obtain rfl | hq := eq_or_ne q p
    all_goals simp [*, ht.arrivals, ht.checks, ht.finishes, Ne.symm, setCoroutines, register]

theorem Inv.step (hi : Inv s) {a : Action} {s' : AsyncAuthServiceImpl} (hs : s.step a = some s')
    (hok : ∀ o t ok, a = .deliver o t ok → ok = true) : Inv s' := by
  rcases step_cases hi hs hok with ⟨p, rfl, hm, rfl⟩ | ⟨p, c, rfl, hm, rfl⟩ | ⟨p, response, rfl, hc, rfl⟩ |
    ⟨p, response, rfl, hc, rfl⟩
  · exact hi.arrived hm
  · exact hi.retired hm
  · exact hi.checked hc
  · exact hi.finished hc

/-- A loop that has stopped serving does not start again. -/
theorem serving_of_step {a : Action} {s' : AsyncAuthServiceImpl} (hs : s.step a = some s')
    (hp : s'.phase = .serving) : s.phase = .serving ∧ ∀ o t ok, a = .deliver o t ok → ok = true := by
  cases a with
  | deliver o t ok =>
    simp only [AsyncAuthServiceImpl.step] at hs
    split at hs
    · obtain rfl := Option.some.inj hs
      cases hphase : s.phase <;> cases ok <;> simp [handle, hphase, delete] at hp ⊢
    · cases hs
  | check p response =>
    simp only [AsyncAuthServiceImpl.step] at hs
    split at hs
    · obtain rfl := Option.some.inj hs
      exact ⟨hp, nofun⟩
    · cases hs
  | finish p response =>
    simp only [AsyncAuthServiceImpl.step] at hs
    split at hs
    · obtain rfl := Option.some.inj hs
      exact ⟨hp, nofun⟩
    · cases hs

theorem allOk_cons {h : List Action} {a : Action} :
    AllOk (a :: h) ↔ (∀ o t ok, a = .deliver o t ok → ok = true) ∧ AllOk h := by
  constructor
  · intro hall
    refine ⟨fun o t ok ha => hall o t ok (ha ▸ List.mem_cons_self), fun o t ok hm => ?_⟩
    exact hall o t ok (List.mem_cons_of_mem _ hm)
  · rintro ⟨ha, hh⟩ o t ok hm
    rcases List.mem_cons.mp hm with hfirst | hm
    · exact ha o t ok hfirst.symm
    · exact hh o t ok hm

/-- The loop serves: one processor waits for a call, every call that arrived has one coroutine with
its one `Check` and its one `Finish`, and an answered call is retired alone. -/
structure KeepsServing (h : List Action) (s : AsyncAuthServiceImpl) : Prop where
  serving : s.phase = .serving
  waiting : ∃ p, s.registered.filter (·.1 = .requestCheck) = [(.requestCheck, p)] ∧
    s.objects p = some .processing ∧ arrivals h p = 0
  spawned : ∀ p, arrivals h p = 1 → ∃ c, s.coroutines p = [c] ∧ checks h p = c.checks ∧ finishes h p = c.finishes
  unspawned : ∀ p, arrivals h p ≠ 1 → s.coroutines p = [] ∧ checks h p = [] ∧ finishes h p = []
  retires : ∀ p c s', s.step (.deliver (.finish p) c true) = some s' →
    (∃ response, finishes h p = [⟨response, .ok⟩]) ∧ s.objects p = some .processing ∧ s.objects c = some (.complete p) ∧
      s'.objects p = none ∧ s'.objects c = none ∧ (∀ a, a ≠ p → a ≠ c → s'.objects a = s.objects a) ∧
      s'.registered = s.registered.erase (.finish p, c) ∧ s'.coroutines = s.coroutines

private theorem keepsServing_of_inv (hi : Inv s) (ht : Traced h s) : KeepsServing h s := by
  refine ⟨hi.phase, ?_, fun p hp => ?_, fun p hp => ?_, fun p c s' hs => ?_⟩
  · obtain ⟨p, hw, ho, hc⟩ := hi.waiting
    exact ⟨p, hw, ho, by simp [ht.arrivals, hc]⟩
  · obtain ⟨c, hc⟩ := List.length_eq_one_iff.mp (ht.arrivals p ▸ hp)
    exact ⟨c, hc, by simp [ht.checks, hc], by simp [ht.finishes, hc]⟩
  · have hl := hi.single p
    have hc : s.coroutines p = [] := by
      rw [ht.arrivals] at hp
      exact List.length_eq_zero_iff.mp (by omega)
    exact ⟨hc, by simp [ht.checks, hc], by simp [ht.finishes, hc]⟩
  · obtain ⟨_, he, _⟩ | ⟨q, d, he, hm, rfl⟩ | ⟨_, _, he, _⟩ | ⟨_, _, he, _⟩ :=
      step_cases hi hs fun o t ok h => (Action.deliver.inj h).2.2.symm
    · cases he
    · obtain ⟨hq, rfl, -⟩ := Action.deliver.inj he
      obtain rfl := Operation.finish.inj hq
      obtain ⟨hc, hp, ⟨response, hfin⟩, _⟩ := hi.finishing _ _ hm
      refine ⟨⟨response, by simp [ht.finishes, hfin]⟩, hp, hc, ?_, ?_, fun a hap hac => ?_, rfl, rfl⟩
      · simp only [retired, Function.update_apply]
        split <;> simp
      · simp [retired]
      · simp [retired, hap, hac]
    · cases he
    · cases he

/-- The loop keeps serving exactly as long as every operation is completed without an error. -/
theorem keepsServing_iff (hs : after step start h = some s) : KeepsServing h s ↔ AllOk h := by
  constructor
  · intro hk
    refine after_invariant (P := fun h s => s.phase = .serving → AllOk h) (fun _ => nofun) ?_ hs hk.serving
    intro h s a s' ih hstep hp
    obtain ⟨hphase, hok⟩ := serving_of_step hstep hp
    exact allOk_cons.mpr ⟨hok, ih hphase⟩
  · intro hok
    have hinv : Inv s ∧ Traced h s := by
      refine after_invariant (P := fun h s => AllOk h → Inv s ∧ Traced h s) (fun _ => ⟨inv_start, ?_⟩) ?_ hs hok
      · exact ⟨fun _ => rfl, fun _ => rfl, fun _ => rfl⟩
      · intro h s a s' ih hstep hok
        obtain ⟨ha, hh⟩ := allOk_cons.mp hok
        obtain ⟨hi, ht⟩ := ih hh
        exact ⟨hi.step hstep ha, ht.step hi hstep ha⟩
    exact keepsServing_of_inv hinv.1 hinv.2

/-- One call is answered; its caller is still there, or has gone. -/
def oneCall (ok : Bool) : List Action :=
  [.deliver (.finish 0) 2 ok, .finish 0 .empty, .check 0 .empty, .deliver .requestCheck 0 true]

theorem keepsServing_oneCall : ∃ s, after step start (oneCall true) = some s ∧ KeepsServing (oneCall true) s := by
  obtain ⟨s, hs⟩ := Option.isSome_iff_exists.mp (show (after step start (oneCall true)).isSome by decide +kernel)
  refine ⟨s, hs, (keepsServing_iff hs).mpr ?_⟩
  intro o t ok hm
  simp only [oneCall, List.mem_cons, Action.deliver.injEq, reduceCtorEq, false_or, List.not_mem_nil, or_false] at hm
  rcases hm with ⟨_, _, rfl⟩ | ⟨_, _, rfl⟩ <;> rfl

/-- The response to a caller who has gone stops the loop. -/
theorem cancelled_call_stops_loop :
    ∃ s, after step start (oneCall false) = some s ∧ ¬ KeepsServing (oneCall false) s := by
  obtain ⟨s, hs, hp⟩ := (Option.any_eq_true _ _).mp
    (show (after step start (oneCall false)).any (fun s => s.phase = .draining) by decide +kernel)
  refine ⟨s, hs, fun h => ?_⟩
  cases h.serving.symm.trans (of_decide_eq_true hp)

end AsyncAuthServiceImpl
end AuthService.Service
