import AuthService.Filters.FilterChain
import AuthService.Lib.Interleaving

/-! `FilterChainImpl::New` step by step, called by several workers for one chain. The null test,
the assignment and the read of the session store's pointer are its calls. -/
namespace AuthService.Filters
open Lib Config Oidc

inductive PointerOp where
  | isNull
  | assign (absoluteSessionTimeout idleSessionTimeout : UInt32)
  | load
  deriving DecidableEq

abbrev PointerOp.Res : PointerOp → Type
  | .isNull => Bool
  | .assign _ _ => Unit
  | .load => Option Nat

/-- The pointer is the position of a store among all that were made for the chain. -/
structure StorePointer where
  oidcSessionStore : Option Nat
  stores : List InMemorySessionStore

def PointerOp.exec : (o : PointerOp) → StorePointer → o.Res × StorePointer
  | .isNull, s => (s.oidcSessionStore.isNone, s)
  | .assign absolute idle, s => ((), ⟨some s.stores.length, s.stores ++ [.create absolute idle]⟩)
  | .load, s => (s.oidcSessionStore, s)

/-- A filter of the pipe, with the store it was handed. -/
abbrev BuiltFilter := OIDCConfig × Option Nat

abbrev Building := Program Unit PointerOp.Res

namespace FilterChainImpl

def newProgramLoop : List Filter → (pipe : List BuiltFilter) → Building (Except Exn (List BuiltFilter))
  | [], pipe => pure (.ok pipe)
  | filter :: filters, pipe =>
    match filter.oidc? with
    | none => pure (.error (.runtimeError (text "unsupported filter type")))
    | some oidc =>
      if pipe.length + 1 > 1 then
        pure (.error (.runtimeError (text "only one filter of type \"oidc\" is allowed in a chain")))
      else do
        if ← Program.perform PointerOp.isNull then
          Program.perform (PointerOp.assign oidc.absoluteSessionTimeout oidc.idleSessionTimeout)
        let store ← Program.perform PointerOp.load
        newProgramLoop filters (pipe ++ [(oidc, store)])

def newProgram (config : FilterChain) : Building (Except Exn (List BuiltFilter)) := newProgramLoop config.filters []

end FilterChainImpl

namespace StorePointer

/-- The store pointed to. -/
def target (s : StorePointer) : Option InMemorySessionStore := s.oidcSessionStore.bind (s.stores[·]?)

/-- The store a filter was handed. -/
def store? (s : StorePointer) (f : BuiltFilter) : Option InMemorySessionStore := f.2.bind (s.stores[·]?)

/-- A filter's operation on the store it was handed. -/
def perform (s : StorePointer) (f : BuiltFilter) (now : Int) (x : External) (o : Op) : StorePointer :=
  { s with stores := f.2.elim s.stores fun i => s.stores.modify i fun store => (o.exec now x store).2 }

/-- A pointer that is not null points to a store. -/
def Sound (s : StorePointer) : Prop := ∀ i, s.oidcSessionStore = some i → i < s.stores.length

end StorePointer

private theorem run_newProgramLoop (filters : List Filter) (pipe : List BuiltFilter) (s : StorePointer) (hs : s.Sound) :
    let run := (FilterChainImpl.newProgramLoop filters pipe).run () PointerOp.exec s
    run.1.map (·.map Prod.fst) = (FilterChainImpl.newLoop filters (pipe.map Prod.fst) s.target).1 ∧
      run.2.target = (FilterChainImpl.newLoop filters (pipe.map Prod.fst) s.target).2 ∧ run.2.Sound := by
  induction filters generalizing pipe s with
  | nil => exact ⟨rfl, rfl, hs⟩
  | cons filter filters ih =>
    unfold FilterChainImpl.newProgramLoop FilterChainImpl.newLoop
    cases filter.oidc? with
    | none => exact ⟨rfl, rfl, hs⟩
    | some oidc =>
      dsimp only
      rw [List.length_map]
      split
      · exact ⟨rfl, rfl, hs⟩
      · cases hp : s.oidcSessionStore with
        | none =>
          have hnew : (⟨some s.stores.length,
              s.stores ++ [.create oidc.absoluteSessionTimeout oidc.idleSessionTimeout]⟩ : StorePointer).Sound := by
            rintro i ⟨⟩
            simp
          have ih := ih (pipe ++ [(oidc, some s.stores.length)]) _ hnew
          simpa [PointerOp.exec, hp, StorePointer.target] using ih
        | some i =>
          have ih := ih (pipe ++ [(oidc, some i)]) s hs
          have hi := hs i hp
          simpa [PointerOp.exec, hp, StorePointer.target, hi] using ih

/-- Called alone, the steps are `New`. -/
theorem run_newProgram (config : FilterChain) (s : StorePointer) (hs : s.Sound) :
    let run := (FilterChainImpl.newProgram config).run () PointerOp.exec s
    run.1.map (·.map Prod.fst) = (FilterChainImpl.new ⟨config, s.target⟩).1 ∧
      run.2.target = (FilterChainImpl.new ⟨config, s.target⟩).2.oidcSessionStore := by
  obtain ⟨hpipe, htarget, -⟩ := run_newProgramLoop config.filters [] s hs
  exact ⟨hpipe, htarget⟩

section Workers

abbrev PointerLog := List (Program.Called Unit PointerOp.Res)
abbrev PointerEvent := Event Nat Unit Empty Unit PointerOp.Res

/-- The calling thread has found the pointer set, or has set it. -/
def Established (log : PointerLog) : Prop :=
  (⟨.isNull, false, ()⟩ : Program.Called Unit PointerOp.Res) ∈ log ∨
    ∃ absolute idle, (⟨.assign absolute idle, (), ()⟩ : Program.Called Unit PointerOp.Res) ∈ log

/-- The pointer is read only when it has been set. -/
def Reads (log : PointerLog) (o : PointerOp) : Prop := o = .load → Established log

/-- Every filter holds a store that was read for it. -/
def Holds (_ : Unit) (log : PointerLog) (result : Except Exn (List BuiltFilter)) : Prop :=
  ∀ pipe, result = .ok pipe → ∀ f ∈ pipe, (⟨.load, f.2, ()⟩ : Program.Called Unit PointerOp.Res) ∈ log

private theorem newProgramLoop_follows (filters : List Filter) (pipe : List BuiltFilter) (log : PointerLog)
    (hp : ∀ f ∈ pipe, (⟨.load, f.2, ()⟩ : Program.Called Unit PointerOp.Res) ∈ log) :
    (FilterChainImpl.newProgramLoop filters pipe).Follows Reads Holds () log := by
  induction filters generalizing pipe log with
  | nil =>
    rintro pipe' ⟨⟩
    exact hp
  | cons filter filters ih =>
    unfold FilterChainImpl.newProgramLoop
    cases filter.oidc? with
    | none => exact fun pipe' h => by cases h
    | some oidc =>
      dsimp only
      split
      · exact fun pipe' h => by cases h
      · have hload (log' : PointerLog) (hlog : ∀ c ∈ log, c ∈ log') (he : Established log') :
            (Program.perform PointerOp.load >>= fun store =>
              FilterChainImpl.newProgramLoop filters (pipe ++ [(oidc, store)])).Follows Reads Holds () log' := by
          refine ⟨fun _ => he, fun store e => ih _ _ fun f hf => ?_⟩
          rcases List.mem_append.mp hf with hf | hf
          · exact List.mem_cons_of_mem _ (hlog _ (hp f hf))
          · obtain rfl := List.mem_singleton.mp hf
            exact List.mem_cons_self
        refine ⟨nofun, fun isNull e => ?_⟩
        cases isNull with
        | true =>
          refine ⟨nofun, fun _ e => hload _ (fun c hc => by simp [hc]) (.inr ⟨_, _, List.mem_cons_self⟩)⟩
        | false => exact hload _ (fun c hc => by simp [hc]) (.inl List.mem_cons_self)

/-- Any number of workers that build filters for one chain. -/
def workers (config : FilterChain) :
    System Nat Unit Empty Unit Unit PointerOp.Res StorePointer (Except Exn (List BuiltFilter)) where
  program _ := FilterChainImpl.newProgram config
  exec _ _ _ o s := o.exec s
  tick u := nomatch u
  init := ⟨none, []⟩

/-- An assignment finds that no call has read the pointer for a filter yet. -/
def AssignsUnread (h : List PointerEvent) (_ : StorePointer) (ev : PointerEvent) : Prop :=
  ∀ t absolute idle e, ev = .call t () (.assign absolute idle) () e → ∀ t' r e', .call t' () .load r e' ∉ h

/-- The reads made so far gave the store that the pointer holds now. -/
structure OneStore (h : List PointerEvent) (s : StorePointer) : Prop where
  loads : ∀ t r e, .call t () .load r e ∈ h → r.isSome ∧ r = s.oidcSessionStore
  found : ∀ t e, .call t () .isNull false e ∈ h → s.oidcSessionStore.isSome
  assigned : ∀ t absolute idle e, .call t () (.assign absolute idle) () e ∈ h → s.oidcSessionStore.isSome

variable {config : FilterChain} {h : List PointerEvent}
  {p : Pool Nat Unit Unit PointerOp.Res StorePointer (Except Exn (List BuiltFilter))}

private theorem workers_follow (config : FilterChain) (j e : Unit) :
    ((workers config).program j).Follows Reads Holds e [] :=
  newProgramLoop_follows config.filters [] [] (by simp)

private theorem OneStore.isSome_of_established {s : StorePointer} (hi : OneStore h s) {t : Nat} {j : Unit}
    (hw : System.Owns h t j) (he : Established (System.log t h)) : s.oidcSessionStore.isSome := by
  have hmem (c : Program.Called Unit PointerOp.Res) (hc : c ∈ System.log t h) : System.event Empty t j c ∈ h :=
    (System.log_sublist hw.own).subset (List.mem_map_of_mem hc)
  rcases he with he | ⟨absolute, idle, he⟩
  · exact hi.found t () (hmem _ he)
  · exact hi.assigned t absolute idle () (hmem _ he)

private theorem OneStore.call {s : StorePointer} {t : Nat} {o : PointerOp} (hi : OneStore h s)
    (hw : System.Owns h t ()) (ho : Reads (System.log t h) o)
    (hc : AssignsUnread h s (.call t () o (o.exec s).1 ())) :
    OneStore (.call t () o (o.exec s).1 () :: h) (o.exec s).2 := by
  cases o with
  | isNull =>
    refine ⟨fun t' r e hm => ?_, fun t' e hm => ?_, fun t' a i e hm => ?_⟩
    · exact hi.loads t' r e (by simpa using hm)
    · rcases List.mem_cons.mp hm with hm | hm
      · obtain ⟨-, -, -, hres, -⟩ := Event.call.inj hm
        have hres : false = s.oidcSessionStore.isNone := eq_of_heq hres
        exact Option.isNone_eq_false_iff.mp hres.symm
      · exact hi.found t' e hm
    · exact hi.assigned t' a i e (by simpa using hm)
  | assign absolute idle =>
    -- the store that this one replaces was handed to nobody
    refine ⟨fun t' r e hm => ?_, fun _ _ _ => rfl, fun _ _ _ _ _ => rfl⟩
    exact absurd (by simpa using hm) (hc t absolute idle () rfl t' r e)
  | load =>
    have hset := hi.isSome_of_established hw (ho rfl)
    refine ⟨fun t' r e hm => ?_, fun t' e hm => ?_, fun t' a i e hm => ?_⟩
    · rcases List.mem_cons.mp hm with hm | hm
      · obtain ⟨-, -, -, hres, -⟩ := Event.call.inj hm
        obtain rfl : r = s.oidcSessionStore := eq_of_heq hres
        exact ⟨hset, rfl⟩
      · exact hi.loads t' r e hm
    · exact hi.found t' e (by simpa using hm)
    · exact hi.assigned t' a i e (by simpa using hm)

private theorem oneStore_run (hr : (workers config).Run AssignsUnread h p) : OneStore h p.shared := by
  refine hr.invariant OneStore (workers_follow config) ?_ ?_ ?_ ?_
  · exact ⟨by simp, by simp, by simp⟩
  · intro t j e h s hi _
    exact ⟨fun t' r e hm => hi.loads t' r e (by simpa using hm), fun t' e hm => hi.found t' e (by simpa using hm),
      fun t' a i e hm => hi.assigned t' a i e (by simpa using hm)⟩
  · intro t j o e a h s hi hw ho hc
    exact hi.call hw ho hc
  · exact fun u => nomatch u

/-- A filter that one of the calls has returned. -/
def Returned (p : Pool Nat Unit Unit PointerOp.Res StorePointer (Except Exn (List BuiltFilter))) (f : BuiltFilter) :
    Prop :=
  ∃ t pipe, p.answer? t = some ((), .ok pipe) ∧ f ∈ pipe

/-- All filters returned so far share one store, and each finds there what any of them writes. -/
structure SharesStore (p : Pool Nat Unit Unit PointerOp.Res StorePointer (Except Exn (List BuiltFilter))) : Prop where
  one : ∃ store, ∀ f, Returned p f → f.2 = some store
  visible : ∀ f f', Returned p f → Returned p f' → ∀ now x o,
    (p.shared.perform f now x o).store? f' = (p.shared.store? f).map fun store => (o.exec now x store).2

/-- All filters ever returned for a chain share one store, in every run in which no call assigns the
pointer after a call has read it. -/
theorem filters_share_store (config : FilterChain) (h : List PointerEvent)
    (p : Pool Nat Unit Unit PointerOp.Res StorePointer (Except Exn (List BuiltFilter)))
    (hr : (workers config).Run AssignsUnread h p) : SharesStore p := by
  have hone := oneStore_run hr
  have hholds (f : BuiltFilter) (hf : Returned p f) : f.2.isSome ∧ f.2 = p.shared.oidcSessionStore := by
    obtain ⟨t, pipe, ht, hf⟩ := hf
    obtain ⟨hw, e, hends⟩ := (hr.onTrack (workers_follow config)).running (Pool.answer?_eq_some.mp ht)
    have hload : (⟨.load, f.2, ()⟩ : Program.Called Unit PointerOp.Res) ∈ System.log t h := hends pipe rfl f hf
    exact hone.loads t f.2 () ((System.log_sublist hw.own).subset (List.mem_map_of_mem hload))
  constructor
  · refine ⟨p.shared.oidcSessionStore.getD 0, fun f hf => ?_⟩
    obtain ⟨hsome, heq⟩ := hholds f hf
    obtain ⟨store, hstore⟩ := Option.isSome_iff_exists.mp hsome
    rw [← heq, hstore]
    rfl
  · intro f f' hf hf' now x o
    obtain ⟨store, hstore⟩ := Option.isSome_iff_exists.mp (hholds f hf).1
    have hstore' : f'.2 = some store := (hholds f' hf').2.trans ((hholds f hf).2.symm.trans hstore)
    simp [StorePointer.store?, StorePointer.perform, hstore, hstore']

private def lazyOidc : OIDCConfig := { (default : OIDCConfig) with idleSessionTimeout := 300 }

private def lazyChain : FilterChain := ⟨text "chain", none, [⟨some lazyOidc⟩]⟩

/-- One call after the other. -/
private def inTurn : List (Action Nat Unit Empty Unit Unit) :=
  [.spawn 0 () (), .call 0 () (), .call 0 () (), .call 0 () (), .spawn 1 () (), .call 1 () (), .call 1 () ()]

/-- Two calls that both find the pointer null. -/
private def overlapping : List (Action Nat Unit Empty Unit Unit) :=
  [.spawn 0 () (), .spawn 1 () (), .call 0 () (), .call 1 () (), .call 0 () (), .call 0 () (), .call 1 () (),
    .call 1 () ()]

private def isLoad : PointerEvent → Bool
  | .call _ _ .load _ _ => true
  | _ => false

private def assignsUnread (h : List PointerEvent) (_ : StorePointer) : PointerEvent → Bool
  | .call _ _ (.assign _ _) _ _ => h.all (!isLoad ·)
  | _ => true

private theorem assignsUnread_of_test (h : List PointerEvent) (s : StorePointer) (ev : PointerEvent)
    (ht : assignsUnread h s ev = true) : AssignsUnread h s ev := by
  rintro t absolute idle e rfl t' r e' hm
  simpa [isLoad] using List.all_eq_true.mp ht _ hm

private def handed (p : Pool Nat Unit Unit PointerOp.Res StorePointer (Except Exn (List BuiltFilter))) (t : Nat) :
    Option (List (Option Nat)) :=
  match p.answer? t with
  | some (_, .ok pipe) => some (pipe.map Prod.snd)
  | _ => none

private theorem answer_of_handed
    {p : Pool Nat Unit Unit PointerOp.Res StorePointer (Except Exn (List BuiltFilter))} {t : Nat} {store : Option Nat}
    (hh : handed p t = some [store]) : ∃ oidc, p.answer? t = some ((), .ok [(oidc, store)]) := by
  unfold handed at hh
  split at hh
  · rename_i j pipe ha
    obtain ⟨⟨oidc, store'⟩, rfl, rfl⟩ := List.map_eq_singleton_iff.mp (Option.some.inj hh)
    exact ⟨oidc, ha⟩
  · cases hh

theorem filters_share_store_in_turn : ∃ (h : List PointerEvent)
    (p : Pool Nat Unit Unit PointerOp.Res StorePointer (Except Exn (List BuiltFilter))) (store : Nat)
    (oidc₀ oidc₁ : OIDCConfig), (workers lazyChain).Run AssignsUnread h p ∧
      p.answer? 0 = some ((), .ok [(oidc₀, some store)]) ∧ p.answer? 1 = some ((), .ok [(oidc₁, some store)]) := by
  obtain ⟨h, p, hr, hc⟩ := System.exists_run (show ((workers lazyChain).replay assignsUnread inTurn
    ([], (workers lazyChain).start)).any (fun c =>
      handed c.2 0 == some [some 0] && handed c.2 1 == some [some 0]) = true by decide +kernel)
  simp only [Bool.and_eq_true, beq_iff_eq] at hc
  obtain ⟨h₀, h₁⟩ := hc
  have hr := hr.mono assignsUnread_of_test
  obtain ⟨oidc₀, ha₀⟩ := answer_of_handed h₀
  obtain ⟨oidc₁, ha₁⟩ := answer_of_handed h₁
  obtain ⟨store, hshare⟩ := (filters_share_store lazyChain h p hr).one
  have hstore₀ := hshare _ ⟨0, _, ha₀, List.mem_cons_self⟩
  have hstore₁ := hshare _ ⟨1, _, ha₁, List.mem_cons_self⟩
  exact ⟨h, p, store, oidc₀, oidc₁, hr, hstore₀ ▸ ha₀, hstore₁ ▸ ha₁⟩

/-- Two workers that both find the pointer null hand out two stores. -/
theorem overlapping_calls_two_stores :
    ¬ ∀ (config : FilterChain) (h : List PointerEvent)
      (p : Pool Nat Unit Unit PointerOp.Res StorePointer (Except Exn (List BuiltFilter))),
      (workers config).Run (fun _ _ _ => True) h p → SharesStore p := by
  intro hall
  obtain ⟨h, p, hr, hc⟩ := System.exists_any_run (show ((workers lazyChain).replay (fun _ _ _ => true) overlapping
    ([], (workers lazyChain).start)).any (fun c =>
      handed c.2 0 == some [some 0] && handed c.2 1 == some [some 1]) = true by decide +kernel)
  simp only [Bool.and_eq_true, beq_iff_eq] at hc
  obtain ⟨oidc₀, ha₀⟩ := answer_of_handed hc.1
  obtain ⟨oidc₁, ha₁⟩ := answer_of_handed hc.2
  obtain ⟨store, hshare⟩ := (hall lazyChain h p hr).one
  have h₀ := hshare _ ⟨0, _, ha₀, List.mem_cons_self⟩
  have h₁ := hshare _ ⟨1, _, ha₁, List.mem_cons_self⟩
  cases h₀.trans h₁.symm

end Workers
end AuthService.Filters
