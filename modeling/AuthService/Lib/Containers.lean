import Mathlib.Data.List.AList
import Mathlib.Data.List.Sort

/-! Traversal of a list, and containers with unique or ordered keys: selective erasure from a
keyed map, and multimaps that keep equal keys in insertion order. -/
namespace AuthService.Lib

section Traverse
variable {α β : Type} {f : α → Option β} {l : List α}

theorem mapM_eq_some {g : α → β} (h : ∀ x ∈ l, f x = some (g x)) : l.mapM f = some (l.map g) := by
  induction l with
  | nil => rfl
  | cons x l ih =>
    rw [List.mapM_cons, h x List.mem_cons_self, ih fun y hy => h y (List.mem_cons_of_mem _ hy)]
    rfl

theorem mapM_eq_none {x : α} (hx : x ∈ l) (h : f x = none) : l.mapM f = none := by
  induction l with
  | nil => cases hx
  | cons y l ih =>
    rw [List.mapM_cons]
    rcases List.mem_cons.mp hx with rfl | hx
    · rw [h]
      rfl
    · rw [ih hx]
      cases f y <;> rfl

theorem exists_of_mapM {ys : List β} {y : β} (h : l.mapM f = some ys) (hy : y ∈ ys) : ∃ x ∈ l, f x = some y := by
  induction l generalizing ys with
  | nil =>
    cases h
    cases hy
  | cons a l ih =>
    rw [List.mapM_cons] at h
    obtain ⟨b, hb, h⟩ := Option.bind_eq_some_iff.mp h
    obtain ⟨bs, hbs, h⟩ := Option.bind_eq_some_iff.mp h
    cases h
    rcases List.mem_cons.mp hy with rfl | hy
    · exact ⟨a, List.mem_cons_self, hb⟩
    · obtain ⟨x, hx, hf⟩ := ih hbs hy
      exact ⟨x, List.mem_cons_of_mem _ hx, hf⟩

/-- A loop of checks passes them all, or ends with the complaint of the first one that fails. -/
theorem forM_cases {ε : Type} (check : α → Except ε Unit) (l : List α) :
    l.forM check = .ok () ∧ (∀ x ∈ l, check x = .ok ()) ∨
    ∃ front x back e, l = front ++ x :: back ∧ (∀ y ∈ front, check y = .ok ()) ∧ check x = .error e ∧
      l.forM check = .error e := by
  induction l with
  | nil => exact .inl ⟨rfl, by simp⟩
  | cons x l ih =>
    cases hx : check x with
    | error e =>
      refine .inr ⟨[], x, l, e, rfl, by simp, hx, ?_⟩
      simp [List.forM, hx, bind, Except.bind]
    | ok u =>
      have hloop : (x :: l).forM check = l.forM check := by
        simp [List.forM, hx, bind, Except.bind]
      rcases ih with ⟨hl, hall⟩ | ⟨front, y, back, e, rfl, hfront, hy, hl⟩
      · exact .inl ⟨hloop.trans hl, List.forall_mem_cons.mpr ⟨hx, hall⟩⟩
      · exact .inr ⟨x :: front, y, back, e, rfl, List.forall_mem_cons.mpr ⟨hx, hfront⟩, hy, hloop.trans hl⟩

theorem mem_of_mem_intercalate {sep : List α} {parts : List (List α)} {a : α} (h : a ∈ sep.intercalate parts) :
    a ∈ sep ∨ ∃ part ∈ parts, a ∈ part := by
  induction parts with
  | nil => cases h
  | cons part parts ih =>
    cases parts with
    | nil =>
      rw [List.intercalate_singleton] at h
      exact .inr ⟨part, List.mem_cons_self, h⟩
    | cons next parts =>
      rw [List.intercalate_cons_cons, List.mem_append, List.mem_append] at h
      rcases h with (hpart | hsep) | hrest
      · exact .inr ⟨part, List.mem_cons_self, hpart⟩
      · exact .inl hsep
      · obtain hsep | ⟨other, hin, ha⟩ := ih hrest
        · exact .inl hsep
        · exact .inr ⟨other, List.mem_cons_of_mem _ hin, ha⟩

end Traverse

/-- A loop over a list that stops at the first element that tests true, with a test that may fail. -/
structure SearchLoop {α ε : Type} (test : α → Except ε Bool) (loop : List α → Except ε Bool) : Prop where
  nil : loop [] = .ok false
  cons : ∀ x l, loop (x :: l) = (do if ← test x then pure true else loop l)

namespace SearchLoop
variable {α ε : Type} {test : α → Except ε Bool} {loop : List α → Except ε Bool} {l : List α}

theorem ok_false_iff (hs : SearchLoop test loop) : loop l = .ok false ↔ ∀ x ∈ l, test x = .ok false := by
  induction l with
  | nil => simp [hs.nil]
  | cons x l ih =>
    rw [hs.cons, List.forall_mem_cons, ← ih]
    rcases test x with e | b
    · simp [bind, Except.bind]
    · cases b <;> simp [bind, Except.bind, pure, Except.pure]

theorem exists_ok (hs : SearchLoop test loop) (hl : ∀ x ∈ l, ∃ b, test x = .ok b) : ∃ b, loop l = .ok b := by
  induction l with
  | nil => exact ⟨false, hs.nil⟩
  | cons x l ih =>
    obtain ⟨⟨b, hx⟩, hl⟩ := List.forall_mem_cons.mp hl
    obtain ⟨b', hloop⟩ := ih hl
    rw [hs.cons, hx]
    cases b with
    | true => exact ⟨true, rfl⟩
    | false => exact ⟨b', hloop⟩

/-- Without a failing test the order of the tests does not matter. -/
theorem ok_true_iff (hs : SearchLoop test loop) (hl : ∀ x ∈ l, ∃ b, test x = .ok b) :
    loop l = .ok true ↔ ∃ x ∈ l, test x = .ok true := by
  have hfalse : loop l = .ok false ↔ ∀ x ∈ l, test x = .ok false := hs.ok_false_iff
  obtain ⟨b, hloop⟩ := hs.exists_ok hl
  constructor
  · intro h
    by_contra hn
    have hall : ∀ x ∈ l, test x = .ok false := by
      intro x hx
      obtain ⟨b, hb⟩ := hl x hx
      cases b with
      | true => exact absurd ⟨x, hx, hb⟩ hn
      | false => exact hb
    cases h.symm.trans (hfalse.mpr hall)
  · rintro ⟨x, hx, ht⟩
    cases b with
    | true => exact hloop
    | false => cases ht.symm.trans (hfalse.mp hloop x hx)

/-- The loop fails at the first test that does, when every test before it is false. -/
theorem error_iff (hs : SearchLoop test loop) : (∃ e, loop l = .error e) ↔
    ∃ front x back, l = front ++ x :: back ∧ (∀ y ∈ front, test y = .ok false) ∧ ∃ e, test x = .error e := by
  induction l with
  | nil => simp [hs.nil]
  | cons x l ih =>
    rw [hs.cons]
    cases hx : test x with
    | error e =>
      exact iff_of_true ⟨e, rfl⟩ ⟨[], x, l, rfl, by simp, e, hx⟩
    | ok b =>
      have hhead {front back : List α} {y : α} (hl : x :: l = front ++ y :: back) (he : ∃ e, test y = .error e) :
          ∃ rest, front = x :: rest ∧ l = rest ++ y :: back := by
        cases front with
        | nil =>
          obtain ⟨rfl, -⟩ := List.cons.inj hl
          obtain ⟨e, he⟩ := he
          cases hx.symm.trans he
        | cons z rest =>
          obtain ⟨rfl, rfl⟩ := List.cons.inj hl
          exact ⟨rest, rfl, rfl⟩
      cases b with
      | true =>
        refine iff_of_false (fun ⟨e, he⟩ => by cases he) ?_
        rintro ⟨front, y, back, hl, hfront, he⟩
        obtain ⟨rest, rfl, -⟩ := hhead hl he
        cases hx.symm.trans (hfront x List.mem_cons_self)
      | false =>
        refine Iff.trans ih ⟨?_, ?_⟩
        · rintro ⟨front, y, back, rfl, hfront, he⟩
          exact ⟨x :: front, y, back, rfl, List.forall_mem_cons.mpr ⟨hx, hfront⟩, he⟩
        · rintro ⟨front, y, back, hl, hfront, he⟩
          obtain ⟨rest, rfl, rfl⟩ := hhead hl he
          exact ⟨rest, y, back, rfl, (List.forall_mem_cons.mp hfront).2, he⟩

end SearchLoop

section Keep
variable {α : Type} {β : α → Type} [DecidableEq α]

/-- Erase the entries that fail a test. -/
def keepEntries (p : Sigma β → Bool) (m : AList β) : AList β :=
  ⟨m.entries.filter p, m.nodupKeys.sublist List.filter_sublist⟩

theorem lookup_keepEntries (p : Sigma β → Bool) (m : AList β) (a : α) :
    (keepEntries p m).lookup a = (m.lookup a).filter (fun b => p ⟨a, b⟩) := by
  ext b
  change b ∈ (keepEntries p m).lookup a ↔ b ∈ (m.lookup a).filter _
  rw [AList.mem_lookup_iff]
  simp only [keepEntries, List.mem_filter, ← AList.mem_lookup_iff, Option.mem_def, Option.filter_eq_some_iff]

end Keep

/-- Entries ordered by key; equal keys stay in the order of insertion. -/
@[ext] structure Multimap (κ ν : Type) [LT κ] where
  entries : List (κ × ν)
  sorted : entries.Pairwise (fun a b => ¬ b.1 < a.1)
  deriving DecidableEq

namespace Multimap
variable {κ ν : Type} [LT κ] [DecidableLT κ] [IsStrictOrder κ (· < ·)]

private theorem orderedInsert_sorted (x : κ × ν) (l : List (κ × ν))
    (h : l.Pairwise (fun a b => ¬ b.1 < a.1)) :
    (l.orderedInsert (fun a b => a.1 < b.1) x).Pairwise (fun a b => ¬ b.1 < a.1) := by
  induction l with
  | nil => simp
  | cons y l ih =>
    obtain ⟨hy, hl⟩ := List.pairwise_cons.mp h
    simp only [List.orderedInsert_cons]
    split
    · rename_i hlt
      refine List.pairwise_cons.mpr ⟨?_, h⟩
      intro c hc hcx
      have hcy : c.1 < y.1 := IsTrans.trans _ _ _ hcx hlt
      rcases List.mem_cons.mp hc with rfl | hc
      · exact irrefl_of (· < ·) _ hcy
      · exact hy c hc hcy
    · rename_i hlt
      refine List.pairwise_cons.mpr ⟨?_, ih hl⟩
      intro c hc
      rcases (List.mem_orderedInsert _).mp hc with rfl | hc
      · exact hlt
      · exact hy c hc

def empty : Multimap κ ν := ⟨[], .nil⟩

/-- Insertion at the upper bound of the key. -/
def insert (x : κ × ν) (m : Multimap κ ν) : Multimap κ ν :=
  ⟨m.entries.orderedInsert (fun a b => a.1 < b.1) x, orderedInsert_sorted x _ m.sorted⟩

def ofList (l : List (κ × ν)) : Multimap κ ν := l.foldl (fun m x => m.insert x) empty

omit [IsStrictOrder κ (· < ·)] in
private theorem orderedInsert_last {x : κ × ν} {l : List (κ × ν)} (h : ∀ y ∈ l, ¬ x.1 < y.1) :
    l.orderedInsert (fun a b => a.1 < b.1) x = l ++ [x] := by
  induction l with
  | nil => rfl
  | cons y l ih =>
    rw [List.orderedInsert_cons, if_neg (h y List.mem_cons_self), ih fun z hz => h z (List.mem_cons_of_mem _ hz)]
    rfl

/-- Inserting the entries in their order rebuilds the map. -/
theorem ofList_entries (m : Multimap κ ν) : ofList m.entries = m := by
  have hfold (l : List (κ × ν)) (front : Multimap κ ν)
      (h : (front.entries ++ l).Pairwise (fun a b => ¬ b.1 < a.1)) :
      (l.foldl (fun m x => m.insert x) front).entries = front.entries ++ l := by
    induction l generalizing front with
    | nil => simp
    | cons x l ih =>
      have hx : ∀ y ∈ front.entries, ¬ x.1 < y.1 := by
        intro y hy
        exact (List.pairwise_append.mp h).2.2 y hy x List.mem_cons_self
      have hins : (front.insert x).entries = front.entries ++ [x] := orderedInsert_last hx
      rw [List.foldl_cons, ih _ (by rw [hins]; simpa using h), hins]
      simp
  have hm : (ofList m.entries).entries = m.entries := hfold m.entries empty (by simpa [empty] using m.sorted)
  exact Multimap.ext hm

/-- The map holds what was inserted. -/
theorem ofList_perm (l : List (κ × ν)) : (ofList l).entries.Perm l := by
  have hfold (l : List (κ × ν)) (m : Multimap κ ν) :
      (l.foldl (fun m x => m.insert x) m).entries.Perm (m.entries ++ l) := by
    induction l generalizing m with
    | nil => simp
    | cons x l ih =>
      refine (ih _).trans ?_
      have hins : (m.insert x).entries.Perm (x :: m.entries) := List.perm_orderedInsert _ _ _
      exact (hins.append_right l).trans List.perm_middle.symm
  simpa [ofList, empty] using hfold l empty

/-- The first value under a key. -/
def find [DecidableEq κ] (k : κ) (m : Multimap κ ν) : Option ν :=
  (m.entries.find? (fun x => x.1 = k)).map Prod.snd

omit [DecidableLT κ] [IsStrictOrder κ (· < ·)] in
theorem find_of_unique [DecidableEq κ] {k : κ} {v : ν} {m : Multimap κ ν}
    (h : m.entries.filter (fun x => x.1 = k) = [(k, v)]) : m.find k = some v := by
  rw [find, ← List.head?_filter, h]
  rfl

/-- Values are changed under the keys and in the order that they have. -/
def mapValues (f : ν → ν) (m : Multimap κ ν) : Multimap κ ν :=
  ⟨m.entries.map (Prod.map id f), m.sorted.map _ fun _ _ h => h⟩

omit [DecidableLT κ] [IsStrictOrder κ (· < ·)] in
theorem mapValues_eq_self_iff {f : ν → ν} {m : Multimap κ ν} : m.mapValues f = m ↔ ∀ x ∈ m.entries, f x.2 = x.2 := by
  have hmap : m.entries.map (Prod.map id f) = m.entries.map id ↔ ∀ x ∈ m.entries, Prod.map id f x = x :=
    List.map_inj_left
  rw [List.map_id] at hmap
  simp only [Multimap.ext_iff, mapValues, hmap, Prod.ext_iff, Prod.map_fst, Prod.map_snd, id, true_and]

end Multimap
end AuthService.Lib
