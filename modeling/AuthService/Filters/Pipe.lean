import AuthService.Common.Bytes

/-! The filter list of a pipe: adding filters, and removing them by name while iterating. -/
namespace AuthService.Filters.Pipe
variable {F : Type} (name : F → Bytes) (filter : Bytes)

def addFilter (filters : List F) (filter : F) : List F := filters ++ [filter]

/-- Any list of filters is that of a pipe. -/
theorem addFilter_foldl (filters : List F) : filters.foldl addFilter [] = filters := by
  have h (l : List F) : filters.foldl addFilter l = l ++ filters := by
    induction filters generalizing l with
    | nil => simp
    | cons f filters ih =>
      rw [List.foldl_cons, ih, addFilter, List.append_assoc, List.singleton_append]
  exact h []

/-- The loop of `Remove`, over the vector and the position its iterator stands at. Erasing moves the
later filters one place down and leaves the iterator where it was, and the loop then steps on. The
condition only tests for the end itself: `none` is an access behind it. -/
def removeLoop (filters : List F) (f : Nat) : Option (List F) :=
  if f = filters.length then some filters
  else
    match h : filters[f]? with
    | none => none
    | some current =>
      if name current = filter then removeLoop (filters.eraseIdx f) (f + 1)
      else removeLoop filters (f + 1)
termination_by filters.length - f
decreasing_by
  · have hf := (List.getElem?_eq_some_iff.mp h).1
    rw [List.length_eraseIdx_of_lt hf]
    omega
  · have hf := (List.getElem?_eq_some_iff.mp h).1
    omega

def remove (filters : List F) : Option (List F) := removeLoop name filter filters 0

/-- Every filter of the given name is directly followed by one of another name, so none is last and no
two are adjacent. -/
def Separated (filters : List F) : Prop :=
  ∀ before f after, filters = before ++ f :: after → name f = filter →
    ∃ next rest, after = next :: rest ∧ name next ≠ filter

/-- What `Remove` leaves of the filters from its position on: a filter of the name is dropped, and the
one behind it is kept unseen. -/
def swept : List F → Option (List F)
  | [] => some []
  | f :: rest =>
    if name f = filter then
      match rest with
      | [] => none
      | skipped :: rest => (swept rest).map (skipped :: ·)
    else (swept rest).map (f :: ·)

variable {name filter}

private theorem removeLoop_end (kept : List F) : removeLoop name filter kept kept.length = some kept := by
  rw [removeLoop, if_pos rfl]

private theorem removeLoop_past (kept : List F) : removeLoop name filter kept (kept.length + 1) = none := by
  rw [removeLoop, if_neg (by omega)]
  split
  · rfl
  · rename_i hf
    simp at hf

private theorem removeLoop_at (kept : List F) (f : F) (rest : List F) :
    removeLoop name filter (kept ++ f :: rest) kept.length =
      if name f = filter then removeLoop name filter (kept ++ rest) (kept.length + 1)
      else removeLoop name filter (kept ++ f :: rest) (kept.length + 1) := by
  rw [removeLoop, if_neg (by simp)]
  split
  · rename_i hf
    simp at hf
  · rename_i current hf
    obtain rfl : f = current := by simpa using hf
    simp [List.eraseIdx_append_of_length_le]

private theorem removeLoop_next (kept : List F) (f : F) (rest : List F) :
    removeLoop name filter (kept ++ f :: rest) (kept.length + 1) =
      removeLoop name filter ((kept ++ [f]) ++ rest) (kept ++ [f]).length := by
  rw [List.append_assoc, List.singleton_append, List.length_append, List.length_singleton]

private theorem swept_other {f : F} (h : name f ≠ filter) (rest : List F) :
    swept name filter (f :: rest) = (swept name filter rest).map (f :: ·) := by
  cases rest <;> simp [swept, h]

-- The filters in front of the position are settled; the induction is on those behind it.
private theorem removeLoop_eq_swept (kept rest : List F) :
    removeLoop name filter (kept ++ rest) kept.length = (swept name filter rest).map (kept ++ ·) := by
  induction rest using swept.induct name filter generalizing kept with
  | case1 =>
    rw [List.append_nil, removeLoop_end]
    simp [swept]
  | case2 f h =>
    rw [removeLoop_at, if_pos h, List.append_nil, removeLoop_past]
    simp [swept, h]
  | case3 f h skipped rest ih =>
    rw [removeLoop_at, if_pos h, removeLoop_next, ih]
    simp [swept, h, Function.comp_def]
  | case4 f rest h ih =>
    rw [removeLoop_at, if_neg h, removeLoop_next, ih, swept_other h]
    simp [Function.comp_def]

theorem remove_eq_swept (filters : List F) : remove name filter filters = swept name filter filters := by
  have h : removeLoop name filter ([] ++ filters) ([] : List F).length = _ := removeLoop_eq_swept [] filters
  simpa [remove] using h

private theorem separated_cons_other {f : F} (h : name f ≠ filter) (rest : List F) :
    Separated name filter (f :: rest) ↔ Separated name filter rest := by
  constructor
  · intro hs before g after heq hg
    exact hs (f :: before) g after (by rw [heq, List.cons_append]) hg
  · intro hs before g after heq hg
    cases before with
    | nil =>
      obtain ⟨rfl, rfl⟩ := List.cons.inj heq
      exact absurd hg h
    | cons first before => exact hs before g after (List.cons.inj heq).2 hg

private theorem separated_cons_named {f : F} (h : name f = filter) (rest : List F) :
    Separated name filter (f :: rest) ↔
      (∃ next after, rest = next :: after ∧ name next ≠ filter) ∧ Separated name filter rest := by
  constructor
  · intro hs
    refine ⟨hs [] f rest rfl h, ?_⟩
    intro before g after heq hg
    exact hs (f :: before) g after (by rw [heq, List.cons_append]) hg
  · rintro ⟨hnext, hs⟩ before g after heq hg
    cases before with
    | nil =>
      obtain ⟨-, rfl⟩ := List.cons.inj heq
      exact hnext
    | cons first before => exact hs before g after (List.cons.inj heq).2 hg

-- Two named filters in a row: the second is kept, although a filter of its name should be gone.
private theorem swept_eq_filter_iff (filters : List F) :
    swept name filter filters = some (filters.filter fun f => name f ≠ filter) ↔ Separated name filter filters := by
  induction filters using swept.induct name filter with
  | case1 =>
    have hs : Separated name filter ([] : List F) := by
      intro before f after heq
      simp at heq
    simpa [swept] using hs
  | case2 f h =>
    rw [separated_cons_named h]
    simp [swept, h]
  | case3 f h skipped rest ih =>
    rw [separated_cons_named h]
    by_cases hn : name skipped = filter
    · have hkept : skipped ∉ rest.filter fun f => name f ≠ filter := by simp [hn]
      constructor
      · intro hswept
        obtain ⟨left, -, hleft⟩ : ∃ left, swept name filter rest = some left ∧
            skipped :: left = rest.filter fun f => name f ≠ filter := by
          simpa [swept, h, hn] using hswept
        exact absurd (hleft ▸ List.mem_cons_self) hkept
      · rintro ⟨⟨next, after, heq, hnext⟩, -⟩
        obtain ⟨rfl, -⟩ := List.cons.inj heq
        exact absurd hn hnext
    · rw [separated_cons_other hn, ← ih]
      simp [swept, h, hn]
  | case4 f rest h ih =>
    rw [separated_cons_other h, ← ih, swept_other h]
    simp [h]

/-- `Remove` stays within the vector and leaves all and only the filters of other names, in their order,
exactly for the pipes in which every filter of the name is followed by one of another name. -/
theorem remove_eq_filter_iff (filters : List F) :
    remove name filter filters = some (filters.filter fun f => name f ≠ filter) ↔
      Separated name filter filters := by
  rw [remove_eq_swept]
  exact swept_eq_filter_iff filters

/-- Alone in the pipe, the named filter is last, and the loop passes the end; of two in a row the
second stays. -/
theorem remove_last_and_adjacent :
    remove id (text "oidc") [text "oidc"] = none ∧
      remove id (text "oidc") [text "oidc", text "oidc", text "pipe"] = some [text "oidc", text "pipe"] ∧
      ¬ ∀ (filters : List Bytes) (filter : Bytes),
        remove id filter filters = some (filters.filter fun f => id f ≠ filter) := by
  have hlast : remove id (text "oidc") [text "oidc"] = none := by
    rw [remove_eq_swept]
    decide
  refine ⟨hlast, ?_, ?_⟩
  · rw [remove_eq_swept]
    decide
  · intro h
    rw [h] at hlast
    simp at hlast

end AuthService.Filters.Pipe
