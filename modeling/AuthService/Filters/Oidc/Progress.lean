import AuthService.Filters.Oidc.Login

/-! No request is held up: each makes a bounded number of calls, and whatever the others have done, it can be
brought to its answer by calls of its own. -/
namespace AuthService.Filters.Oidc
open Lib Common.Http Config OidcFilter

def Op.isPost : Op → Bool
  | .post _ => true
  | _ => false

section Issues
variable {lib : Libraries} {cfg : OIDCConfig} {request : CheckRequest} {s : Bytes} {log : Log} {o : Op}

private theorem Rejects.length_le (hr : Rejects lib cfg request s log) : log.length ≤ 2 := by
  cases hr with
  | incomplete => exact Nat.le_succ 1
  | unrefreshable => exact Nat.le_succ 1
  | refreshFailed => exact Nat.le_refl 2

private theorem Redirects.length_le (hr : Redirects lib cfg request log) : log.length ≤ 3 := by
  cases hr with
  | newVisitor => exact Nat.zero_le 3
  | discarded _ hr => exact Nat.succ_le_succ hr.length_le

private theorem Issues.length_le (hi : Issues lib cfg request log o) : log.length ≤ 6 := by
  cases hi with
  | logout => simp
  | readTokens => simp
  | readState => simp
  | exchange => simp
  | clear => simp
  | save => simp
  | refresh => simp
  | saveRefreshed => simp
  | discard _ hr => exact hr.length_le.trans (by omega)
  | drawSessionId hr => exact hr.length_le.trans (by omega)
  | drawState hr =>
    have := hr.length_le
    simp only [List.length_cons]
    omega
  | drawNonce hr =>
    have := hr.length_le
    simp only [List.length_cons]
    omega
  | beginLogin hr =>
    -- the longest way: the two calls of a refused refresh, the removal and three draws
    have := hr.length_le
    simp only [List.length_cons]
    omega

private theorem Issues.first_post (hi : Issues lib cfg request log o) (ho : o.isPost = true) :
    log.countP (·.op.isPost) = 0 := by
  cases hi with
  | exchange => rfl
  | refresh => rfl
  | _ => cases ho

end Issues

section Runs
variable {C : Type} [DecidableEq C] {lib : Libraries} {cfg : C → OIDCConfig} {h : History C} {p : Requests C}

/-- The calls of every request stay bounded. -/
structure Bounded (h : History C) : Prop where
  calls : ∀ i, (System.log i h).length ≤ 7
  posts : ∀ i, (System.log i h).countP (·.op.isPost) ≤ 1

private theorem bounded (hr : (service lib cfg).Run (fun _ _ _ => True) h p) : Bounded h := by
  refine hr.invariant (fun h _ => Bounded h) (service_follows lib cfg) ⟨by simp, by simp⟩
    (fun _ _ _ _ _ hb _ => ⟨hb.calls, hb.posts⟩) ?_ (fun _ _ _ hb _ => ⟨hb.calls, hb.posts⟩)
  intro i j o e x h stores hb _ hi _
  refine ⟨fun i' => ?_, fun i' => ?_⟩
  · rw [System.log_call]
    split
    · rename_i hn
      subst hn
      exact Nat.succ_le_succ hi.length_le
    · exact hb.calls i'
  · rw [System.log_call]
    split
    · rename_i hn
      subst hn
      cases ho : o.isPost with
      | true => simp [ho, hi.first_post ho]
      | false => simpa [ho] using hb.posts i
    · exact hb.posts i'

/-- Every request ends. In every run, and whatever the other requests have done, a request is brought to an answer
by calls of its own, at any clock reading and with any draws and answers of the identity provider; it makes at
most seven calls in all, and one POST. -/
theorem requests_end {i : Nat} {j : Job C} {e : Int} (hr : (service lib cfg).Run (fun _ _ _ => True) h p)
    (hs : .spawn i j e ∈ h) (now : Int) (x : External) :
    ∃ h' p' outcome, (service lib cfg).Extends (fun _ _ _ => True) h p h' p' ∧
      (service lib cfg).OwnCalls i j now x h h' ∧
      p'.answer? i = some (j, outcome) ∧ (System.log i h').length ≤ 7 ∧
      (System.log i h').countP (·.op.isPost) ≤ 1 := by
  obtain ⟨q, hq⟩ := hr.thread_of_spawn hs
  have ht : p.threads i = some (j, q.settle now) := by rw [hr.settled hq now, hq]
  obtain ⟨p', hx, hthreads, _⟩ := System.exists_finish (h := h) q x ht
  have hown := (service lib cfg).ownCalls_calls q i j now x p.shared h
  have hb := bounded (hx.run hr)
  have ha := Pool.answer?_eq_some.mpr ((congrFun hthreads i).trans (Function.update_self i _ _))
  exact ⟨_, p', _, hx, hown, ha, hb.calls i, hb.posts i⟩

end Runs

section Sample

private def isSpawn : Moment Unit → Bool
  | .spawn _ _ _ => true
  | _ => false

private theorem exists_spawn {ev : Moment Unit} (h : isSpawn ev = true) : ∃ i j e, ev = .spawn i j e := by
  cases ev with
  | spawn i j e => exact ⟨i, j, e, rfl⟩
  | call i j o r e => cases h
  | tick u => cases h

/-- A visitor whose session id has just been drawn. -/
theorem requests_end_visit : ∃ (h h' : History Unit) (p p' : Requests Unit) (i : Nat) (j : Job Unit)
    (outcome : Outcome), sampleService.Run (fun _ _ _ => True) h p ∧
      sampleService.Extends (fun _ _ _ => True) h p h' p' ∧ p'.answer? i = some (j, outcome) := by
  obtain ⟨h, p, hr, hc⟩ := System.exists_any_run (show (sampleService.replay (fun _ _ _ => true)
    [.spawn 0 (visit []) 1901001001, .call 0 (answering .null) 1901001001] ([], sampleService.start)).any
      (fun c => c.1.any isSpawn) = true by decide +kernel)
  obtain ⟨ev, hm, hev⟩ := List.any_eq_true.mp hc
  obtain ⟨i, j, e, rfl⟩ := exists_spawn hev
  obtain ⟨h', p', outcome, hx, _, ha, _⟩ := requests_end hr hm 1901001002 (answering .null)
  exact ⟨h, h', p, p', i, j, outcome, hr, hx, ha⟩

end Sample
end AuthService.Filters.Oidc
