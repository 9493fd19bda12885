import AuthService.Filters.Oidc.Removal

/-! Logins answered once. Clearing an authorization state is final, so what decides is whether a
callback can still use a state it had read before the clearing. -/
namespace AuthService.Filters.Oidc
open Lib Common.Http Config OidcFilter

variable {C : Type} [DecidableEq C] {lib : Libraries} {cfg : C → OIDCConfig}
variable {h h₁ h₂ : History C} {p : Requests C} {c : C} {key : Bytes}

/-- The authorization state of this session has been cleared. -/
def Cleared (h : History C) (c : C) (key : Bytes) : Prop :=
  ∃ i j s e, .call i j (.clearAuthorizationState s) () e ∈ h ∧ j.chain = c ∧ cStr s = key

/-- The calls of a callback that rest on the authorization state it has read, up to its clearing. -/
def Op.consumes : Op → Bool
  | .post _ => true
  | .clearAuthorizationState _ => true
  | _ => false

/-- No callback exchanges its code, or clears, after another has cleared the authorization state
since it read it. -/
def ConsumesUncleared (h : History C) (_ : Stores C) (ev : Moment C) : Prop :=
  ∀ i j o r e, ev = .call i j o r e → o.consumes = true → ∀ h₂ h₁ s a e',
    h = h₂ ++ .call i j (.getAuthorizationState s) a e' :: h₁ → ¬ Cleared h₂ j.chain (cStr s)

/-- A callback with the session id of this login, whatever state it presents. -/
structure Login.AnsweredBy (cfg : C → OIDCConfig) (l : Login C) (j : Job C) : Prop where
  chain : j.chain = l.job.chain
  callback : matchesCallbackRequest (cfg j.chain) j.request = .ok true
  cookie : ∃ s, sessionCookie (cfg j.chain) j.request = some s ∧ cStr s = l.sessionId.val

/-- At most one callback saves a token response for the login, and none exchanges a code for it
once one has. -/
structure Login.ConsumedOnce (cfg : C → OIDCConfig) (h : History C) (l : Login C) : Prop where
  one_saves : ∀ i i' j j' s s' t t' e e', l.AnsweredBy cfg j → l.AnsweredBy cfg j' →
    .call i j (.setTokenResponse s t) () e ∈ h → .call i' j' (.setTokenResponse s' t') () e' ∈ h → i = i'
  none_exchanges : ∀ h₂ h₁ i j s t e, h = h₂ ++ .call i j (.setTokenResponse s t) () e :: h₁ →
    l.AnsweredBy cfg j → ∀ i' j' request answer e', l.AnsweredBy cfg j' →
    .call i' j' (.post request) answer e' ∉ h₂

section Calls
variable {cfg : OIDCConfig} {request : CheckRequest} {log : Log} {o : Op}

private theorem read_of_consumes (hi : Issues lib cfg request log o) (ho : o.consumes = true)
    (hm : matchesCallbackRequest cfg request = .ok true) :
    ∃ s a e newer, sessionCookie cfg request = some s ∧
      log = newer ++ [(⟨.getAuthorizationState s, some a, e⟩ : Program.Called Int Op.Res)] := by
  cases hi with
  | @exchange s code a e hs _ => exact ⟨s, a, e, [], hs.cookie, rfl⟩
  | @clear s code a body e e' t hx => exact ⟨s, a, e, [_], hx.enters.cookie, rfl⟩
  | refresh hr => simp [hr.enters.callback_eq] at hm
  | _ => cases ho

private theorem callback_of_clears {s : Bytes} (hi : Issues lib cfg request log (.clearAuthorizationState s)) :
    sessionCookie cfg request = some s ∧ matchesCallbackRequest cfg request = .ok true := by
  cases hi with
  | clear hx => exact ⟨hx.enters.cookie, hx.enters.callback_eq⟩

private theorem clears_of_saves {s : Bytes} {t : TokenResponse}
    (hi : Issues lib cfg request log (.setTokenResponse s t))
    (hm : matchesCallbackRequest cfg request = .ok true) :
    sessionCookie cfg request = some s ∧
      ∃ e older, log = (⟨.clearAuthorizationState s, (), e⟩ : Program.Called Int Op.Res) :: older := by
  cases hi with
  | save hx => exact ⟨hx.enters.cookie, _, _, rfl⟩
  | saveRefreshed hr _ => simp [hr.enters.callback_eq] at hm

end Calls

section Finality
variable {cond : History C → Stores C → Moment C → Prop}

private theorem begun_of_cleared (hr : (service lib cfg).Run cond h p) (hc : Cleared h c key) :
    ∃ l : Login C, l.Begun h c key := by
  obtain ⟨i, j, s, e, hm, rfl, rfl⟩ := hc
  obtain ⟨h₂, h₁, rfl⟩ := List.append_of_mem hm
  obtain ⟨p₁, _, hr₁, hw, hi, _⟩ := hr.call_made (service_follows lib cfg) rfl
  obtain ⟨hcookie, hcallback⟩ := callback_of_clears hi
  obtain ⟨s', a, e', newer, hcookie', hlog⟩ := read_of_consumes hi rfl hcallback
  obtain rfl : s = s' := by simpa [hcookie] using hcookie'
  obtain ⟨g₂, g₁, rfl, _⟩ := hw.split newer hlog
  obtain ⟨l, _, hl⟩ := (kept_logins hr₁).readState _ _ _ _ _ _ _ rfl
  refine ⟨l, { hl with events := hl.events.trans ?_ }⟩
  exact (((List.sublist_cons_self _ _).trans (List.sublist_append_right _ _)).cons _).trans
    (List.sublist_append_right _ _)

private theorem pending_clear {j : Job C} {now : Int} {x : External} {s : Bytes} {stores : Stores C} :
    (((service lib cfg).exec j now x (.clearAuthorizationState s) stores).2 j.chain).pending (cStr s) = none := by
  simp only [service, Function.update_self, InMemorySessionStore.pending]
  rw [Op.entry_exec]
  cases (stores j.chain).entry (cStr s) <;> simp [Op.session?, Op.effect]

/-- Clearing is final: a session id that is not drawn again gets no new authorization state. -/
theorem pending_of_cleared (hr : (service lib cfg).Run cond h p) (hn : (sessionIds h).Nodup)
    (hc : Cleared h c key) : (p.shared c).pending key = none := by
  induction hr with
  | nil =>
    obtain ⟨_, _, _, _, hm, _⟩ := hc
    cases hm
  | @snoc h p a ev p' hr hs _ ih =>
    have hn' := nodup_sessionIds_of_sublist (List.sublist_cons_self _ _) hn
    by_cases hold : Cleared h c key
    · have hnone := ih hn' hold
      obtain ⟨l, hl⟩ := begun_of_cleared hr hold
      refine Option.eq_none_iff_forall_ne_some.mpr fun a ha => ?_
      rcases hr.step_cases (service_follows lib cfg) hs with
        ⟨_, _, _, rfl, hp⟩ | ⟨i, j, o, e, x, hw, hi, rfl, hp⟩ | ⟨_, rfl, hp⟩
      · simp [hp, hnone] at ha
      · rw [hp] at ha
        rcases pending_call ha with ha | ⟨rfl, s, rfl, rfl⟩
        · simp [hnone] at ha
        · exact not_issues_of_begun hn' hl hw hi
      · rw [hp] at ha
        have ha := pending_tick ha
        simp [hnone] at ha
    · obtain ⟨i, j, s, e, hm, rfl, rfl⟩ := hc
      rcases List.mem_cons.mp hm with rfl | hm
      · rcases hr.step_cases (service_follows lib cfg) hs with
          ⟨_, _, _, hev, _⟩ | ⟨_, _, _, _, x, _, _, hev, hp⟩ | ⟨_, hev, _⟩
        · cases hev
        · obtain ⟨rfl, rfl, rfl, _, rfl⟩ := Event.call.inj hev
          rw [hp]
          exact pending_clear
        · cases hev
      · exact absurd ⟨i, j, s, e, hm, rfl, rfl⟩ hold

private theorem not_cleared_of_read {i : Nat} {j : Job C} {s : Bytes} {a : AuthorizationState} {e : Int}
    (hr : (service lib cfg).Run cond h p) (hn : (sessionIds h).Nodup)
    (hh : h = h₂ ++ .call i j (.getAuthorizationState s) (some a) e :: h₁) : ¬ Cleared h₁ j.chain (cStr s) := by
  intro hc
  obtain ⟨p₁, x, hr₁, _, _, _, hres⟩ := hr.call_made (service_follows lib cfg) hh
  have hsuffix : h₁.Sublist h := hh ▸ (List.sublist_cons_self _ _).trans (List.sublist_append_right _ _)
  have hn₁ := nodup_sessionIds_of_sublist hsuffix hn
  have hpending : (p₁.shared j.chain).pending (cStr s) = some a := Op.exec_getAuthorizationState.symm.trans hres.symm
  simp [pending_of_cleared hr₁ hn₁ hc] at hpending

end Finality

section Consumption

private theorem not_cleared_of_consumes {i : Nat} {j : Job C} {o : Op} {s : Bytes}
    (hr : (service lib cfg).Run ConsumesUncleared h p) (hn : (sessionIds h).Nodup) (hw : System.Owns h i j)
    (hi : Issues lib (cfg j.chain) j.request (System.log i h) o) (ho : o.consumes = true)
    (hc : ∀ h₂ h₁ s a e', h = h₂ ++ .call i j (.getAuthorizationState s) a e' :: h₁ → ¬ Cleared h₂ j.chain (cStr s))
    (hm : matchesCallbackRequest (cfg j.chain) j.request = .ok true)
    (hs : sessionCookie (cfg j.chain) j.request = some s) : ¬ Cleared h j.chain (cStr s) := by
  obtain ⟨s', a, e, newer, hs', hlog⟩ := read_of_consumes hi ho hm
  obtain rfl : s = s' := by simpa [hs] using hs'
  obtain ⟨h₂, h₁, rfl, _⟩ := hw.split newer hlog
  rintro ⟨i', j', s', e', hcleared, hchain, hkey⟩
  rcases List.mem_append.mp hcleared with hafter | hbefore
  · exact hc h₂ h₁ s (some a) e rfl ⟨i', j', s', e', hafter, hchain, hkey⟩
  · rcases List.mem_cons.mp hbefore with hread | hbefore
    · cases hread
    · exact not_cleared_of_read hr hn rfl ⟨i', j', s', e', hbefore, hchain, hkey⟩

private theorem clears_unique {i i' : Nat} {j j' : Job C} {s s' : Bytes} {e e' : Int}
    (hr : (service lib cfg).Run ConsumesUncleared h p) (hn : (sessionIds h).Nodup)
    (hm : .call i j (.clearAuthorizationState s) () e ∈ h)
    (hm' : .call i' j' (.clearAuthorizationState s') () e' ∈ h)
    (hchain : j.chain = j'.chain) (hkey : cStr s = cStr s') : i = i' := by
  induction hr with
  | nil => cases hm
  | @snoc h p a ev p' hr hs hc ih =>
    have hn' := nodup_sessionIds_of_sublist (List.sublist_cons_self _ _) hn
    have hfirst {i j s e} (hev : ev = .call i j (.clearAuthorizationState s) () e) :
        ¬ Cleared h j.chain (cStr s) := by
      subst hev
      rcases hr.step_cases (service_follows lib cfg) hs with
        ⟨_, _, _, hev, _⟩ | ⟨_, _, _, _, _, hw, hi, hev, _⟩ | ⟨_, hev, _⟩
      · cases hev
      · obtain ⟨rfl, rfl, rfl, _, rfl⟩ := Event.call.inj hev
        obtain ⟨hcookie, hcallback⟩ := callback_of_clears hi
        exact not_cleared_of_consumes hr hn' hw hi rfl (hc _ _ _ _ _ rfl rfl) hcallback hcookie
      · cases hev
    rcases List.mem_cons.mp hm with hev | hm
    · rcases List.mem_cons.mp hm' with hev' | hm'
      · exact (Event.call.inj (hev.trans hev'.symm)).1
      · exact absurd ⟨i', j', s', e', hm', hchain.symm, hkey.symm⟩ (hfirst hev.symm)
    · rcases List.mem_cons.mp hm' with hev' | hm'
      · exact absurd ⟨i, j, s, e, hm, hchain, hkey⟩ (hfirst hev'.symm)
      · exact ih hn' hm hm'

private theorem clears_of_saved {l : Login C} {i : Nat} {j : Job C} {s : Bytes} {t : TokenResponse} {e : Int}
    (hr : (service lib cfg).Run ConsumesUncleared h p) (hj : l.AnsweredBy cfg j)
    (hh : h = h₂ ++ .call i j (.setTokenResponse s t) () e :: h₁) :
    cStr s = l.sessionId.val ∧ ∃ e', .call i j (.clearAuthorizationState s) () e' ∈ h₁ := by
  obtain ⟨_, _, _, hw, hi, _⟩ := hr.call_made (service_follows lib cfg) hh
  obtain ⟨hs, e', older, hlog⟩ := clears_of_saves hi hj.callback
  obtain ⟨s', hs', hkey⟩ := hj.cookie
  obtain rfl : s = s' := by simpa [hs] using hs'
  obtain ⟨g₂, g₁, rfl, _⟩ := hw.split [] hlog
  exact ⟨hkey, e', List.mem_append_right _ List.mem_cons_self⟩

/-- In every run whose generator never repeats a session id, and in which no authorization state
is cleared between a callback's reading it and its code exchange or its own clearing, every login
is consumed at most once. -/
theorem login_consumed_once (hr : (service lib cfg).Run ConsumesUncleared h p) (hn : (sessionIds h).Nodup)
    (l : Login C) : l.ConsumedOnce cfg h where
  one_saves i i' j j' s s' t t' e e' hj hj' hm hm' := by
    obtain ⟨h₂, h₁, hh⟩ := List.append_of_mem hm
    obtain ⟨h₂', h₁', hh'⟩ := List.append_of_mem hm'
    obtain ⟨hkey, ec, hclear⟩ := clears_of_saved hr hj hh
    obtain ⟨hkey', ec', hclear'⟩ := clears_of_saved hr hj' hh'
    have hin : .call i j (.clearAuthorizationState s) () ec ∈ h :=
      hh ▸ List.mem_append_right _ (List.mem_cons_of_mem _ hclear)
    have hin' : .call i' j' (.clearAuthorizationState s') () ec' ∈ h :=
      hh' ▸ List.mem_append_right _ (List.mem_cons_of_mem _ hclear')
    exact clears_unique hr hn hin hin' (hj.chain.trans hj'.chain.symm) (hkey.trans hkey'.symm)
  none_exchanges h₂ h₁ i j s t e hh hj i' j' request answer e' hj' hm := by
    obtain ⟨hkey, ec, hclear⟩ := clears_of_saved hr hj hh
    obtain ⟨g₂, g₁, rfl⟩ := List.append_of_mem hm
    have hh' : h = g₂ ++ .call i' j' (.post request) answer e' ::
        (g₁ ++ .call i j (.setTokenResponse s t) () e :: h₁) := by simpa using hh
    obtain ⟨_, _, hr₁, hw, hi, hc, _⟩ := hr.call_made (service_follows lib cfg) hh'
    have hsuffix : (g₁ ++ .call i j (.setTokenResponse s t) () e :: h₁).Sublist h :=
      hh' ▸ (List.sublist_cons_self _ _).trans (List.sublist_append_right _ _)
    have hn₁ := nodup_sessionIds_of_sublist hsuffix hn
    obtain ⟨s', hs', hkey'⟩ := hj'.cookie
    refine not_cleared_of_consumes hr₁ hn₁ hw hi rfl (hc _ _ _ _ _ rfl rfl) hj'.callback hs' ?_
    refine ⟨i, j, s, ec, ?_, hj.chain.trans hj'.chain.symm, hkey.trans hkey'.symm⟩
    exact List.mem_append_right _ (List.mem_cons_of_mem _ hclear)

private def readKey? (i : Nat) : Moment Unit → Option Bytes
  | .call i' _ (.getAuthorizationState s) _ _ => if i' = i then some (cStr s) else none
  | _ => none

private def clearedKey? : Moment Unit → Option Bytes
  | .call _ _ (.clearAuthorizationState s) _ _ => some (cStr s)
  | _ => none

private def consumesUncleared (h : History Unit) (_ : Stores Unit) : Moment Unit → Bool
  | .call i _ o _ _ => !o.consumes || (List.range h.length).all fun n =>
    (h[n]?.bind (readKey? i)).all fun key => !((h.take n).filterMap clearedKey?).contains key
  | _ => true

private theorem consumesUncleared_of_test (h : History Unit) (stores : Stores Unit) (ev : Moment Unit)
    (ht : consumesUncleared h stores ev = true) : ConsumesUncleared h stores ev := by
  rintro i j o r e rfl ho h₂ h₁ s a e' rfl ⟨i', j', s', e'', hm, _, hkey⟩
  simp only [consumesUncleared, ho, Bool.not_true, Bool.false_or, List.all_eq_true, List.mem_range] at ht
  have hread : ∀ ev ∈ h₂, clearedKey? ev ≠ some (cStr s) := by simpa [readKey?] using ht h₂.length (by simp)
  exact hread _ hm (congrArg some hkey)

private def saves (i : Nat) : Moment Unit → Bool
  | .call i' j (.setTokenResponse _ _) _ _ => i' == i && j == callback
  | _ => false

private theorem exists_save {h : History Unit} {i : Nat} (hs : h.any (saves i) = true) :
    ∃ s t e, .call i callback (.setTokenResponse s t) () e ∈ h := by
  obtain ⟨ev, hm, hev⟩ := List.any_eq_true.mp hs
  rcases ev with _ | ⟨i', j, ⟨⟩, r, e⟩ | _ <;> try cases hev
  rename_i s t
  simp only [saves, Bool.and_eq_true, beq_iff_eq] at hev
  obtain ⟨rfl, rfl⟩ := hev
  exact ⟨s, t, e, hm⟩

private theorem answeredBy_callback {l : Login Unit} {h : History Unit} (hl : l.Begun h () (text "session123")) :
    l.AnsweredBy (fun _ => sampleConfig) callback :=
  ⟨rfl, by decide +kernel, text "session123", by decide +kernel,
    (show cStr (text "session123") = text "session123" by decide).trans hl.sessionId.symm⟩

/-- A callback that comes a second time, after the first has ended. -/
theorem login_consumed_once_replayed : ∃ (h : History Unit) (p : Requests Unit) (l : Login Unit),
    sampleService.Run ConsumesUncleared h p ∧ l.Begun h () (text "session123") ∧
    (∃ s t e, .call 1 callback (.setTokenResponse s t) () e ∈ h) ∧ (p.answer? 2).isSome ∧
    l.ConsumedOnce (fun _ => sampleConfig) h := by
  obtain ⟨h, p, hr, hc⟩ := System.exists_run (show (sampleService.replay consumesUncleared
    (logIn 1901001001 ++ [.spawn 2 callback 1901001002, .call 2 (answering .null) 1901001002])
    ([], sampleService.start)).any (fun c => ((c.2.shared ()).entry (text "session123")).isSome &&
      decide (sessionIds c.1).Nodup && c.1.any (saves 1) && (c.2.answer? 2).isSome) = true by decide +kernel)
  simp only [Bool.and_eq_true, decide_eq_true_eq] at hc
  obtain ⟨⟨⟨hk, hn⟩, hs⟩, ha⟩ := hc
  have hr := hr.mono consumesUncleared_of_test
  obtain ⟨l, hl⟩ := exists_login hr hk
  exact ⟨h, p, l, hr, hl, exists_save hs, ha, login_consumed_once hr hn l⟩

/-- Two callbacks that both read the authorization state before either clears it: both exchange
the code, the second after the first has saved, and both save. -/
theorem login_consumed_twice : ∃ (h : History Unit) (p : Requests Unit) (l : Login Unit),
    sampleService.Run (fun _ _ _ => True) h p ∧ (sessionIds h).Nodup ∧ l.Begun h () (text "session123") ∧
    ¬ l.ConsumedOnce (fun _ => sampleConfig) h := by
  obtain ⟨h, p, hr, hc⟩ := System.exists_any_run (show (sampleService.replay (fun _ _ _ => true)
    (.spawn 0 (visit []) 1901001001 :: List.replicate 4 (.call 0 (answering .null) 1901001001) ++
      [.spawn 1 callback 1901001002, .spawn 2 callback 1901001002] ++
      [.call 1 (answering .null) 1901001003, .call 2 (answering .null) 1901001003] ++
      List.replicate 3 (.call 1 (answering (.response 200 loginReply)) 1901001004) ++
      List.replicate 3 (.call 2 (answering (.response 200 loginReply)) 1901001005))
    ([], sampleService.start)).any (fun c => ((c.2.shared ()).entry (text "session123")).isSome &&
      decide (sessionIds c.1).Nodup && c.1.any (saves 1) && c.1.any (saves 2)) = true by decide +kernel)
  simp only [Bool.and_eq_true, decide_eq_true_eq] at hc
  obtain ⟨⟨⟨hk, hn⟩, hs₁⟩, hs₂⟩ := hc
  obtain ⟨l, hl⟩ := exists_login hr hk
  have hj := answeredBy_callback hl
  refine ⟨h, p, l, hr, hn, hl, fun honce => ?_⟩
  obtain ⟨_, _, _, hm₁⟩ := exists_save hs₁
  obtain ⟨_, _, _, hm₂⟩ := exists_save hs₂
  have := honce.one_saves 1 2 _ _ _ _ _ _ _ _ hj hj hm₁ hm₂
  omega

end Consumption
end AuthService.Filters.Oidc
