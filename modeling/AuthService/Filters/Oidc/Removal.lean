import AuthService.Filters.Oidc.Login

/-! Removed sessions under interleaving: when they stay removed, and which requests remove
sessions that still hold usable tokens. -/
namespace AuthService.Filters.Oidc
open Lib Common.Http Config OidcFilter

variable {C : Type} [DecidableEq C] {lib : Libraries} {cfg : C → OIDCConfig}

section Erased
variable {h h₀ h₁ h₂ : History C} {p p₀ p₁ p₂ : Requests C} {c : C} {key : Bytes}

def drawn? : Moment C → Option SessionString
  | .call _ _ .generateSessionId sid _ => some sid
  | _ => none

/-- The session ids drawn in a history. -/
def sessionIds (h : History C) : List SessionString := h.filterMap drawn?

omit [DecidableEq C] in
theorem nodup_sessionIds_of_sublist (hs : h₀.Sublist h) (hn : (sessionIds h).Nodup) : (sessionIds h₀).Nodup :=
  hn.sublist (hs.filterMap _)

/-- Saving a token response finds its session in the store. -/
def SavesInPlace (_ : History C) (stores : Stores C) (ev : Moment C) : Prop :=
  ∀ i j s t e, ev = .call i j (.setTokenResponse s t) () e → (stores j.chain).HasKey (cStr s)

omit [DecidableEq C] in
private theorem eq_of_drawn {ev ev' : Moment C} {sid : SessionString} (hn : (sessionIds h).Nodup)
    (hm : ev ∈ h) (hm' : ev' ∈ h) (hd : drawn? ev = some sid) (hd' : drawn? ev' = some sid) : ev = ev' := by
  induction h with
  | nil => cases hm
  | cons first h ih =>
    have hmem {x : Moment C} (hx : x ∈ h) (hdx : drawn? x = some sid) : sid ∈ sessionIds h :=
      List.mem_filterMap.mpr ⟨x, hx, hdx⟩
    unfold sessionIds at hn ih
    rw [List.filterMap_cons] at hn
    rcases List.mem_cons.mp hm with hfirst | hin
    · rcases List.mem_cons.mp hm' with hfirst' | hin'
      · exact hfirst.trans hfirst'.symm
      · rw [← hfirst, hd] at hn
        exact absurd (hmem hin' hd') (List.nodup_cons.mp hn).1
    · rcases List.mem_cons.mp hm' with hfirst' | hin'
      · rw [← hfirst', hd'] at hn
        exact absurd (hmem hin hd) (List.nodup_cons.mp hn).1
      · refine ih ?_ hin hin'
        split at hn
        · exact hn
        · exact (List.nodup_cons.mp hn).2

private theorem redirects_no_login {request : CheckRequest} {cfg : OIDCConfig} {log : Log}
    (hr : Redirects lib cfg request log) (s : Bytes) (a : AuthorizationState) (e : Int) :
    (⟨.setAuthorizationState s a, (), e⟩ : Program.Called Int Op.Res) ∉ log := by
  cases hr with
  | newVisitor => simp
  | discarded _ hrej => cases hrej <;> simp

omit [DecidableEq C] in
/-- The id of a login being stored was drawn by another login: the generator repeated itself. -/
theorem not_issues_of_begun {i : Nat} {j : Job C} {s : Bytes} {a : AuthorizationState} {l : Login C}
    (hn : (sessionIds h).Nodup) (hl : l.Begun h j.chain (cStr s)) (hw : System.Owns h i j) :
    ¬ Issues lib (cfg j.chain) j.request (System.log i h) (.setAuthorizationState s a) := by
  intro hi
  have hlog := System.log_sublist hw.own
  generalize hlog' : System.log i h = log at hi hlog
  cases hi with
  | @beginLogin log sid st n e₁ e₂ e₃ hr =>
    have hown : .call i j .generateSessionId sid e₁ ∈ h := hlog.subset (by simp [System.event])
    have hdrawn : .call l.thread l.job .generateSessionId l.sessionId l.sessionIdAt ∈ h :=
      hl.events.subset (by simp [Login.events])
    have hsid : l.sessionId = sid := Subtype.ext (by simpa using hl.sessionId)
    have hsame := eq_of_drawn hn hdrawn hown rfl (by rw [hsid]; rfl)
    obtain ⟨hthread, _⟩ := Event.call.inj hsame
    have hstored := System.mem_log (hl.events.subset List.mem_cons_self)
    rw [hthread, hlog'] at hstored
    simp only [List.mem_cons, reduceCtorEq, Program.Called.mk.injEq, false_and, false_or] at hstored
    exact redirects_no_login hr _ _ _ hstored

private theorem not_hasKey_step {a : Action Nat (Job C) (Cleanup C) Int External} {ev : Moment C} {l : Login C}
    (hr : (service lib cfg).Run SavesInPlace h p) (hs : (service lib cfg).step p a = some (ev, p₁))
    (hc : SavesInPlace h p.shared ev) (hn : (sessionIds h).Nodup) (hl : l.Begun h c key)
    (hk : ¬ (p.shared c).HasKey key) : ¬ (p₁.shared c).HasKey key := by
  intro hkey
  rcases hr.step_cases (service_follows lib cfg) hs with
    ⟨i, j, e, rfl, hp⟩ | ⟨i, j, o, e, x, hw, hi, rfl, hp⟩ | ⟨u, rfl, hp⟩
  · exact hk (hp ▸ hkey)
  · rw [hp] at hkey
    rcases hasKey_call hkey with hkey | ⟨rfl, ⟨s, t, rfl, rfl⟩ | ⟨s, a, rfl, rfl⟩⟩
    · exact hk hkey
    · exact hk (hc i j s t e rfl)
    · exact not_issues_of_begun hn hl hw hi
  · rw [hp] at hkey
    exact hk (hasKey_tick hkey)

private theorem answered_before {a : Action Nat (Job C) (Cleanup C) Int External} {ev : Moment C} {i : Nat} {j : Job C}
    {outcome : Outcome} {s : Bytes}
    (hr : (service lib cfg).Run SavesInPlace h p) (hs : (service lib cfg).step p a = some (ev, p₁))
    (hc : SavesInPlace h p.shared ev) (ha : p₁.answer? i = some (j, outcome)) (hf : outcome.forwardsTokens = true)
    (hcookie : sessionCookie (cfg j.chain) j.request = some s) (hk : ¬ (p.shared j.chain).HasKey (cStr s)) :
    p.answer? i = some (j, outcome) := by
  obtain ⟨hw, e, hends⟩ := ends_of_answered (hr.snoc hs hc) ha
  rcases hr.answer_cases (service_follows lib cfg) hs ha with hold | hnil | ⟨o, r, e', rfl⟩
  · exact hold
  · rw [hnil] at hends
    cases hends.of_forwardsTokens hf
  · generalize hlog : System.log i (_ :: h) = log at hends
    rw [System.log_call, if_pos rfl] at hlog
    cases hends.of_forwardsTokens hf with
    | @stored s' t e hs' _ _ =>
      obtain rfl : s' = s := by simpa [hcookie] using hs'.cookie.symm
      obtain ⟨hcall, _⟩ := List.cons.inj hlog
      obtain ⟨rfl, hres, _⟩ := Program.Called.mk.inj hcall
      cases eq_of_heq hres
      exact absurd (InMemorySessionStore.hasKey_of_tokens (tokens_of_step hs)) hk
    | @refreshed s' t e token answer e' t' e'' hs' _ =>
      obtain rfl : s' = s := by simpa [hcookie] using hs'.enters.cookie.symm
      obtain ⟨hcall, _⟩ := List.cons.inj hlog
      obtain ⟨rfl, _, _⟩ := Program.Called.mk.inj hcall
      exact absurd (hc i j s' t' _ rfl) hk

/-- A removed session stays removed. In every run whose generator never repeats a session id and
whose saves all find their session in the store, a key once present and then absent is never a key
again, and no request of that session is let through with tokens after it was removed. -/
theorem removed_stays_removed (hr : (service lib cfg).Run SavesInPlace h₀ p₀) (hk : (p₀.shared c).HasKey key)
    (hx : (service lib cfg).Extends SavesInPlace h₀ p₀ h₁ p₁) (he : ¬ (p₁.shared c).HasKey key)
    (hy : (service lib cfg).Extends SavesInPlace h₁ p₁ h₂ p₂) (hn : (sessionIds h₂).Nodup) :
    ¬ (p₂.shared c).HasKey key ∧
      ∀ i j outcome s, p₂.answer? i = some (j, outcome) → outcome.forwardsTokens = true → j.chain = c →
        sessionCookie (cfg c) j.request = some s → cStr s = key → p₁.answer? i = some (j, outcome) := by
  obtain ⟨l, hl⟩ := exists_login hr hk
  have hr₁ := hx.run hr
  induction hy with
  | refl => exact ⟨he, fun _ _ _ _ ha _ _ _ _ => ha⟩
  | @snoc h' p' a ev p'' hy hs hc ih =>
    have hn' := nodup_sessionIds_of_sublist (List.sublist_cons_self _ _) hn
    obtain ⟨hgone, hanswers⟩ := ih hn'
    have hl' : l.Begun h' c key := { hl with events := hl.events.trans (hx.sublist.trans hy.sublist) }
    refine ⟨not_hasKey_step (hy.run hr₁) hs hc hn' hl' hgone, ?_⟩
    rintro i j outcome s ha hf rfl hcookie rfl
    exact hanswers i j outcome s (answered_before (hy.run hr₁) hs hc ha hf hcookie hgone) hf rfl hcookie rfl

private def savesInPlace (_ : History Unit) (stores : Stores Unit) : Moment Unit → Bool
  | .call _ j (.setTokenResponse s _) _ _ => ((stores j.chain).entry (cStr s)).isSome
  | _ => true

private theorem savesInPlace_of_test (h : History Unit) (stores : Stores Unit) (ev : Moment Unit)
    (ht : savesInPlace h stores ev = true) : SavesInPlace h stores ev := by
  rintro i j s t e rfl
  exact ht

/-- A login, a logout, and a visit with the old cookie. -/
theorem removed_stays_removed_logout : ∃ (h₁ h₂ : History Unit) (p₁ p₂ : Requests Unit),
    sampleService.Run SavesInPlace h₁ p₁ ∧ (p₁.answer? 2).isSome ∧
    sampleService.Extends SavesInPlace h₁ p₁ h₂ p₂ ∧ ¬ (p₂.shared ()).HasKey (text "session123") := by
  obtain ⟨c₀, hc₀, hc⟩ := (Option.any_eq_true _ _).mp (show (sampleService.replay savesInPlace (logIn 1901001001)
    ([], sampleService.start)).any (fun c₀ => ((c₀.2.shared ()).entry (text "session123")).isSome &&
      (sampleService.replay savesInPlace [.spawn 2 logout 1901001002, .call 2 (answering .null) 1901001002] c₀).any
        fun c₁ => (c₁.2.answer? 2).isSome && ((c₁.2.shared ()).entry (text "session123")).isNone &&
          (sampleService.replay savesInPlace [.spawn 3 (visit [sampleCookie]) 1901001003,
            .call 3 (answering .null) 1901001003, .call 3 (answering .null) 1901001003] c₁).any
              fun c₂ => decide (sessionIds c₂.1).Nodup) = true by decide +kernel)
  simp only [Bool.and_eq_true, Option.any_eq_true, decide_eq_true_eq] at hc
  obtain ⟨hk, c₁, hc₁, ⟨ha, he⟩, c₂, hc₂, hn⟩ := hc
  have hr := ((System.Extends.replay hc₀).run .nil).mono savesInPlace_of_test
  have hx := (System.Extends.replay hc₁).mono savesInPlace_of_test
  have hy := (System.Extends.replay hc₂).mono savesInPlace_of_test
  have he : ¬ (c₁.2.shared ()).HasKey (text "session123") := by
    simpa [InMemorySessionStore.HasKey] using he
  exact ⟨c₁.1, c₂.1, c₁.2, c₂.2, hx.run hr, ha, hy, (removed_stays_removed hr hk hx he hy hn).1⟩

/-- A refresh in flight undoes a logout: it writes the session back, and the old cookie is let
through again. -/
theorem logout_undone : ∃ (h₀ h₁ h₂ : History Unit) (p₀ p₁ p₂ : Requests Unit) (j : Job Unit) (outcome : Outcome),
    sampleService.Run (fun _ _ _ => True) h₀ p₀ ∧ (p₀.shared ()).HasKey (text "session123") ∧
    sampleService.Extends (fun _ _ _ => True) h₀ p₀ h₁ p₁ ∧ ¬ (p₁.shared ()).HasKey (text "session123") ∧
    sampleService.Extends (fun _ _ _ => True) h₁ p₁ h₂ p₂ ∧ (sessionIds h₂).Nodup ∧
    (p₂.shared ()).HasKey (text "session123") ∧ p₁.answer? 4 = none ∧ p₂.answer? 4 = some (j, outcome) ∧
    outcome.forwardsTokens = true ∧ sessionCookie sampleConfig j.request = some (text "session123") := by
  obtain ⟨c₀, hc₀, hc⟩ := (Option.any_eq_true _ _).mp (show (sampleService.replay (fun _ _ _ => true)
    (logIn 1901001001 ++ .spawn 2 (visit [sampleCookie]) 1901005000 ::
      List.replicate 2 (.call 2 (answering (.response 200 refreshReply)) 1901005000))
    ([], sampleService.start)).any (fun c₀ => ((c₀.2.shared ()).entry (text "session123")).isSome &&
      (sampleService.replay (fun _ _ _ => true) [.spawn 3 logout 1901005001, .call 3 (answering .null) 1901005001]
        c₀).any fun c₁ => ((c₁.2.shared ()).entry (text "session123")).isNone && (c₁.2.answer? 4).isNone &&
          (sampleService.replay (fun _ _ _ => true) [.call 2 (answering .null) 1901005002,
            .spawn 4 (visit [sampleCookie]) 1901005003, .call 4 (answering .null) 1901005003] c₁).any
              fun c₂ => decide (sessionIds c₂.1).Nodup && ((c₂.2.shared ()).entry (text "session123")).isSome &&
                (c₂.2.answer? 4).any fun x => x.2.forwardsTokens &&
                  sessionCookie sampleConfig x.1.request == some (text "session123")) = true by decide +kernel)
  simp only [Bool.and_eq_true, Option.any_eq_true, decide_eq_true_eq, beq_iff_eq] at hc
  obtain ⟨hk, c₁, hc₁, ⟨he, hnone⟩, c₂, hc₂, ⟨hn, hk'⟩, ⟨j, outcome⟩, ha, hf, hs⟩ := hc
  refine ⟨c₀.1, c₁.1, c₂.1, c₀.2, c₁.2, c₂.2, j, outcome,
    ((System.Extends.replay hc₀).run .nil).mono fun _ _ _ _ => trivial, hk,
    (System.Extends.replay hc₁).mono fun _ _ _ _ => trivial, ?_,
    (System.Extends.replay hc₂).mono fun _ _ _ _ => trivial, hn, hk', by simpa using hnone, ha, hf, hs⟩
  simpa [InMemorySessionStore.HasKey] using he

end Erased
section Discarded
variable {h : History C} {p p' : Requests C} {ev : Moment C}

/-- A request that gives up a session finds the token response it had read still stored, and the
clock not set back since. -/
def DiscardsWhatItRead (cfg : C → OIDCConfig) (h : History C) (stores : Stores C) (ev : Moment C) : Prop :=
  ∀ i j s e, ev = .call i j (.removeSession s) () e → matchesLogoutRequest (cfg j.chain) j.request = false →
    ∀ stored e', (⟨.getTokenResponse s, stored, e'⟩ : Program.Called Int Op.Res) ∈ System.log i h →
      (stores j.chain).tokens (cStr s) = stored ∧ e' ≤ e

/-- A request that removes a session holding unexpired required tokens is a logout. -/
def OnlyLogoutsDiscard (cfg : C → OIDCConfig) (stores : Stores C) (ev : Moment C) : Prop :=
  ∀ i j s e t, ev = .call i j (.removeSession s) () e → (stores j.chain).tokens (cStr s) = some t →
    requiredTokensPresent (cfg j.chain) (some t) = true → requiredTokensExpired (cfg j.chain) e t = false →
    matchesLogoutRequest (cfg j.chain) j.request = true

/-- What has expired stays expired. -/
theorem requiredTokensExpired_mono {cfg : OIDCConfig} {t : TokenResponse} {e e' : Int} (he : e' ≤ e)
    (hx : requiredTokensExpired cfg e' t = true) : requiredTokensExpired cfg e t = true := by
  unfold requiredTokensExpired at hx ⊢
  split at hx
  · rw [if_pos (by omega)]
  · split
    · rfl
    · cases ht : t.getAccessTokenExpiry with
      | none => simp [ht] at hx
      | some expiry =>
        simp only [ht, Option.elim_some, Bool.and_eq_true, decide_eq_true_eq] at hx ⊢
        exact ⟨hx.1, by omega⟩

private theorem exists_read_of_rejects {cfg : OIDCConfig} {request : CheckRequest} {s : Bytes} {log : Log}
    (hr : Rejects lib cfg request s log) :
    ∃ stored e, (⟨.getTokenResponse s, stored, e⟩ : Program.Called Int Op.Res) ∈ log ∧
      (requiredTokensPresent cfg stored = false ∨ ∃ t, stored = some t ∧ requiredTokensExpired cfg e t = true) := by
  cases hr with
  | @incomplete stored e hp => exact ⟨stored, e, by simp, .inl hp⟩
  | @unrefreshable t e hx _ => exact ⟨some t, e, by simp, .inr ⟨t, rfl, hx⟩⟩
  | @refreshFailed t token answer e e' hr _ => exact ⟨some t, e, by simp, .inr ⟨t, rfl, hr.expired⟩⟩

/-- In every run in which requests only give up sessions that still hold what they had read, the
only requests that remove a session holding unexpired required tokens are logouts. -/
theorem unexpired_session_kept {a : Action Nat (Job C) (Cleanup C) Int External}
    (hr : (service lib cfg).Run (DiscardsWhatItRead cfg) h p) (hs : (service lib cfg).step p a = some (ev, p'))
    (hc : DiscardsWhatItRead cfg h p.shared ev) : OnlyLogoutsDiscard cfg p.shared ev := by
  rintro i j s e t rfl ht hp hx
  rcases hr.step_cases (service_follows lib cfg) hs with
    ⟨_, _, _, hev, _⟩ | ⟨i', j', o, e', x, _, hi, hev, _⟩ | ⟨_, hev, _⟩
  · cases hev
  · obtain ⟨rfl, rfl, rfl, _, rfl⟩ := Event.call.inj hev
    by_contra hl
    have hl : matchesLogoutRequest (cfg j.chain) j.request = false := by simpa using hl
    have hread := hc i j s e rfl hl
    generalize System.log i h = log at hi hread
    cases hi with
    | logout _ hl' => simp [hl] at hl'
    | discard _ hrej =>
      obtain ⟨stored, e', hm, hbad⟩ := exists_read_of_rejects hrej
      obtain ⟨hstored, he⟩ := hread stored e' hm
      obtain rfl : some t = stored := ht.symm.trans hstored
      rcases hbad with hbad | ⟨t', htt, hbad⟩
      · simp [hp] at hbad
      · cases htt
        simp [requiredTokensExpired_mono he hbad] at hx
  · cases hev

private def discardsWhatItRead (h : History Unit) (stores : Stores Unit) : Moment Unit → Bool
  | .call i j (.removeSession s) _ e => matchesLogoutRequest sampleConfig j.request ||
    (System.log i h).all fun read => match read with
      | ⟨.getTokenResponse s', stored, e'⟩ => s' != s || ((stores j.chain).tokens (cStr s) == stored && e' ≤ e)
      | _ => true
  | _ => true

private theorem discardsWhatItRead_of_test (h : History Unit) (stores : Stores Unit) (ev : Moment Unit)
    (ht : discardsWhatItRead h stores ev = true) : DiscardsWhatItRead (fun _ => sampleConfig) h stores ev := by
  rintro i j s e rfl hl stored e' hm
  simp only [discardsWhatItRead, hl, Bool.false_or, List.all_eq_true] at ht
  simpa using ht _ hm

private def removes : Moment Unit → Bool
  | .call _ _ (.removeSession _) _ _ => true
  | _ => false

/-- A visit after the tokens expired, whose refresh is refused. -/
theorem unexpired_session_kept_refused :
    ∃ (h : History Unit) (p p' : Requests Unit) (a : Action Nat (Job Unit) (Cleanup Unit) Int External)
      (i : Nat) (j : Job Unit) (s : Bytes) (e : Int),
      sampleService.Run (DiscardsWhatItRead fun _ => sampleConfig) h p ∧
      sampleService.step p a = some (.call i j (.removeSession s) () e, p') ∧
      OnlyLogoutsDiscard (fun _ => sampleConfig) p.shared (.call i j (.removeSession s) () e) := by
  obtain ⟨h, p, hr, hc⟩ := System.exists_run (show (sampleService.replay discardsWhatItRead
    (logIn 1901001001 ++ .spawn 2 (visit [sampleCookie]) 1901005000 ::
      List.replicate 2 (.call 2 (answering (.response 400 [])) 1901005000))
    ([], sampleService.start)).any (fun c => (sampleService.step c.2 (.call 2 (answering .null) 1901005001)).any
      fun x => discardsWhatItRead c.1 c.2.shared x.1 && removes x.1) = true by decide +kernel)
  simp only [Option.any_eq_true, Bool.and_eq_true] at hc
  obtain ⟨⟨ev, p'⟩, hs, ht, hev⟩ := hc
  have hr := hr.mono discardsWhatItRead_of_test
  rcases ev with _ | ⟨i, j, ⟨⟩, r, e⟩ | _ <;> cases hev
  rename_i s
  exact ⟨h, p, p', _, i, j, s, e, hr, hs, unexpired_session_kept hr hs (discardsWhatItRead_of_test _ _ _ ht)⟩

private def discardsUnexpired (stores : Stores Unit) : Moment Unit → Bool
  | .call _ j (.removeSession s) _ e => !matchesLogoutRequest sampleConfig j.request &&
    ((stores j.chain).tokens (cStr s)).any fun t =>
      requiredTokensPresent sampleConfig (some t) && !requiredTokensExpired sampleConfig e t
  | _ => false

/-- Of two refreshes of one session the second is refused, and removes what the first stored. -/
theorem refreshed_session_discarded :
    ∃ (h : History Unit) (p p' : Requests Unit) (a : Action Nat (Job Unit) (Cleanup Unit) Int External)
      (ev : Moment Unit), sampleService.Run (fun _ _ _ => True) h p ∧ sampleService.step p a = some (ev, p') ∧
      ¬ OnlyLogoutsDiscard (fun _ => sampleConfig) p.shared ev := by
  obtain ⟨h, p, hr, hc⟩ := System.exists_any_run (show (sampleService.replay (fun _ _ _ => true)
    (logIn 1901001001 ++ [.spawn 2 (visit [sampleCookie]) 1901005000, .spawn 3 (visit [sampleCookie]) 1901005000,
      .call 2 (answering .null) 1901005000, .call 3 (answering .null) 1901005000,
      .call 2 (answering (.response 200 refreshReply)) 1901005001, .call 3 (answering (.response 400 [])) 1901005001,
      .call 2 (answering .null) 1901005002])
    ([], sampleService.start)).any (fun c => (sampleService.step c.2 (.call 3 (answering .null) 1901005002)).any
      fun x => discardsUnexpired c.2.shared x.1) = true by decide +kernel)
  simp only [Option.any_eq_true] at hc
  obtain ⟨⟨ev, p'⟩, hs, hev⟩ := hc
  refine ⟨h, p, p', _, ev, hr, hs, fun honly => ?_⟩
  rcases ev with _ | ⟨i, j, ⟨⟩, r, e⟩ | _ <;> try cases hev
  rename_i s
  simp only [discardsUnexpired, Bool.and_eq_true, Bool.not_eq_true', Option.any_eq_true] at hev
  obtain ⟨hl, t, ht, hp, hx⟩ := hev
  simp [honly i j s e t rfl ht hp hx] at hl

end Discarded
end AuthService.Filters.Oidc
