import AuthService.Filters.Oidc.TokenResponse

/-! What the parsers make of a reply they accept: the expiry they compute for the access token, and the
refresh token that is left after a chain of refreshes. -/
namespace AuthService.Filters.Oidc.TokenResponseParserImpl

section Replies

/-- A reply with one more member beside its type. -/
private def replyWith (member : Bytes) : Bytes :=
  text "\x7b\"token_type\":\"bearer\"," ++ member ++ text "\x7d"

private def fieldsWith (key : Bytes) (value : Value) : Fields :=
  [(tokenTypeField, .string bearerTokenType), (key, value)]

/-- The largest double below 2^63. -/
private def largest : Double := ⟨2 ^ 53 - 1, 10, by decide, by decide⟩

private theorem natAbs_hour : (3600 : Int).natAbs < 2 ^ 53 := by decide

private def hour : Double := .ofInt 3600 natAbs_hour

private def replyLibraries : Libraries where
  jsonStringToMessage raw :=
    [(replyWith (text "\"expires_in\":3600"), fieldsWith expiresInField (.number hour)),
      (replyWith (text "\"expires_in\":9223372036854774784"), fieldsWith expiresInField (.number largest)),
      (replyWith (text "\"refresh_token\":\"second\""), fieldsWith refreshTokenKey (.string (text "second"))),
      (replyWith (text "\"refresh_token\":null"), fieldsWith refreshTokenKey .null)].lookup raw
  parseFromString _ := none
  verifyJwt _ _ _ _ := false

private def loggedIn : TokenResponse := ⟨⟨[], 0, none⟩, text "access", text "first", 1901001000⟩

/-- What a refresh of `loggedIn` makes of a reply. -/
private def refreshed (fields : Fields) : TokenResponse := merged replyLibraries loggedIn (text "first") fields 1901001001

private theorem parse_refreshed {member : Bytes} {fields : Fields}
    (hj : replyLibraries.jsonStringToMessage (cStr (replyWith member)) = some fields) (hv : isInvalid fields = false) :
    parseRefreshTokenResponse replyLibraries loggedIn (replyWith member) 1901001001 = .ok (some (refreshed fields)) := by
  have hr : loggedIn.refreshToken = some (text "first") := by decide
  rw [parseRefreshTokenResponse_of_fields hr hj, hv]
  rfl

end Replies

section Expiry
variable {lib : Libraries} {now : Int} {fields : Fields} {t : TokenResponse}

/-- A reply that one of the parsers has accepted, and the response it made of it. -/
inductive Accepted (lib : Libraries) (now : Int) (fields : Fields) (t : TokenResponse) : Prop
  | login {jwks clientId nonce raw : Bytes} : lib.jsonStringToMessage (cStr raw) = some fields →
      parse lib jwks clientId nonce raw now = some t → Accepted lib now fields t
  | refresh {existing : TokenResponse} {raw : Bytes} : lib.jsonStringToMessage (cStr raw) = some fields →
      parseRefreshTokenResponse lib existing raw now = .ok (some t) → Accepted lib now fields t

private theorem withAccessToken_expiry (fields : Fields) (t : TokenResponse) :
    (withAccessToken fields t).accessTokenExpiry = t.accessTokenExpiry := by
  unfold withAccessToken
  split <;> rfl

private theorem withAccessTokenExpiry_expiry (fields : Fields) (now : Int) (t : TokenResponse) :
    (withAccessTokenExpiry fields now t).accessTokenExpiry =
      (parseAccessTokenExpiry fields now).getD t.accessTokenExpiry := by
  unfold withAccessTokenExpiry
  split <;> rename_i h <;> rw [h] <;> rfl

/-- Both parsers compute the expiry in the same way. -/
theorem accessTokenExpiry_of_accepted (h : Accepted lib now fields t) :
    t.accessTokenExpiry = (parseAccessTokenExpiry fields now).getD 0 := by
  cases h with
  | login hj h =>
    unfold parse at h
    simp only [hj] at h
    split at h
    · cases h
    · split at h
      · cases h
      · split at h
        · cases h
        · cases h
          rw [withAccessTokenExpiry_expiry]
          split <;> simp [TokenResponse.setRefreshToken, withAccessToken_expiry, TokenResponse.create]
  | refresh hj h =>
    unfold parseRefreshTokenResponse at h
    simp only [hj] at h
    split at h
    · cases h
    · split at h
      · cases h
      · cases h
        simp [withAccessTokenExpiry_expiry, TokenResponse.setRefreshToken, withAccessToken_expiry,
          TokenResponse.create]

private theorem int64_eq_self_iff (z : Int) : int64 z = z ↔ -2 ^ 63 ≤ z ∧ z < 2 ^ 63 := by
  have hpos : 0 < 2 ^ 64 := by decide
  constructor
  · intro h
    have hlow : -((2 ^ 64 : Nat) / 2 : Int) ≤ int64 z := Int.le_bmod hpos
    have hhigh : int64 z < ((2 ^ 64 : Nat) + 1 : Int) / 2 := Int.bmod_lt hpos
    rw [h] at hlow hhigh
    omega
  · rintro ⟨hlow, hhigh⟩
    exact Int.bmod_eq_of_le (by omega) (by omega)

private theorem expiry_of_number {d : Double} (h : Accepted lib now fields t)
    (he : fields.lookup expiresInField = some (.number d)) (hlow : -2 ^ 63 ≤ d.truncate) (hhigh : d.truncate < 2 ^ 63) :
    t.accessTokenExpiry = int64 (int64 (now + d.truncate) - 5) := by
  have hd : d.toInt64 = d.truncate := if_pos ⟨hlow, hhigh⟩
  rw [accessTokenExpiry_of_accepted h, parseAccessTokenExpiry, he, Option.map_some, Option.getD_some]
  exact congrArg (fun n => int64 (int64 (now + n) - 5)) hd

/-- The expiry of a response is `n` seconds from now less five, computed without an overflow and not taken
for the mark of a missing one; replies with a smaller number of seconds do not outlast it. -/
structure ExactExpiry (lib : Libraries) (now n : Int) (t : TokenResponse) : Prop where
  expiry : t.getAccessTokenExpiry = some (now + n - 5)
  sum : int64 (now + n) = now + n
  difference : int64 (int64 (now + n) - 5) = int64 (now + n) - 5
  sentinel : t.accessTokenExpiry ≠ 0
  monotone : ∀ fields' t' d', Accepted lib now fields' t' → fields'.lookup expiresInField = some (.number d') →
    0 < d'.truncate → d'.truncate ≤ n → t'.accessTokenExpiry ≤ t.accessTokenExpiry

/-- The number of seconds is the integer part of the JSON number; the expiry is exact as long as the sum with
the current time stays below 2^63. -/
theorem exactExpiry_iff {d : Double} (h : Accepted lib now fields t) (hnow : 5 ≤ now)
    (he : fields.lookup expiresInField = some (.number d)) (hpos : 0 < d.truncate) (hfits : d.truncate < 2 ^ 63) :
    ExactExpiry lib now d.truncate t ↔ now + d.truncate < 2 ^ 63 := by
  constructor
  · intro hexact
    exact ((int64_eq_self_iff _).mp hexact.sum).2
  · intro hsum
    have hexact (n : Int) (hn : 0 < n) (hle : n ≤ d.truncate) :
        int64 (now + n) = now + n ∧ int64 (now + n - 5) = now + n - 5 :=
      ⟨(int64_eq_self_iff _).mpr (by omega), (int64_eq_self_iff _).mpr (by omega)⟩
    obtain ⟨hadd, hsub⟩ := hexact d.truncate hpos le_rfl
    have hexpiry : t.accessTokenExpiry = now + d.truncate - 5 := by
      rw [expiry_of_number h he (by omega) hfits, hadd, hsub]
    have hne : t.accessTokenExpiry ≠ 0 := by omega
    refine ⟨?_, hadd, by rw [hadd, hsub], hne, ?_⟩
    · rw [TokenResponse.getAccessTokenExpiry, if_neg hne, hexpiry]
    · intro fields' t' d' h' he' hpos' hle
      obtain ⟨hadd', hsub'⟩ := hexact d'.truncate hpos' hle
      rw [hexpiry, expiry_of_number h' he' (by omega) (by omega), hadd', hsub']
      omega

private theorem accepted_hour :
    Accepted replyLibraries 1901001001 (fieldsWith expiresInField (.number hour))
      (refreshed (fieldsWith expiresInField (.number hour))) := by
  have hj : replyLibraries.jsonStringToMessage (cStr (replyWith (text "\"expires_in\":3600"))) =
      some (fieldsWith expiresInField (.number hour)) := by decide +kernel
  exact .refresh hj (parse_refreshed hj (by decide))

private theorem accepted_largest :
    Accepted replyLibraries 1901001001 (fieldsWith expiresInField (.number largest))
      (refreshed (fieldsWith expiresInField (.number largest))) := by
  have hj : replyLibraries.jsonStringToMessage (cStr (replyWith (text "\"expires_in\":9223372036854774784"))) =
      some (fieldsWith expiresInField (.number largest)) := by decide +kernel
  exact .refresh hj (parse_refreshed hj (by decide +kernel))

theorem exactExpiry_hour :
    ExactExpiry replyLibraries 1901001001 3600 (refreshed (fieldsWith expiresInField (.number hour))) :=
  (exactExpiry_iff (d := hour) accepted_hour (by decide) (by decide) (by decide) (by decide)).mpr (by decide)

/-- With nearly 2^63 seconds the sum wraps, and the token is taken for expired since long. -/
theorem expiry_wraps :
    Accepted replyLibraries 1901001001 (fieldsWith expiresInField (.number largest))
        (refreshed (fieldsWith expiresInField (.number largest))) ∧
      largest.truncate = 9223372036854774784 ∧
      (refreshed (fieldsWith expiresInField (.number largest))).getAccessTokenExpiry =
        some (-9223372034953775836) ∧
      ¬ ExactExpiry replyLibraries 1901001001 9223372036854774784
        (refreshed (fieldsWith expiresInField (.number largest))) := by
  have hexpiry : (refreshed (fieldsWith expiresInField (.number largest))).getAccessTokenExpiry =
      some (-9223372034953775836) := by decide +kernel
  refine ⟨accepted_largest, by decide, hexpiry, fun h => ?_⟩
  have := h.expiry
  rw [hexpiry] at this
  simp at this

end Expiry

section Chain
variable {lib : Libraries} {existing : TokenResponse} {token : Bytes}

/-- The refresh token a session is left with after a reply: the reply's, if it is a non-empty string. -/
def keptToken (token : Bytes) (fields : Fields) : Bytes :=
  match fields.lookup refreshTokenKey with
  | some (.string s) => if s = [] then token else s
  | _ => token

/-- The reply says nothing about the refresh token or holds a new one. -/
def Unambiguous (fields : Fields) : Prop :=
  fields.lookup refreshTokenKey = none ∨ ∃ s, s ≠ [] ∧ fields.lookup refreshTokenKey = some (.string s)

private theorem merged_refreshToken_iff (fields : Fields) (now : Int) (ht : token ≠ []) :
    (merged lib existing token fields now).refreshToken = some (keptToken token fields) ↔ Unambiguous fields := by
  have hfield : (merged lib existing token fields now).refreshTokenField =
      ((fields.lookup refreshTokenKey).map (·.stringValue)).getD token := by
    unfold merged withAccessTokenExpiry
    split <;> rfl
  unfold Unambiguous keptToken
  rw [TokenResponse.refreshToken, hfield]
  cases h : fields.lookup refreshTokenKey with
  | none => simp [ht]
  | some v =>
    cases v with
    | string s => by_cases hs : s = [] <;> simp [Value.stringValue, hs]
    | _ => simp [Value.stringValue]

/-- An accepted reply, the time it arrived and the response made of it. -/
structure RefreshStep where
  fields : Fields
  now : Int
  result : TokenResponse

/-- Refreshes of one session, each starting from the response the one before has left. -/
inductive Refreshes (lib : Libraries) : TokenResponse → List RefreshStep → Prop
  | nil {existing : TokenResponse} : Refreshes lib existing []
  | cons {existing : TokenResponse} {raw : Bytes} {step : RefreshStep} {steps : List RefreshStep} :
      lib.jsonStringToMessage (cStr raw) = some step.fields →
      parseRefreshTokenResponse lib existing raw step.now = .ok (some step.result) →
      Refreshes lib step.result steps → Refreshes lib existing (step :: steps)

/-- The token left by a list of replies. -/
def tokenAfter (token : Bytes) (steps : List RefreshStep) : Bytes :=
  steps.foldl (fun token step => keptToken token step.fields) token

/-- Every response of the chain has the refresh token that is left of the replies so far. -/
def KeepsToken (token : Bytes) (steps : List RefreshStep) : Prop :=
  ∀ front step back, steps = front ++ step :: back →
    step.result.refreshToken = some (tokenAfter token (front ++ [step]))

private theorem keepsToken_cons (token : Bytes) (step : RefreshStep) (steps : List RefreshStep) :
    KeepsToken token (step :: steps) ↔
      step.result.refreshToken = some (keptToken token step.fields) ∧
        KeepsToken (keptToken token step.fields) steps := by
  constructor
  · intro h
    refine ⟨h [] step steps rfl, ?_⟩
    intro front next back heq
    exact h (step :: front) next back (by rw [heq, List.cons_append])
  · rintro ⟨hfirst, hrest⟩ front next back heq
    cases front with
    | nil =>
      obtain ⟨rfl, -⟩ := List.cons.inj heq
      exact hfirst
    | cons first front =>
      obtain ⟨rfl, hsteps⟩ := List.cons.inj heq
      exact hrest front next back hsteps

private theorem refreshToken_eq_some {t : TokenResponse} (h : t.refreshToken = some token) : token ≠ [] := by
  unfold TokenResponse.refreshToken at h
  split at h
  · cases h
  · cases h
    assumption

private theorem refreshToken_of_accepted {raw : Bytes} {step : RefreshStep} (hr : existing.refreshToken = some token)
    (hj : lib.jsonStringToMessage (cStr raw) = some step.fields)
    (h : parseRefreshTokenResponse lib existing raw step.now = .ok (some step.result)) :
    step.result.refreshToken = some (keptToken token step.fields) ↔ Unambiguous step.fields := by
  rw [parseRefreshTokenResponse_of_fields hr hj] at h
  split at h
  · cases h
  · have hmerged := Option.some.inj (Except.ok.inj h)
    rw [← hmerged]
    exact merged_refreshToken_iff step.fields step.now (refreshToken_eq_some hr)

/-- A session keeps its refresh token through a chain of refreshes exactly when no reply holds the field without
a token in it. -/
theorem keepsToken_iff {steps : List RefreshStep} (hr : existing.refreshToken = some token)
    (h : Refreshes lib existing steps) : KeepsToken token steps ↔ ∀ step ∈ steps, Unambiguous step.fields := by
  induction h generalizing token with
  | nil => exact iff_of_true (fun front step back heq => by simp at heq) (by simp)
  | @cons existing raw step steps hj hstep _ ih =>
    have hfirst := refreshToken_of_accepted hr hj hstep
    rw [keepsToken_cons, List.forall_mem_cons]
    constructor
    · rintro ⟨hkept, hrest⟩
      exact ⟨hfirst.mp hkept, (ih hkept).mp hrest⟩
    · rintro ⟨hclear, hrest⟩
      have hkept := hfirst.mpr hclear
      exact ⟨hkept, (ih hkept).mpr hrest⟩

private def renewed : RefreshStep where
  fields := fieldsWith refreshTokenKey (.string (text "second"))
  now := 1901001001
  result := refreshed (fieldsWith refreshTokenKey (.string (text "second")))

private def nulled : RefreshStep where
  fields := fieldsWith refreshTokenKey .null
  now := 1901001001
  result := refreshed (fieldsWith refreshTokenKey .null)

private theorem refreshes_renewed : Refreshes replyLibraries loggedIn [renewed] := by
  have hj : replyLibraries.jsonStringToMessage (cStr (replyWith (text "\"refresh_token\":\"second\""))) =
      some renewed.fields := by decide +kernel
  exact .cons hj (parse_refreshed hj (by decide)) .nil

private theorem refreshes_nulled : Refreshes replyLibraries loggedIn [nulled] := by
  have hj : replyLibraries.jsonStringToMessage (cStr (replyWith (text "\"refresh_token\":null"))) =
      some nulled.fields := by decide +kernel
  exact .cons hj (parse_refreshed hj (by decide)) .nil

theorem keepsToken_renewed : KeepsToken (text "first") [renewed] := by
  refine (keepsToken_iff (by decide) refreshes_renewed).mpr ?_
  intro step hs
  rw [List.mem_singleton.mp hs]
  exact .inr ⟨text "second", by decide, by decide⟩

/-- A null in place of the refresh token costs the session its own. -/
theorem null_loses_token :
    loggedIn.refreshToken = some (text "first") ∧ Refreshes replyLibraries loggedIn [nulled] ∧
      nulled.result.refreshToken = none ∧ ¬ KeepsToken (text "first") [nulled] := by
  have hnone : nulled.result.refreshToken = none := by decide +kernel
  refine ⟨by decide, refreshes_nulled, hnone, fun h => ?_⟩
  have := h [] nulled [] rfl
  rw [hnone] at this
  cases this

end Chain
end AuthService.Filters.Oidc.TokenResponseParserImpl
