import AuthService.Common.Http.BasicAuth
import AuthService.Common.Http.Connection
import AuthService.Common.Http.Serialization
import AuthService.Filters.Oidc.OidcFilter

/-! What a token endpoint reads from the requests that the filter posts, as they are written to the TLS stream. -/
namespace AuthService.Filters.Oidc
open Lib Common.Http Common.Http.Connection Config OidcFilter

/-- The two grants for which the filter asks for tokens. -/
inductive Grant where
  | authorizationCode (code : Bytes)
  | refreshToken (token : Bytes)
  deriving DecidableEq

/-- A token request as its endpoint understands it. -/
structure TokenRequest where
  credentials : Option (Bytes × Bytes)
  form : Multimap Bytes Bytes
  deriving DecidableEq

/-- The fields of a message with a name, without case. -/
def fieldsNamed (name : Bytes) (message : Message) : List (Bytes × Bytes) :=
  message.fields.filter fun field => equalsIgnoreCase field.1 name

/-- An endpoint takes the credentials from the one authorization field, if there is one, and the rest from the form. -/
def readTokenRequest (message : Message) : Option TokenRequest :=
  match fieldsNamed Headers.authorization message with
  | [] => (decodeFormData message.body).map (.mk none)
  | [field] => (decodeBasicAuth field.2).bind fun pair => (decodeFormData message.body).map (.mk (some pair))
  | _ => none

/-- Neither cut short where the encoder takes a C string, nor changed by the form's spelling of a space. -/
structure Plain (s : Bytes) : Prop where
  nulFree : NulFree s
  plusFree : '+'.toUInt8 ∉ s

instance (s : Bytes) : Decidable (Plain s) :=
  decidable_of_iff (NulFree s ∧ '+'.toUInt8 ∉ s) ⟨fun h => ⟨h.1, h.2⟩, fun h => ⟨h.nulFree, h.plusFree⟩⟩

section
variable (cfg : OIDCConfig) (target : Uri)

def Grant.request : Grant → PostRequest
  | .authorizationCode code => retrieveTokenRequest cfg code
  | .refreshToken token => refreshTokenRequest cfg token

/-- What the filter means to say. -/
def Grant.meant : Grant → TokenRequest
  | .authorizationCode code => {
      credentials := some (cfg.clientId, cfg.clientSecret)
      form := .ofList [(text "code", code), (text "redirect_uri", cfg.callbackUri),
        (text "grant_type", text "authorization_code")] }
  | .refreshToken token => {
      credentials := none
      form := .ofList [(text "client_id", cfg.clientId), (text "client_secret", cfg.clientSecret),
        (text "grant_type", text "refresh_token"), (text "refresh_token", token)] }

/-- The strings that the two requests spell safely: the credentials are in base64 in one, and in the form in the
other. -/
def Grant.Legible : Grant → Prop
  | .authorizationCode code => ':'.toUInt8 ∉ cfg.clientId ∧ Plain code ∧ Plain cfg.callbackUri
  | .refreshToken token => Plain cfg.clientId ∧ Plain cfg.clientSecret ∧ Plain token

private theorem readBack_cStr_iff (s : Bytes) : readBack (cStr s) = s ↔ Plain s := by
  constructor
  · intro h
    have hplus : '+'.toUInt8 ∉ s := by
      rw [← h]
      exact plus_not_mem_readBack _
    have hlength : (cStr s).length = s.length := by
      simpa [readBack, replace] using congrArg List.length h
    have huncut : cStr s = s := (List.takeWhile_prefix _).eq_of_length hlength
    exact ⟨huncut ▸ nulFree_cStr s, hplus⟩
  · rintro ⟨hnul, hplus⟩
    rw [cStr_of_nulFree hnul, readBack_of_not_mem hplus]

private theorem decodeFormData_encode_iff {l : List (Bytes × Bytes)} (hne : l ≠ []) (hkeys : ∀ p ∈ l, Plain p.1) :
    decodeFormData (encodeFormData (.ofList l)) = some (.ofList l) ↔ ∀ p ∈ l, Plain p.2 := by
  have hmem {p : Bytes × Bytes} : p ∈ (Multimap.ofList l).entries ↔ p ∈ l := (Multimap.ofList_perm l).mem_iff
  -- the encoder cuts the values, so that it writes what it would for the cut ones
  have hcut : encodeFormData (.ofList l) = encodeFormData ((Multimap.ofList l).mapValues cStr) := by
    unfold encodeFormData joinPairs Multimap.mapValues
    rw [List.map_map]
    refine congrArg _ (List.map_congr_left fun p _ => ?_)
    simp
  have hread : decodeFormData (encodeFormData (.ofList l)) =
      some ((Multimap.ofList l).mapValues (readBack ∘ cStr)) := by
    have hentries : ((Multimap.ofList l).mapValues cStr).entries.map (Prod.map readBack readBack) =
        ((Multimap.ofList l).mapValues (readBack ∘ cStr)).entries := by
      unfold Multimap.mapValues
      rw [List.map_map]
      refine List.map_congr_left fun p hp => ?_
      exact Prod.ext (readBack_of_not_mem (hkeys p (hmem.mp hp)).plusFree) rfl
    rw [hcut, decodeFormData_encodeFormData, hentries, Multimap.ofList_entries]
    · unfold Multimap.mapValues
      simpa [List.eq_nil_iff_forall_not_mem, hmem] using hne
    · intro p hp
      obtain ⟨q, hq, rfl⟩ := List.mem_map.mp hp
      exact ⟨(hkeys q (hmem.mp hq)).nulFree, nulFree_cStr _⟩
  rw [hread, Option.some_inj, Multimap.mapValues_eq_self_iff]
  simp only [hmem, Function.comp_apply, readBack_cStr_iff]

private theorem fields_authorizationCode (code : Bytes) :
    fieldsNamed Headers.authorization (postMessage target (retrieveTokenRequest cfg code)) =
      [(Headers.authorization, encodeBasicAuth cfg.clientId cfg.clientSecret)] := by
  have hfields : (postMessage target (retrieveTokenRequest cfg code)).fields =
      [(text "Host", target.host),
        (cStr Headers.authorization, cStr (encodeBasicAuth cfg.clientId cfg.clientSecret)),
        (cStr Headers.contentType, cStr Headers.formUrlEncoded),
        (text "Content-Length", decimal (retrieveTokenRequest cfg code).body.length)] := rfl
  rw [fieldsNamed, hfields, cStr_of_nulFree (nulFree_encodeBasicAuth _ _)]
  rfl

private theorem fields_refreshToken (token : Bytes) :
    fieldsNamed Headers.authorization (postMessage target (refreshTokenRequest cfg token)) = [] := rfl

private theorem read_authorizationCode (code : Bytes) :
    readTokenRequest (postMessage target (retrieveTokenRequest cfg code)) =
      (decodeBasicAuth (encodeBasicAuth cfg.clientId cfg.clientSecret)).bind fun pair =>
        (decodeFormData (retrieveTokenRequest cfg code).body).map (.mk (some pair)) := by
  rw [readTokenRequest, fields_authorizationCode]
  rfl

private theorem read_refreshToken (token : Bytes) :
    readTokenRequest (postMessage target (refreshTokenRequest cfg token)) =
      (decodeFormData (refreshTokenRequest cfg token).body).map (.mk none) := by
  rw [readTokenRequest, fields_refreshToken]
  rfl

private theorem fixed_plain : Plain (text "code") ∧ Plain (text "redirect_uri") ∧ Plain (text "grant_type") ∧
    Plain (text "client_id") ∧ Plain (text "client_secret") ∧ Plain (text "refresh_token") ∧
    Plain (text "authorization_code") := by
  decide

/-- The endpoint understands a token request as it is meant exactly when its strings are legible. -/
theorem token_request_understood_iff (grant : Grant) :
    readTokenRequest (postMessage target (grant.request cfg)) = some (grant.meant cfg) ↔ grant.Legible cfg := by
  obtain ⟨hcode, huri, htype, hid, hsecret, hrefresh, hauthorization⟩ := fixed_plain
  cases grant with
  | authorizationCode code =>
    have hform : decodeFormData (retrieveTokenRequest cfg code).body =
        some (Grant.meant cfg (.authorizationCode code)).form ↔ Plain code ∧ Plain cfg.callbackUri := by
      refine (decodeFormData_encode_iff (by simp) ?_).trans ?_
      · simp [hcode, huri, htype]
      · simp [hauthorization]
    have hpair := decodeBasicAuth_encode_iff cfg.clientId cfg.clientSecret
    rw [Grant.Legible, Grant.request, read_authorizationCode, ← hform, ← hpair]
    rcases decodeBasicAuth (encodeBasicAuth cfg.clientId cfg.clientSecret) with _ | pair
    · simp
    · rcases decodeFormData (retrieveTokenRequest cfg code).body with _ | form
      · simp
      · simp [Grant.meant]
  | refreshToken token =>
    have hform : decodeFormData (refreshTokenRequest cfg token).body =
        some (Grant.meant cfg (.refreshToken token)).form ↔
          Plain cfg.clientId ∧ Plain cfg.clientSecret ∧ Plain token := by
      refine (decodeFormData_encode_iff (by simp) ?_).trans ?_
      · simp [hid, hsecret, htype, hrefresh]
      · simp [hrefresh]
    rw [Grant.Legible, Grant.request, read_refreshToken, ← hform]
    rcases decodeFormData (refreshTokenRequest cfg token).body with _ | form
    · simp
    · simp [Grant.meant]

end

end AuthService.Filters.Oidc
