import AuthService.Common.Bytes

/-! Token responses and the two parsers of `token_response.cc`. JSON parsing and JWT
verification are parameters. -/
namespace AuthService.Filters.Oidc

/-- The parts of a parsed JWT that the sources read: the serialized token, the `exp` claim
and the `nonce` claim when it is a string. -/
structure Jwt where
  jwt : Bytes
  exp : BitVec 64
  nonce : Option Bytes
  deriving DecidableEq, Repr

/-- A finite double `mantissa * 2 ^ exponent`, what a JSON number parses to. -/
structure Double where
  mantissa : Int
  exponent : Int
  mantissa_lt : mantissa.natAbs < 2 ^ 53
  exponent_mem : -1074 ≤ exponent ∧ exponent ≤ 971
  deriving DecidableEq

namespace Double

/-- Truncation towards zero. -/
def truncate (d : Double) : Int :=
  if 0 ≤ d.exponent then d.mantissa * 2 ^ d.exponent.toNat
  else d.mantissa.tdiv (2 ^ (-d.exponent).toNat)

/-- `int64_t(d)`; outside the range the conversion yields the smallest value, as the hardware does. -/
def toInt64 (d : Double) : Int :=
  if -2 ^ 63 ≤ d.truncate ∧ d.truncate < 2 ^ 63 then d.truncate else -2 ^ 63

def zero : Double := ⟨0, 0, by decide, by decide⟩

/-- Integers below 2^53 are doubles. -/
def ofInt (z : Int) (h : z.natAbs < 2 ^ 53) : Double := ⟨z, 0, h, zero.exponent_mem⟩

end Double

/-- A protobuf `Value`; nested contents are never read. -/
inductive Value where
  | null
  | number (d : Double)
  | string (s : Bytes)
  | bool (b : Bool)
  | struct
  | list
  deriving DecidableEq

namespace Value

def stringValue : Value → Bytes
  | .string s => s
  | _ => []

def numberValue : Value → Double
  | .number d => d
  | _ => .zero

end Value

abbrev Fields := List (Bytes × Value)

/-- What the parser calls outside the repository. Verification reads the clock itself. -/
structure Libraries where
  jsonStringToMessage : Bytes → Option Fields
  parseFromString : Bytes → Option Jwt
  verifyJwt : (idToken : Jwt) → (jwks : Bytes) → (audiences : List Bytes) → (now : Int) → Bool

/-- Exceptions that cross a function of the sources. -/
inductive Exn where
  | runtimeError (what : Bytes)
  | regexError
  | badOptionalAccess
  | errorCode
  deriving DecidableEq, Repr

structure TokenResponse where
  idToken : Jwt
  accessTokenField : Bytes
  refreshTokenField : Bytes
  accessTokenExpiry : Int
  deriving DecidableEq, Repr

namespace TokenResponse

def create (idToken : Jwt) : TokenResponse := ⟨idToken, [], [], 0⟩

def setAccessToken (t : TokenResponse) (accessToken : Bytes) : TokenResponse :=
  { t with accessTokenField := accessToken }

def setRefreshToken (t : TokenResponse) (refreshToken : Bytes) : TokenResponse :=
  { t with refreshTokenField := refreshToken }

def setAccessTokenExpiry (t : TokenResponse) (expiry : Int) : TokenResponse :=
  { t with accessTokenExpiry := expiry }

def accessToken (t : TokenResponse) : Option Bytes :=
  if t.accessTokenField = [] then none else some t.accessTokenField

def refreshToken (t : TokenResponse) : Option Bytes :=
  if t.refreshTokenField = [] then none else some t.refreshTokenField

/-- Zero stands for no expiry. -/
def getAccessTokenExpiry (t : TokenResponse) : Option Int :=
  if t.accessTokenExpiry = 0 then none else some t.accessTokenExpiry

def getIDTokenExpiry (t : TokenResponse) : Int := t.idToken.exp.toInt

end TokenResponse

namespace TokenResponseParserImpl
variable (lib : Libraries)

def idTokenField : Bytes := text "id_token"
def accessTokenKey : Bytes := text "access_token"
def refreshTokenKey : Bytes := text "refresh_token"
def expiresInField : Bytes := text "expires_in"
def tokenTypeField : Bytes := text "token_type"
def bearerTokenType : Bytes := text "bearer"

def parseIDToken (fields : Fields) : Option Jwt :=
  match fields.lookup idTokenField with
  | some (.string s) => lib.parseFromString s
  | _ => none

def isInvalid (fields : Fields) : Bool :=
  match fields.lookup tokenTypeField with
  | none => true
  | some tokenType =>
    if !equalsIgnoreCase tokenType.stringValue bearerTokenType then true
    else match fields.lookup expiresInField with
      | none => false
      | some expiresIn => expiresIn.numberValue.toInt64 ≤ 0

def isIDTokenInvalid (jwks clientId nonce : Bytes) (idToken : Jwt) (now : Int) : Bool :=
  if !lib.verifyJwt idToken jwks [clientId] now then true
  else match idToken.nonce with
    | none => true
    | some extracted => nonce ≠ extracted

/-- Five seconds are taken off for the time the retrieval may have taken. -/
def parseAccessTokenExpiry (fields : Fields) (now : Int) : Option Int :=
  (fields.lookup expiresInField).map fun expiresIn =>
    int64 (int64 (now + expiresIn.numberValue.toInt64) - 5)

def withAccessToken (fields : Fields) (t : TokenResponse) : TokenResponse :=
  match fields.lookup accessTokenKey with
  | some v => t.setAccessToken v.stringValue
  | none => t

def withAccessTokenExpiry (fields : Fields) (now : Int) (t : TokenResponse) : TokenResponse :=
  match parseAccessTokenExpiry fields now with
  | some expiry => t.setAccessTokenExpiry expiry
  | none => t

@[simp] theorem withAccessToken_idToken (fields : Fields) (t : TokenResponse) :
    (withAccessToken fields t).idToken = t.idToken := by
  unfold withAccessToken
  split <;> rfl

@[simp] theorem withAccessTokenExpiry_idToken (fields : Fields) (now : Int) (t : TokenResponse) :
    (withAccessTokenExpiry fields now t).idToken = t.idToken := by
  unfold withAccessTokenExpiry
  split <;> rfl

def parse (jwks clientId nonce raw : Bytes) (now : Int) : Option TokenResponse :=
  match lib.jsonStringToMessage (cStr raw) with
  | none => none
  | some fields =>
    match parseIDToken lib fields with
    | none => none
    | some idToken =>
      if isIDTokenInvalid lib jwks clientId nonce idToken now then none
      else
        let result := withAccessToken fields (.create idToken)
        let result := match fields.lookup refreshTokenKey with
          | some v => result.setRefreshToken v.stringValue
          | none => result
        let result := withAccessTokenExpiry fields now result
        if isInvalid fields then none else some result

variable {lib} in
/-- What `Parse` accepts has passed verification for the client. -/
theorem verifyJwt_of_parse {jwks clientId nonce raw : Bytes} {now : Int} {t : TokenResponse}
    (h : parse lib jwks clientId nonce raw now = some t) :
    lib.verifyJwt t.idToken jwks [clientId] now = true := by
  unfold parse at h
  split at h
  · cases h
  · split at h
    · cases h
    · rename_i idToken _
      split at h
      · cases h
      · rename_i hv
        have hid : t.idToken = idToken := by
          split at h <;> split at h <;> cases h <;> simp [TokenResponse.setRefreshToken, TokenResponse.create]
        unfold isIDTokenInvalid at hv
        rw [hid]
        by_contra hn
        simp [hn] at hv

/-- The merge of a reply with the response it refreshes. Reading an absent refresh token of
the existing response throws. -/
def parseRefreshTokenResponse (existing : TokenResponse) (raw : Bytes) (now : Int) :
    Except Exn (Option TokenResponse) :=
  match lib.jsonStringToMessage (cStr raw) with
  | none => .ok none
  | some fields =>
    let result := TokenResponse.create ((parseIDToken lib fields).getD existing.idToken)
    let result := withAccessToken fields result
    match (match fields.lookup refreshTokenKey with
      | some v => some v.stringValue
      | none => existing.refreshToken) with
    | none => .error .badOptionalAccess
    | some refreshToken =>
      let result := withAccessTokenExpiry fields now (result.setRefreshToken refreshToken)
      if isInvalid fields then .ok none else .ok (some result)

section Merge
variable (existing : TokenResponse) (token : Bytes) (fields : Fields) (now : Int)

/-- The response a refresh makes of an accepted reply. -/
def merged : TokenResponse :=
  withAccessTokenExpiry fields now
    ((withAccessToken fields (.create ((parseIDToken lib fields).getD existing.idToken))).setRefreshToken
      (((fields.lookup refreshTokenKey).map (·.stringValue)).getD token))

@[simp] theorem merged_idToken :
    (merged lib existing token fields now).idToken = (parseIDToken lib fields).getD existing.idToken := by
  unfold merged withAccessTokenExpiry withAccessToken
  split <;> split <;> rfl

@[simp] theorem merged_accessTokenField :
    (merged lib existing token fields now).accessTokenField =
      ((fields.lookup accessTokenKey).map (·.stringValue)).getD [] := by
  unfold merged withAccessTokenExpiry withAccessToken
  split <;> split <;> rename_i h <;> simp [h] <;> rfl

@[simp] theorem merged_accessTokenExpiry :
    (merged lib existing token fields now).accessTokenExpiry = (parseAccessTokenExpiry fields now).getD 0 := by
  unfold merged withAccessTokenExpiry withAccessToken
  split <;> rename_i h <;> split <;> simp [h] <;> rfl

variable {lib existing token fields now} {body : Bytes}

/-- A readable reply to a refreshable response is merged or rejected; nothing is thrown. -/
theorem parseRefreshTokenResponse_of_fields (hr : existing.refreshToken = some token)
    (hj : lib.jsonStringToMessage (cStr body) = some fields) :
    parseRefreshTokenResponse lib existing body now =
      .ok (if isInvalid fields then none else some (merged lib existing token fields now)) := by
  unfold parseRefreshTokenResponse merged
  cases hv : isInvalid fields <;> cases h : fields.lookup refreshTokenKey <;> simp [hj, h, hr, hv]

end Merge
end TokenResponseParserImpl
end AuthService.Filters.Oidc
