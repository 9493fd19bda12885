import AuthService.Filters.Oidc.OidcFilter
import AuthService.Lib.Base64

/-! The strings that name sessions, states and nonces: web-safe base64 of bytes drawn at random. -/
namespace AuthService.Common
open Lib Filters.Oidc

namespace Utilities

def webSafeAlphabet : Bytes := text "ABCDEFGHIJKLMNOPQRSTUVWXYZabcdefghijklmnopqrstuvwxyz0123456789-_"

def webSafeDigit (n : Nat) : UInt8 := webSafeAlphabet.getD n 0

/-- The value of a digit, by its place in the alphabet. -/
def webSafeValue (c : UInt8) : Nat := webSafeAlphabet.idxOf c

/-- `absl::WebSafeBase64Escape` writes no padding. -/
def webSafeBase64Escape (s : Bytes) : Bytes := (sextets s).map webSafeDigit

/-- Random bytes of a fixed number, as `RAND_bytes` fills them in. -/
structure Random (sz : Nat) where
  internalBuffer : Bytes
  size : internalBuffer.length = sz
  deriving DecidableEq

def Random.str {sz : Nat} (r : Random sz) : Bytes := webSafeBase64Escape r.internalBuffer

end Utilities

namespace Session
open Utilities

private theorem webSafeDigit_safe : ∀ n < 64, isWebSafeBase64 (webSafeDigit n) = true := by
  decide +kernel

private theorem webSafeValue_digit : ∀ n < 64, webSafeValue (webSafeDigit n) = n := by
  decide +kernel

theorem all_webSafe (s : Bytes) : (webSafeBase64Escape s).all isWebSafeBase64 = true := by
  rw [webSafeBase64Escape, List.all_map, List.all_eq_true]
  exact fun n hn => webSafeDigit_safe n (sextets_lt s n hn)

/-- The drawn bytes are read back from their string. -/
theorem ofSextets_webSafe (s : Bytes) : ofSextets ((webSafeBase64Escape s).map webSafeValue) = s :=
  map_value_map_digit webSafeValue_digit s

namespace SessionStringGenerator

def generateRandomString {size : Nat} (drawn : Random size) : SessionString := ⟨drawn.str, all_webSafe _⟩

def generateSessionId (drawn : Random 64) : SessionString := generateRandomString drawn

def generateNonce (drawn : Random 32) : SessionString := generateRandomString drawn

def generateState (drawn : Random 32) : SessionString := generateRandomString drawn

private theorem length_generateRandomString {size : Nat} (drawn : Random size) :
    (generateRandomString drawn).val.length = (4 * size + 2) / 3 := by
  unfold generateRandomString Random.str webSafeBase64Escape
  rw [List.length_map, length_sextets, drawn.size]

private theorem generateRandomString_inj {size : Nat} {drawn drawn' : Random size} :
    generateRandomString drawn = generateRandomString drawn' ↔ drawn = drawn' := by
  refine ⟨fun h => ?_, congrArg _⟩
  obtain ⟨s, hs⟩ := drawn
  obtain ⟨t, ht⟩ := drawn'
  have hback := congrArg (fun text => ofSextets (text.map webSafeValue)) (congrArg Subtype.val h)
  obtain rfl : s = t := by simpa only [generateRandomString, Random.str, ofSextets_webSafe] using hback
  rfl

/-- The generator keeps all of its randomness. Session ids have 86 characters, states and nonces 43; two of one kind
are the same only when the same bytes were drawn, which can be read back, and no session id is a state or a nonce. -/
theorem strings_keep_randomness :
    (∀ drawn : Random 64, (generateSessionId drawn).val.length = 86 ∧
      ofSextets ((generateSessionId drawn).val.map webSafeValue) = drawn.internalBuffer) ∧
    (∀ drawn : Random 32, (generateState drawn).val.length = 43 ∧ (generateNonce drawn).val.length = 43 ∧
      ofSextets ((generateState drawn).val.map webSafeValue) = drawn.internalBuffer ∧
      ofSextets ((generateNonce drawn).val.map webSafeValue) = drawn.internalBuffer) ∧
    (∀ drawn drawn' : Random 64, generateSessionId drawn = generateSessionId drawn' ↔ drawn = drawn') ∧
    (∀ drawn drawn' : Random 32, (generateState drawn = generateState drawn' ↔ drawn = drawn') ∧
      (generateNonce drawn = generateNonce drawn' ↔ drawn = drawn')) ∧
    ∀ (drawn : Random 64) (drawn' : Random 32), generateSessionId drawn ≠ generateState drawn' ∧
      generateSessionId drawn ≠ generateNonce drawn' := by
  have hid (drawn : Random 64) : (generateSessionId drawn).val.length = 86 := length_generateRandomString drawn
  have hstate (drawn : Random 32) : (generateState drawn).val.length = 43 := length_generateRandomString drawn
  refine ⟨fun drawn => ⟨hid drawn, ofSextets_webSafe _⟩, fun drawn => ⟨hstate drawn, hstate drawn, ofSextets_webSafe _,
    ofSextets_webSafe _⟩, fun _ _ => generateRandomString_inj,
    fun _ _ => ⟨generateRandomString_inj, generateRandomString_inj⟩, fun drawn drawn' => ?_⟩
  have hne : generateSessionId drawn ≠ generateState drawn' := by
    intro h
    have hlength := congrArg List.length (congrArg Subtype.val h)
    rw [hid, hstate] at hlength
    cases hlength
  exact ⟨hne, hne⟩

end SessionStringGenerator
end Session
end AuthService.Common
