import AuthService.Common.Http.Codec
import AuthService.Lib.Base64

/-! The credentials of the code exchange: what a server reads back from the header that `EncodeBasicAuth` writes. -/
namespace AuthService.Common.Http
open Lib

/-- The value of a digit, by its place in the alphabet. -/
def base64Value (c : UInt8) : Nat := base64Alphabet.idxOf c

/-- A server's reading of base64: padding is dropped, and every other character is a digit. -/
def base64Decode (s : Bytes) : Option Bytes :=
  let digits := s.takeWhile (· ≠ '='.toUInt8)
  if digits.all (base64Alphabet.contains ·) then some (ofSextets (digits.map base64Value)) else none

/-- A server's reading of the header: the scheme, and the user name up to the first colon. -/
def decodeBasicAuth (header : Bytes) : Option (Bytes × Bytes) :=
  if (text "Basic ").isPrefixOf header then
    (base64Decode (header.drop (text "Basic ").length)).bind (splitFirst ':'.toUInt8)
  else none

private theorem base64Value_digit : ∀ n < 64, base64Value (base64Digit n) = n := by
  decide +kernel

private theorem base64Digit_mem : ∀ n < 64, base64Digit n ∈ base64Alphabet := by
  decide +kernel

private theorem pad_notMem_alphabet : '='.toUInt8 ∉ base64Alphabet := by
  decide +kernel

private theorem base64Digit_congr {m n : Nat} (h : m % 64 = n % 64) : base64Digit m = base64Digit n := by
  unfold base64Digit
  rw [h]

/-- The escape writes the six-bit digits and pads them to a multiple of four. -/
theorem base64Escape_eq (s : Bytes) :
    base64Escape s = (sextets s).map base64Digit ++ List.replicate ((3 - s.length % 3) % 3) '='.toUInt8 := by
  induction s using base64Escape.induct with
  | case1 => rfl
  | case2 a =>
    simp only [base64Escape, sextets, List.map_cons, List.map_nil]
    rw [base64Digit_congr (show a.toNat * 65536 / 262144 % 64 = a.toNat / 4 % 64 by omega),
      base64Digit_congr (show a.toNat * 65536 / 4096 % 64 = a.toNat % 4 * 16 % 64 by omega)]
    rfl
  | case3 a b =>
    have := b.toNat_lt
    simp only [base64Escape, sextets, List.map_cons, List.map_nil]
    rw [base64Digit_congr (show (a.toNat * 65536 + b.toNat * 256) / 262144 % 64 = a.toNat / 4 % 64 by omega),
      base64Digit_congr (show (a.toNat * 65536 + b.toNat * 256) / 4096 % 64 =
        (a.toNat % 4 * 16 + b.toNat / 16) % 64 by omega),
      base64Digit_congr (show (a.toNat * 65536 + b.toNat * 256) / 64 % 64 = b.toNat % 16 * 4 % 64 by omega)]
    rfl
  | case4 a b c rest ih =>
    have := b.toNat_lt
    have := c.toNat_lt
    have hlength : (a :: b :: c :: rest).length % 3 = rest.length % 3 := by
      simp only [List.length_cons]
      omega
    simp only [base64Escape, sextets, List.map_cons, List.cons_append, hlength, ← ih]
    rw [base64Digit_congr (show (a.toNat * 65536 + b.toNat * 256 + c.toNat) / 262144 % 64 = a.toNat / 4 % 64 by omega),
      base64Digit_congr (show (a.toNat * 65536 + b.toNat * 256 + c.toNat) / 4096 % 64 =
        (a.toNat % 4 * 16 + b.toNat / 16) % 64 by omega),
      base64Digit_congr (show (a.toNat * 65536 + b.toNat * 256 + c.toNat) / 64 % 64 =
        (b.toNat % 16 * 4 + c.toNat / 64) % 64 by omega),
      base64Digit_congr (show (a.toNat * 65536 + b.toNat * 256 + c.toNat) % 64 = c.toNat % 64 % 64 by omega)]

private theorem ne_pad_of_mem {s : Bytes} {c : UInt8} (hc : c ∈ (sextets s).map base64Digit) : c ≠ '='.toUInt8 := by
  obtain ⟨n, hn, rfl⟩ := List.mem_map.mp hc
  rintro he
  exact pad_notMem_alphabet (he ▸ base64Digit_mem n (sextets_lt s n hn))

/-- What is escaped is read back. -/
theorem base64Decode_escape (s : Bytes) : base64Decode (base64Escape s) = some s := by
  have hdigits : (base64Escape s).takeWhile (· ≠ '='.toUInt8) = (sextets s).map base64Digit := by
    rw [base64Escape_eq, List.takeWhile_append_of_pos fun c hc => by simpa using ne_pad_of_mem hc]
    have hpad (n : Nat) : (List.replicate n '='.toUInt8).takeWhile (· ≠ '='.toUInt8) = [] := by
      cases n with
      | zero => rfl
      | succ n => simp [List.replicate_succ]
    rw [hpad, List.append_nil]
  have hall : ((sextets s).map base64Digit).all (base64Alphabet.contains ·) = true := by
    rw [List.all_map, List.all_eq_true]
    intro n hn
    simpa using base64Digit_mem n (sextets_lt s n hn)
  unfold base64Decode
  dsimp only
  rw [hdigits, if_pos hall, map_value_map_digit base64Value_digit]

private theorem splitFirst_append (username password : Bytes) :
    splitFirst ':'.toUInt8 (username ++ ':'.toUInt8 :: password) = some (username, password) ↔
      ':'.toUInt8 ∉ username := by
  rw [splitFirst, if_pos (by simp)]
  constructor
  · intro h hm
    have huser := (Prod.mk.inj (Option.some.inj h)).1
    rw [← huser] at hm
    simpa using List.mem_takeWhile_imp hm
  · intro hn
    have hne : ∀ c ∈ username, decide (c ≠ ':'.toUInt8) = true := fun c hc =>
      decide_eq_true fun he => hn (he ▸ hc)
    rw [List.takeWhile_append_of_pos hne, List.dropWhile_append_of_pos hne]
    simp

/-- The header has no NUL, whatever the credentials hold, so it is sent in full. -/
theorem nulFree_encodeBasicAuth (username password : Bytes) : NulFree (encodeBasicAuth username password) := by
  have hscheme : NulFree (text "Basic") ∧ NulFree (text " ") := by decide
  have hpad : (0 : UInt8) ≠ '='.toUInt8 := by decide
  have hdigit : (0 : UInt8) ∉ base64Alphabet := by decide +kernel
  unfold encodeBasicAuth
  rw [nulFree_append, nulFree_append, base64Escape_eq, nulFree_append]
  refine ⟨hscheme, fun hm => ?_, fun hm => hpad (List.eq_of_mem_replicate hm)⟩
  obtain ⟨n, hn, he⟩ := List.mem_map.mp hm
  exact hdigit (he ▸ base64Digit_mem n (sextets_lt _ n hn))

/-- A server reads back the credentials exactly when the user name has no colon. -/
theorem decodeBasicAuth_encode_iff (username password : Bytes) :
    decodeBasicAuth (encodeBasicAuth username password) = some (username, password) ↔ ':'.toUInt8 ∉ username := by
  have hscheme : text "Basic" ++ text " " = text "Basic " := by decide
  have hcolon : username ++ text ":" ++ password = username ++ ':'.toUInt8 :: password := by
    rw [List.append_assoc]
    rfl
  unfold decodeBasicAuth encodeBasicAuth
  rw [hscheme, hcolon, if_pos (by simp), List.drop_left, base64Decode_escape, Option.bind_some]
  exact splitFirst_append username password

end AuthService.Common.Http
