import Mathlib.Data.List.Basic

/-! Bytes regrouped into six-bit digits and back, for any alphabet that writes the digits. -/
namespace AuthService.Lib

/-- The six-bit digits of a byte string, three bytes at a time; the last digit of a shorter tail is filled up
with zero bits. -/
def sextets : List UInt8 → List Nat
  | [] => []
  | [a] => [a.toNat / 4, a.toNat % 4 * 16]
  | [a, b] => [a.toNat / 4, a.toNat % 4 * 16 + b.toNat / 16, b.toNat % 16 * 4]
  | a :: b :: c :: rest =>
    a.toNat / 4 :: (a.toNat % 4 * 16 + b.toNat / 16) :: (b.toNat % 16 * 4 + c.toNat / 64) :: c.toNat % 64 ::
      sextets rest

/-- The bytes of six-bit digits; fill-up bits are dropped. -/
def ofSextets : List Nat → List UInt8
  | x :: y :: z :: t :: rest =>
    UInt8.ofNat (x * 4 + y / 16) :: UInt8.ofNat (y % 16 * 16 + z / 4) :: UInt8.ofNat (z % 4 * 64 + t) :: ofSextets rest
  | [x, y, z] => [UInt8.ofNat (x * 4 + y / 16), UInt8.ofNat (y % 16 * 16 + z / 4)]
  | [x, y] => [UInt8.ofNat (x * 4 + y / 16)]
  | _ => []

theorem ofSextets_sextets (s : List UInt8) : ofSextets (sextets s) = s := by
  have hbyte (a : UInt8) (n : Nat) (hn : n = a.toNat) : UInt8.ofNat n = a := by
    subst hn
    exact UInt8.ofNat_toNat
  induction s using sextets.induct with
  | case1 => rfl
  | case2 a =>
    have := a.toNat_lt
    simp only [sextets, ofSextets]
    rw [hbyte a _ (by omega)]
  | case3 a b =>
    have := a.toNat_lt
    have := b.toNat_lt
    simp only [sextets, ofSextets]
    rw [hbyte a _ (by omega), hbyte b _ (by omega)]
  | case4 a b c rest ih =>
    have := a.toNat_lt
    have := b.toNat_lt
    have := c.toNat_lt
    simp only [sextets, ofSextets]
    rw [hbyte a _ (by omega), hbyte b _ (by omega), hbyte c _ (by omega), ih]

theorem sextets_lt (s : List UInt8) : ∀ n ∈ sextets s, n < 64 := by
  induction s using sextets.induct with
  | case1 => simp [sextets]
  | case2 a =>
    have := a.toNat_lt
    simp only [sextets, List.mem_cons, List.not_mem_nil, or_false]
    omega
  | case3 a b =>
    have := a.toNat_lt
    have := b.toNat_lt
    simp only [sextets, List.mem_cons, List.not_mem_nil, or_false]
    omega
  | case4 a b c rest ih =>
    have := a.toNat_lt
    have := b.toNat_lt
    have := c.toNat_lt
    simp only [sextets, List.mem_cons]
    rintro n (hn | hn | hn | hn | hn)
    · omega
    · omega
    · omega
    · omega
    · exact ih n hn

/-- Four digits for every three bytes, rounded up. -/
theorem length_sextets (s : List UInt8) : (sextets s).length = (4 * s.length + 2) / 3 := by
  induction s using sextets.induct with
  | case1 => rfl
  | case2 a => simp [sextets]
  | case3 a b => simp [sextets]
  | case4 a b c rest ih =>
    simp only [sextets, List.length_cons, ih]
    omega

section Alphabet
variable {α : Type} {digit : Nat → α} {value : α → Nat}

/-- An alphabet with a value for each of its digits is read back. -/
theorem map_value_map_digit (hd : ∀ n < 64, value (digit n) = n) (s : List UInt8) :
    ofSextets (((sextets s).map digit).map value) = s := by
  have hback : ((sextets s).map digit).map value = sextets s := by
    rw [List.map_map]
    exact (List.map_congr_left fun n hn => hd n (sextets_lt s n hn)).trans (List.map_id _)
  rw [hback, ofSextets_sextets]

end Alphabet
end AuthService.Lib
