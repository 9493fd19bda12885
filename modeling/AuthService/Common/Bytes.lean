import Mathlib.Data.Nat.Digits.Defs
import Mathlib.Data.List.TakeWhile
import Mathlib.Order.Defs.Unbundled

/-! Byte strings as the sources hold them, and the machine integers they compute with. -/
namespace AuthService

abbrev Bytes := List UInt8

/-- Literals of the sources. -/
def text (s : String) : Bytes := s.toByteArray.data.toList

/-- A property of bytes may be checked value by value. -/
theorem forall_byte {p : UInt8 → Prop} (h : ∀ n : Fin 256, p (UInt8.ofNat n)) (c : UInt8) : p c := by
  have hc := h ⟨c.toNat, c.toNat_lt_size⟩
  simpa using hc

/-- What a string keeps when it is rebuilt from its `data()` pointer: all before the first NUL. -/
def cStr (s : Bytes) : Bytes := s.takeWhile (· ≠ 0)

abbrev NulFree (s : Bytes) : Prop := 0 ∉ s

theorem cStr_of_nulFree {s : Bytes} (h : NulFree s) : cStr s = s := by
  rw [cStr, List.takeWhile_eq_self_iff]
  intro b hb
  simpa using fun hz : b = 0 => h (hz ▸ hb)

theorem nulFree_cStr (s : Bytes) : NulFree (cStr s) := by
  intro h
  simpa using List.mem_takeWhile_imp h

@[simp] theorem cStr_cStr (s : Bytes) : cStr (cStr s) = cStr s := cStr_of_nulFree (nulFree_cStr s)

@[simp] theorem nulFree_append {s t : Bytes} : NulFree (s ++ t) ↔ NulFree s ∧ NulFree t := by
  simp [NulFree, not_or]

/-- Lexicographic order on unsigned bytes, the order of string keys. -/
instance : IsStrictOrder Bytes (· < ·) where
  irrefl := List.lt_irrefl
  trans _ _ _ := List.lt_trans

def toLower (c : UInt8) : UInt8 := if 'A'.toUInt8 ≤ c ∧ c ≤ 'Z'.toUInt8 then c + 32 else c

def equalsIgnoreCase (a b : Bytes) : Bool := a.map toLower == b.map toLower

def startsWith (s front : Bytes) : Bool := front.isPrefixOf s

def endsWith (s back : Bytes) : Bool := back.isSuffixOf s

/-- Whether a text occurs somewhere in a string. -/
def contains (s part : Bytes) : Bool := s.tails.any (part.isPrefixOf ·)

/-- Decimal digits, as `std::to_string` and `std::dec` print them. -/
def decimal (z : Int) : Bytes :=
  (if z < 0 then text "-" else []) ++ (Nat.toDigits 10 z.natAbs).map Char.toUInt8

/-- Two's complement wrap-around of 64-bit signed arithmetic. -/
def int64 (z : Int) : Int := z.bmod (2 ^ 64)

/-- Conversion of a 64-bit reading to an unsigned 32-bit field. -/
def uint32 (z : Int) : Int := z % 2 ^ 32

def isSpace (c : UInt8) : Bool := c == 32 || (9 ≤ c && c ≤ 13)

def isDigit (c : UInt8) : Bool := '0'.toUInt8 ≤ c && c ≤ '9'.toUInt8

def digitsValue (ds : Bytes) : Nat := ds.foldl (fun n d => 10 * n + (d.toNat - '0'.toNat)) 0

private def unsigned (ds : Bytes) : Option Nat :=
  match ds.takeWhile isDigit with
  | [] => none
  | d :: ds => some (digitsValue (d :: ds))

private def signed : Bytes → Option Int
  | [] => none
  | c :: s =>
    if c = '-'.toUInt8 then (unsigned s).map (fun n => -(n : Int))
    else if c = '+'.toUInt8 then (unsigned s).map (fun n => (n : Int))
    else (unsigned (c :: s)).map (fun n => (n : Int))

/-- `std::stoi`: white space, a sign, then the longest run of digits; what follows is ignored.
It throws when there is no digit or the value does not fit 32 bits. -/
def stoi (s : Bytes) : Option Int :=
  (signed (s.dropWhile isSpace)).filter (fun z => -2 ^ 31 ≤ z ∧ z < 2 ^ 31)

/-- The parts of a text that `std::stoi` tells apart. -/
structure Numeral where
  blank : Bytes
  sign : Bytes
  digits : Bytes
  junk : Bytes
  blank_isSpace : ∀ c ∈ blank, isSpace c
  sign_mem : sign ∈ [[], text "+", text "-"]
  digits_ne : digits ≠ []
  digits_isDigit : ∀ c ∈ digits, isDigit c
  junk_head : ∀ c ∈ junk.head?, ¬ isDigit c

namespace Numeral

def written (n : Numeral) : Bytes := n.blank ++ (n.sign ++ (n.digits ++ n.junk))

def value (n : Numeral) : Int := if n.sign = text "-" then -(digitsValue n.digits : Int) else digitsValue n.digits

private theorem digit_other {c : UInt8} (h : isDigit c) :
    c ≠ '-'.toUInt8 ∧ c ≠ '+'.toUInt8 ∧ isSpace c = false := by
  revert c
  apply forall_byte
  decide +kernel

private theorem takeWhile_digits {digits junk : Bytes} (hd : ∀ c ∈ digits, isDigit c)
    (hj : ∀ c ∈ junk.head?, ¬ isDigit c) : (digits ++ junk).takeWhile isDigit = digits := by
  rw [List.takeWhile_append_of_pos hd]
  cases junk with
  | nil => simp
  | cons c junk => simp [hj c (by simp)]

private theorem unsigned_written (n : Numeral) : unsigned (n.digits ++ n.junk) = some (digitsValue n.digits) := by
  unfold unsigned
  rw [takeWhile_digits n.digits_isDigit n.junk_head]
  cases hd : n.digits with
  | nil => exact absurd hd n.digits_ne
  | cons d ds => rfl

private theorem exists_head (n : Numeral) : ∃ d rest, n.digits ++ n.junk = d :: rest ∧ isDigit d := by
  cases hd : n.digits with
  | nil => exact absurd hd n.digits_ne
  | cons d ds => exact ⟨d, ds ++ n.junk, rfl, n.digits_isDigit d (by simp [hd])⟩

private theorem signed_written (n : Numeral) : signed (n.sign ++ (n.digits ++ n.junk)) = some n.value := by
  have hu := n.unsigned_written
  obtain ⟨d, rest, hrest, hd⟩ := n.exists_head
  obtain ⟨hminus, hplus, -⟩ := digit_other hd
  have hsign := n.sign_mem
  simp only [List.mem_cons, List.not_mem_nil, or_false] at hsign
  rcases hsign with hs | hs | hs
  · rw [hs, List.nil_append, hrest, signed, if_neg hminus, if_neg hplus, ← hrest, hu]
    simp [value, hs, show [] ≠ text "-" by decide]
  · rw [hs]
    change signed ('+'.toUInt8 :: (n.digits ++ n.junk)) = _
    rw [signed, if_neg (by decide), if_pos rfl, hu]
    simp [value, hs, show text "+" ≠ text "-" by decide]
  · rw [hs]
    change signed ('-'.toUInt8 :: (n.digits ++ n.junk)) = _
    rw [signed, if_pos rfl, hu]
    simp [value, hs]

theorem stoi_written (n : Numeral) :
    stoi n.written = if -2 ^ 31 ≤ n.value ∧ n.value < 2 ^ 31 then some n.value else none := by
  have hdrop : n.written.dropWhile isSpace = n.sign ++ (n.digits ++ n.junk) := by
    obtain ⟨d, rest, hrest, hd⟩ := n.exists_head
    have hsign := n.sign_mem
    rw [written, List.dropWhile_append_of_pos n.blank_isSpace, hrest]
    simp only [List.mem_cons, List.not_mem_nil, or_false] at hsign
    rcases hsign with hs | hs | hs
    · simp [hs, (digit_other hd).2.2]
    · rw [hs]
      rfl
    · rw [hs]
      rfl
  rw [stoi, hdrop, n.signed_written]
  simp [Option.filter]

private theorem exists_of_unsigned {t sign blank : Bytes} {m : Nat} (hb : ∀ c ∈ blank, isSpace c)
    (hs : sign ∈ [[], text "+", text "-"]) (h : unsigned t = some m) :
    ∃ n : Numeral, blank ++ (sign ++ t) = n.written ∧ n.sign = sign ∧ digitsValue n.digits = m := by
  have hne : t.takeWhile isDigit ≠ [] := by
    intro hnil
    rw [unsigned, hnil] at h
    cases h
  have hm : digitsValue (t.takeWhile isDigit) = m := by
    unfold unsigned at h
    split at h
    · cases h
    · rename_i hd
      rw [hd]
      exact Option.some.inj h
  refine ⟨⟨blank, sign, t.takeWhile isDigit, t.dropWhile isDigit, hb, hs, hne,
    fun c => List.mem_takeWhile_imp, ?_⟩, ?_, rfl, hm⟩
  · intro c hc
    have := List.head?_dropWhile_not isDigit t
    rw [hc] at this
    simpa using this
  · rw [written, List.takeWhile_append_dropWhile]

private theorem exists_of_map {f : Int → Int} {t : Option Nat} {z : Int}
    (h : (do let n ← t; pure (n : Int)).map f = some z) : ∃ m : Nat, t = some m ∧ z = f m := by
  cases t with
  | none => cases h
  | some m => exact ⟨m, rfl, (Option.some.inj h).symm⟩

/-- What `stoi` accepts is a numeral, and its result is the value written. -/
theorem exists_of_stoi {s : Bytes} {z : Int} (h : stoi s = some z) : ∃ n : Numeral, s = n.written ∧ z = n.value := by
  have hsigned : signed (s.dropWhile isSpace) = some z := (Option.filter_eq_some_iff.mp h).1
  have hblank : ∀ c ∈ s.takeWhile isSpace, isSpace c := fun c => List.mem_takeWhile_imp
  rw [← s.takeWhile_append_dropWhile (p := isSpace)]
  cases hd : s.dropWhile isSpace with
  | nil =>
    rw [hd] at hsigned
    cases hsigned
  | cons c t =>
    rw [hd, signed] at hsigned
    split at hsigned
    · rename_i hc
      obtain ⟨m, hm, rfl⟩ := exists_of_map hsigned
      obtain ⟨n, hn, hsign, rfl⟩ := exists_of_unsigned hblank (show text "-" ∈ _ by simp) hm
      exact ⟨n, by rw [← hn, hc]; rfl, by rw [value, if_pos hsign]⟩
    · split at hsigned
      · rename_i hc
        obtain ⟨m, hm, rfl⟩ := exists_of_map hsigned
        obtain ⟨n, hn, hsign, rfl⟩ := exists_of_unsigned hblank (show text "+" ∈ _ by simp) hm
        exact ⟨n, by rw [← hn, hc]; rfl, by rw [value, if_neg (by rw [hsign]; decide)]⟩
      · obtain ⟨m, hm, rfl⟩ := exists_of_map hsigned
        obtain ⟨n, hn, hsign, rfl⟩ := exists_of_unsigned hblank (show [] ∈ _ by simp) hm
        exact ⟨n, by rw [← hn]; rfl, by rw [value, if_neg (by rw [hsign]; decide)]⟩

/-- Digits alone stand for their value. -/
theorem value_of_plain {n : Numeral} (h : n.written = n.digits) : n.value = digitsValue n.digits := by
  have hlength := congrArg List.length h
  simp only [written, List.length_append] at hlength
  have hsign : n.sign = [] := List.eq_nil_of_length_eq_zero (by omega)
  rw [value, hsign, if_neg (by decide)]

theorem written_of_isDigit {n : Numeral} (h : ∀ c ∈ n.written, isDigit c) : n.written = n.digits := by
  have hblank : n.blank = [] := by
    refine List.eq_nil_iff_forall_not_mem.mpr fun c hc => ?_
    have hspace := (digit_other (h c (by simp [written, hc]))).2.2
    rw [n.blank_isSpace c hc] at hspace
    cases hspace
  have hjunk : n.junk = [] := by
    cases hj : n.junk with
    | nil => rfl
    | cons c junk => exact absurd (h c (by simp [written, hj])) (n.junk_head c (by simp [hj]))
  have hsign : n.sign = [] := by
    have hsub : n.sign ⊆ n.written := fun c hc => by simp [written, hc]
    have hmem := n.sign_mem
    simp only [List.mem_cons, List.not_mem_nil, or_false] at hmem
    rcases hmem with hs | hs | hs
    · exact hs
    · exact absurd (h '+'.toUInt8 (hsub (by rw [hs]; decide))) (by decide)
    · exact absurd (h '-'.toUInt8 (hsub (by rw [hs]; decide))) (by decide)
  simp [written, hblank, hsign, hjunk]

end Numeral

theorem stoi_digits {digits : Bytes} (hne : digits ≠ []) (hd : ∀ c ∈ digits, isDigit c)
    (hvalue : digitsValue digits < 2 ^ 31) : stoi digits = some (digitsValue digits : Int) := by
  let n : Numeral := ⟨[], [], digits, [], by simp, by simp, hne, hd, by simp⟩
  have hn : n.written = digits := by simp [n, Numeral.written]
  have hvalue' : n.value = digitsValue digits := Numeral.value_of_plain hn
  rw [← hn, n.stoi_written, hvalue', hn, if_pos (by omega)]

end AuthService
