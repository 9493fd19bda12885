import AuthService.Common.Http.Codec
import AuthService.Lib.Spelling

/-! The percent codec of `http.cc`: the texts its decoder reads, and which of them its encoder writes. -/
namespace AuthService.Common.Http
open Lib

def hexAlphabet : Bytes := text "0123456789ABCDEF"

/-- The escape of a byte: a percent sign and its two hexadecimal digits. -/
def escape (c : UInt8) : Bytes :=
  ['%'.toUInt8, hexAlphabet.getD (c.toNat / 16) 0, hexAlphabet.getD (c.toNat % 16) 0]

/-- The byte that two hexadecimal digits stand for. -/
def hexByte (x y : UInt8) : UInt8 := UInt8.ofNat (16 * hexAlphabet.idxOf x + hexAlphabet.idxOf y)

/-- The ways to write a byte: plainly when it is safe, and as its escape. -/
inductive Writes (isSafe : UInt8 → Bool) (c : UInt8) : Bytes → Prop
  | plain : isSafe c → Writes isSafe c [c]
  | escaped : Writes isSafe c (escape c)

def writePlainly (isSafe : UInt8 → Bool) (c : UInt8) : Bytes := if isSafe c then [c] else escape c

/-- A text with each escaped safe character written plainly. -/
def canonicalForm (isSafe : UInt8 → Bool) : Bytes → Bytes
  | [] => []
  | c :: rest =>
    if c ≠ '%'.toUInt8 then c :: canonicalForm isSafe rest
    else match rest with
      | x :: y :: rest =>
        if isSafe (hexByte x y) then hexByte x y :: canonicalForm isSafe rest
        else c :: x :: y :: canonicalForm isSafe rest
      | rest => c :: rest

section Bytes

private structure HexDigit (n : Nat) (d : UInt8) : Prop where
  mem : d ∈ hexAlphabet
  idxOf : hexAlphabet.idxOf d = n
  ascii : d &&& 0x80 = 0
  accepted : reverseDigit d ≠ 255
  value : reverseDigit d = UInt8.ofNat n

private theorem hexDigit_getD {n : Nat} (hn : n < 16) : HexDigit n (hexAlphabet.getD n 0) := by
  have hall : ∀ n : Fin 16, hexAlphabet.getD n 0 ∈ hexAlphabet ∧ hexAlphabet.idxOf (hexAlphabet.getD n 0) = n ∧
      hexAlphabet.getD n 0 &&& 0x80 = 0 ∧ reverseDigit (hexAlphabet.getD n 0) ≠ 255 ∧
      reverseDigit (hexAlphabet.getD n 0) = UInt8.ofNat n := by
    decide +kernel
  obtain ⟨hmem, hidx, hascii, haccepted, hvalue⟩ := hall ⟨n, hn⟩
  exact ⟨hmem, hidx, hascii, haccepted, hvalue⟩

private theorem halves (c : UInt8) : ((c &&& 0xf0) >>> 4).toNat = c.toNat / 16 ∧ (c &&& 0x0f).toNat = c.toNat % 16 := by
  revert c
  apply forall_byte
  decide +kernel

theorem joined_digits (c : UInt8) : UInt8.ofNat (c.toNat / 16) <<< 4 ||| UInt8.ofNat (c.toNat % 16) = c := by
  revert c
  apply forall_byte
  decide +kernel

private theorem hexDigits_of_byte (c : UInt8) :
    HexDigit (c.toNat / 16) (hexAlphabet.getD (c.toNat / 16) 0) ∧
      HexDigit (c.toNat % 16) (hexAlphabet.getD (c.toNat % 16) 0) := by
  have hc : c.toNat < 256 := c.toNat_lt_size
  exact ⟨hexDigit_getD (by omega), hexDigit_getD (by omega)⟩

private theorem hexByte_of_digits {c x y : UInt8} (hx : HexDigit (c.toNat / 16) x) (hy : HexDigit (c.toNat % 16) y) :
    hexByte x y = c := by
  rw [hexByte, hx.idxOf, hy.idxOf, Nat.div_add_mod, UInt8.ofNat_toNat]

private theorem escape_eq (c : UInt8) :
    escape c = ['%'.toUInt8, forwardDigit ((c &&& 0xf0) >>> 4), forwardDigit (c &&& 0x0f)] := by
  obtain ⟨hhigh, hlow⟩ := halves c
  rw [forwardDigit, forwardDigit, hhigh, hlow]
  rfl

private theorem accepted_digit (x : UInt8) (ha : x &&& 0x80 = 0) (hx : reverseDigit x ≠ 255) :
    ∃ n : Fin 16, reverseDigit x = UInt8.ofNat n ∧ hexAlphabet.getD n 0 = x := by
  revert x
  apply forall_byte
  decide +kernel

private theorem nibbles (m n : Fin 16) :
    (UInt8.ofNat m <<< 4 ||| UInt8.ofNat n).toNat / 16 = m ∧
      (UInt8.ofNat m <<< 4 ||| UInt8.ofNat n).toNat % 16 = n := by
  revert m n
  decide +kernel

private theorem escape_of_digits {x y : UInt8} (hx : x &&& 0x80 = 0) (hy : y &&& 0x80 = 0)
    (hd : ¬ (reverseDigit x = 255 ∨ reverseDigit y = 255)) :
    escape (reverseDigit x <<< 4 ||| reverseDigit y) = ['%'.toUInt8, x, y] := by
  rw [not_or] at hd
  obtain ⟨m, hm, rfl⟩ := accepted_digit x hx hd.1
  obtain ⟨n, hn, rfl⟩ := accepted_digit y hy hd.2
  obtain ⟨hhigh, hlow⟩ := nibbles m n
  rw [hm, hn, escape, hhigh, hlow]

end Bytes

section Codec
variable {isSafe : UInt8 → Bool}

theorem safeDecode_safe {c : UInt8} {w : Bytes} (hc : isSafe c) :
    safeDecode isSafe (c :: w) = (safeDecode isSafe w).map (c :: ·) := by
  rw [safeDecode.eq_def]
  simp [hc]

theorem safeDecode_escape {h l : UInt8} {w : Bytes} (hp : isSafe '%'.toUInt8 = false)
    (hh : h &&& 0x80 = 0) (hl : l &&& 0x80 = 0) :
    safeDecode isSafe ('%'.toUInt8 :: h :: l :: w) =
      if reverseDigit h = 255 ∨ reverseDigit l = 255 then none
      else (safeDecode isSafe w).map ((reverseDigit h <<< 4 ||| reverseDigit l) :: ·) := by
  rw [safeDecode.eq_def]
  simp [hp, hh, hl]

private theorem safeDecode_writes {c : UInt8} {w : Bytes} (hp : isSafe '%'.toUInt8 = false) (hw : Writes isSafe c w)
    (t : Bytes) : safeDecode isSafe (w ++ t) = (safeDecode isSafe t).map (c :: ·) := by
  cases hw with
  | plain hc => exact safeDecode_safe hc
  | escaped =>
    obtain ⟨hh, hl⟩ := hexDigits_of_byte c
    rw [escape, List.cons_append, List.cons_append, List.singleton_append, safeDecode_escape hp hh.ascii hl.ascii,
      if_neg (not_or.mpr ⟨hh.accepted, hl.accepted⟩), hh.value, hl.value, joined_digits]

private theorem spells_of_safeDecode {t s : Bytes} (h : safeDecode isSafe t = some s) :
    Spells (Writes isSafe) s t := by
  -- the loop of the decoder consumes one byte or three
  fun_induction safeDecode isSafe t generalizing s with
  | case1 =>
    obtain rfl := Option.some.inj h
    exact .nil
  | case2 c rest hc ih =>
    obtain ⟨s, hs, rfl⟩ := Option.map_eq_some_iff.mp h
    exact .cons (.plain hc) (ih hs)
  | case9 c _ hpct first hfirst second rest hsecond hdigits ih =>
    obtain ⟨s, hs, rfl⟩ := Option.map_eq_some_iff.mp h
    obtain rfl : c = '%'.toUInt8 := not_not.mp hpct
    have hw : Writes isSafe (reverseDigit first <<< 4 ||| reverseDigit second) (escape _) := .escaped
    rw [escape_of_digits (not_not.mp hfirst) (not_not.mp hsecond) hdigits] at hw
    exact .cons hw (ih hs)
  | _ => cases h

theorem readsSpellings_safeDecode (hp : isSafe '%'.toUInt8 = false) :
    ReadsSpellings (Writes isSafe) (safeDecode isSafe) := by
  refine fun t s => ⟨spells_of_safeDecode, fun h => ?_⟩
  induction h with
  | nil => rfl
  | cons hw _ ih => rw [safeDecode_writes hp hw, ih, Option.map_some]

private theorem preferred_writePlainly (isSafe : UInt8 → Bool) : Preferred (Writes isSafe) (writePlainly isSafe) where
  writes c := by
    unfold writePlainly
    split
    · rename_i hc
      exact .plain hc
    · exact .escaped
  shortest c w hw := by
    unfold writePlainly
    cases hw with
    | plain hc => rw [if_pos hc]
    | escaped => split <;> simp [escape]

theorem safeEncode_eq_flatMap (isSafe : UInt8 → Bool) (s : Bytes) :
    safeEncode isSafe s = s.flatMap (writePlainly isSafe) := by
  unfold safeEncode writePlainly
  congr 1
  funext c
  rw [escape_eq]

/-- Percent decoding undoes percent encoding over the same safe characters. -/
theorem safeDecode_safeEncode (hp : isSafe '%'.toUInt8 = false) (s : Bytes) :
    safeDecode isSafe (safeEncode isSafe s) = some s := by
  rw [safeEncode_eq_flatMap]
  exact (preferred_writePlainly isSafe).decode_flatMap (readsSpellings_safeDecode hp) s

private theorem canonicalForm_cons {c : UInt8} (hc : c ≠ '%'.toUInt8) (t : Bytes) :
    canonicalForm isSafe (c :: t) = c :: canonicalForm isSafe t := by
  rw [canonicalForm.eq_def]
  simp [hc]

private theorem canonicalForm_escape (x y : UInt8) (t : Bytes) :
    canonicalForm isSafe ('%'.toUInt8 :: x :: y :: t) =
      (if isSafe (hexByte x y) then [hexByte x y] else ['%'.toUInt8, x, y]) ++ canonicalForm isSafe t := by
  rw [canonicalForm, if_neg (not_not.mpr rfl)]
  split <;> rfl

private theorem canonicalForm_writes (hp : isSafe '%'.toUInt8 = false) (c : UInt8) (w t : Bytes)
    (hw : Writes isSafe c w) : canonicalForm isSafe (w ++ t) = writePlainly isSafe c ++ canonicalForm isSafe t := by
  cases hw with
  | plain hc =>
    have hne : c ≠ '%'.toUInt8 := by
      rintro rfl
      rw [hp] at hc
      cases hc
    rw [writePlainly, if_pos hc, List.singleton_append, canonicalForm_cons hne, List.singleton_append]
  | escaped =>
    obtain ⟨hh, hl⟩ := hexDigits_of_byte c
    rw [writePlainly, escape, List.cons_append, List.cons_append, List.singleton_append, canonicalForm_escape,
      hexByte_of_digits hh hl]

/-- A text of safe characters and of percent signs with two hexadecimal digits. -/
def SafeOrEscaped (isSafe : UInt8 → Bool) (t : Bytes) : Prop :=
  ∃ pieces : List Bytes, t = pieces.flatten ∧ ∀ piece ∈ pieces,
    (∃ c, isSafe c ∧ piece = [c]) ∨ ∃ x ∈ hexAlphabet, ∃ y ∈ hexAlphabet, piece = ['%'.toUInt8, x, y]

private theorem safeOrEscaped_safeEncode (isSafe : UInt8 → Bool) (s : Bytes) :
    SafeOrEscaped isSafe (safeEncode isSafe s) := by
  refine ⟨s.map (writePlainly isSafe), safeEncode_eq_flatMap isSafe s, fun piece hpiece => ?_⟩
  obtain ⟨c, -, rfl⟩ := List.mem_map.mp hpiece
  unfold writePlainly
  split
  · rename_i hc
    exact .inl ⟨c, hc, rfl⟩
  · obtain ⟨hh, hl⟩ := hexDigits_of_byte c
    exact .inr ⟨_, hh.mem, _, hl.mem, rfl⟩

/-- A byte that neither is safe nor occurs in escapes is escaped away. -/
theorem notMem_safeEncode {b : UInt8} (hb : isSafe b = false) (hpct : b ≠ '%'.toUInt8) (hdigit : b ∉ hexAlphabet)
    (s : Bytes) : b ∉ safeEncode isSafe s := by
  obtain ⟨pieces, heq, hpieces⟩ := safeOrEscaped_safeEncode isSafe s
  rw [heq, List.mem_flatten]
  rintro ⟨piece, hin, hmem⟩
  rcases hpieces piece hin with ⟨c, hc, rfl⟩ | ⟨x, hx, y, hy, rfl⟩
  · rw [List.mem_singleton.mp hmem, hc] at hb
    cases hb
  · simp only [List.mem_cons, List.not_mem_nil, or_false] at hmem
    rcases hmem with rfl | rfl | rfl
    · exact hpct rfl
    · exact hdigit hx
    · exact hdigit hy

/-- The laws of a percent codec: encoding is a section of decoding that respects concatenation, and it
picks of all texts for a string the one that escapes least. -/
structure PercentCodec (isSafe : UInt8 → Bool) : Prop where
  written : ∀ s, SafeOrEscaped isSafe (safeEncode isSafe s)
  decode_encode : ∀ s, safeDecode isSafe (safeEncode isSafe s) = some s
  injective : Function.Injective (safeEncode isSafe)
  nil : safeEncode isSafe [] = []
  append : ∀ s s', safeEncode isSafe (s ++ s') = safeEncode isSafe s ++ safeEncode isSafe s'
  canonical : ∀ t s, safeDecode isSafe t = some s → safeEncode isSafe s = canonicalForm isSafe t
  encode_decode : ∀ t s, safeDecode isSafe t = some s → safeDecode isSafe (safeEncode isSafe s) = safeDecode isSafe t
  shortest : ∀ t s, safeDecode isSafe t = some s → (safeEncode isSafe s).length ≤ t.length

private theorem percentCodec_of_escaped_percent (hp : isSafe '%'.toUInt8 = false) : PercentCodec isSafe where
  written := safeOrEscaped_safeEncode isSafe
  decode_encode := safeDecode_safeEncode hp
  injective := by
    rw [show safeEncode isSafe = fun s => s.flatMap (writePlainly isSafe) from funext (safeEncode_eq_flatMap isSafe)]
    exact (preferred_writePlainly isSafe).flatMap_injective (readsSpellings_safeDecode hp)
  nil := rfl
  append s s' := List.flatMap_append
  canonical t s h := by
    rw [safeEncode_eq_flatMap]
    exact ((spells_of_safeDecode h).normalized rfl (canonicalForm_writes hp)).symm
  encode_decode t s h := (safeDecode_safeEncode hp s).trans h.symm
  shortest t s h := by
    rw [safeEncode_eq_flatMap]
    exact (preferred_writePlainly isSafe).length_le (spells_of_safeDecode h)

/-- Both codecs of the sources, for URLs and for form data. -/
theorem percent_codec : PercentCodec isUrlSafeCharacter ∧ PercentCodec isFormDataSafeCharacter :=
  ⟨percentCodec_of_escaped_percent (by decide), percentCodec_of_escaped_percent (by decide)⟩

example : canonicalForm isUrlSafeCharacter (text "%41%2Fb%7E") = text "A%2Fb~" := by decide

end Codec
end AuthService.Common.Http
