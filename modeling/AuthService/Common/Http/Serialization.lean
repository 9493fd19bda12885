import AuthService.Common.Http.PercentCodec
import Mathlib.Data.List.Infix

/-! What the form and query decoders make of serialized pairs: the form encoder's own output,
and every serialization a peer may choose. -/
namespace AuthService.Common.Http
open Lib

section Pairs
variable {decode : Bytes → Option Bytes} {encode : Bytes → Bytes}

/-- A component that keeps the two separators out. -/
structure Separable (w : Bytes) : Prop where
  ampersand : '&'.toUInt8 ∉ w
  equals : '='.toUInt8 ∉ w

def decodePair (decode : Bytes → Option Bytes) (p : Bytes × Bytes) : Option (Bytes × Bytes) :=
  (decode p.1).bind fun key => (decode p.2).map fun value => (key, value)

private theorem splitPair_join {key value : Bytes} (hk : Separable key) (hv : Separable value) :
    splitPair decode (key ++ '='.toUInt8 :: value) = decodePair decode (key, value) := by
  have hsplit : (key ++ '='.toUInt8 :: value).splitOn '='.toUInt8 = [key, value] := by
    have h : ([('='.toUInt8)].intercalate [key, value]).splitOn '='.toUInt8 = [key, value] :=
      List.splitOn_intercalate _ (by simp [hk.equals, hv.equals]) (by simp)
    simpa using h
  unfold splitPair decodePair
  rw [hsplit]
  cases hdk : decode key <;> cases hdv : decode value <;> simp [hdk, hdv]

/-- Splitting undoes joining: what is left to do is to decode each component. -/
theorem splitPairs_joinPairs {pairs : List (Bytes × Bytes)} (hne : pairs ≠ [])
    (h : ∀ p ∈ pairs, Separable (encode p.1) ∧ Separable (encode p.2)) :
    splitPairs decode (joinPairs encode pairs) =
      (pairs.mapM fun p => decodePair decode (encode p.1, encode p.2)).map Multimap.ofList := by
  have hsep : '&'.toUInt8 ≠ '='.toUInt8 := by decide
  rw [splitPairs, joinPairs, List.splitOn_intercalate]
  · congr 1
    clear hne
    induction pairs with
    | nil => rfl
    | cons p pairs ih =>
      obtain ⟨hk, hv⟩ := h p List.mem_cons_self
      have ih := ih fun q hq => h q (List.mem_cons_of_mem _ hq)
      rw [List.map_cons, List.mapM_cons, List.mapM_cons, splitPair_join hk hv, ih]
  · intro part hpart
    obtain ⟨p, hp, rfl⟩ := List.mem_map.mp hpart
    obtain ⟨hk, hv⟩ := h p hp
    simp [hk.ampersand, hv.ampersand, hsep]
  · simpa using hne

private theorem separable_safeEncode {isSafe : UInt8 → Bool} (ha : isSafe '&'.toUInt8 = false)
    (he : isSafe '='.toUInt8 = false) (s : Bytes) : Separable (safeEncode isSafe s) :=
  ⟨notMem_safeEncode ha (by decide) (by decide) s, notMem_safeEncode he (by decide) (by decide) s⟩

end Pairs

section Form

/-- What a form decoder reads for a string: the literal plus signs have become spaces. -/
def readBack (s : Bytes) : Bytes := replace '+'.toUInt8 ' '.toUInt8 s

private theorem readBack_replace (s : Bytes) : readBack (replace ' '.toUInt8 '+'.toUInt8 s) = readBack s := by
  have hsep : ' '.toUInt8 ≠ '+'.toUInt8 := by decide
  simp only [readBack, replace, List.map_map]
  refine List.map_congr_left fun c _ => ?_
  by_cases hc : c = ' '.toUInt8
  · simp [hc]
  · simp [hc]

theorem plus_not_mem_readBack (s : Bytes) : '+'.toUInt8 ∉ readBack s := by
  rw [readBack, replace, List.mem_map]
  rintro ⟨c, -, hc⟩
  split at hc
  · exact absurd hc (by decide)
  · rename_i hne
    exact hne hc

theorem readBack_of_not_mem {s : Bytes} (h : '+'.toUInt8 ∉ s) : readBack s = s := by
  have hid : ∀ c ∈ s, (if c = '+'.toUInt8 then ' '.toUInt8 else c) = id c :=
    fun c hc => if_neg fun he : c = '+'.toUInt8 => h (he ▸ hc)
  rw [readBack, replace, List.map_congr_left hid, List.map_id]

/-- The form decoder on the form encoder's output, key by key and value by value. -/
theorem decodeFormData_encodeFormData {m : Multimap Bytes Bytes} (hne : m.entries ≠ [])
    (hnul : ∀ p ∈ m.entries, NulFree p.1 ∧ NulFree p.2) :
    decodeFormData (encodeFormData m) = some (.ofList (m.entries.map (Prod.map readBack readBack))) := by
  have hcode (s : Bytes) (hs : NulFree s) :
      (safeDecode isFormDataSafeCharacter (safeEncode isFormDataSafeCharacter
        (replace ' '.toUInt8 '+'.toUInt8 (cStr s)))).map (replace '+'.toUInt8 ' '.toUInt8) = some (readBack s) := by
    rw [safeDecode_safeEncode (by decide), cStr_of_nulFree hs, Option.map_some]
    exact congrArg some (readBack_replace s)
  have hsep (s : Bytes) : Separable (safeEncode isFormDataSafeCharacter s) :=
    separable_safeEncode (by decide) (by decide) s
  rw [decodeFormData, encodeFormData, splitPairs_joinPairs hne]
  · rw [mapM_eq_some (g := Prod.map readBack readBack), Option.map_some]
    intro p hp
    obtain ⟨hk, hv⟩ := hnul p hp
    rw [decodePair, hcode _ hk, hcode _ hv]
    rfl
  · exact fun p _ => ⟨hsep _, hsep _⟩

/-- Form data comes back unchanged exactly when it holds no plus sign. -/
theorem form_round_trip_iff (m : Multimap Bytes Bytes) (hne : m.entries ≠ [])
    (hnul : ∀ p ∈ m.entries, NulFree p.1 ∧ NulFree p.2) :
    decodeFormData (encodeFormData m) = some m ↔ ∀ p ∈ m.entries, '+'.toUInt8 ∉ p.1 ∧ '+'.toUInt8 ∉ p.2 := by
  rw [decodeFormData_encodeFormData hne hnul]
  constructor
  · intro h p hp
    -- every entry of the result is a pair of strings that were read back
    rw [← Option.some.inj h] at hp
    obtain ⟨q, -, rfl⟩ := List.mem_map.mp ((Multimap.ofList_perm _).mem_iff.mp hp)
    exact ⟨plus_not_mem_readBack _, plus_not_mem_readBack _⟩
  · intro h
    have hid : ∀ p ∈ m.entries, Prod.map readBack readBack p = id p := by
      intro p hp
      exact Prod.ext (readBack_of_not_mem (h p hp).1) (readBack_of_not_mem (h p hp).2)
    rw [List.map_congr_left hid, List.map_id, Multimap.ofList_entries]

private def codeForm (code : Bytes) : Multimap Bytes Bytes := .ofList [(text "code", code), (text "scope", text "a b")]

theorem form_round_trip_code :
    decodeFormData (encodeFormData (codeForm (text "4/P7q="))) = some (codeForm (text "4/P7q=")) :=
  (form_round_trip_iff _ (by decide) (by decide)).mpr (by decide)

theorem form_plus_becomes_space :
    ¬ ∀ m : Multimap Bytes Bytes, m.entries ≠ [] → (∀ p ∈ m.entries, NulFree p.1 ∧ NulFree p.2) →
      decodeFormData (encodeFormData m) = some m := by
  intro h
  have hm := h (codeForm (text "a+b")) (by decide) (by decide)
  exact absurd hm (by decide)

end Form

section Query

/-- Escaping leaves no separator inside a component, and the pairs are inserted in their order again. -/
theorem decodeQueryData_encodeQueryData {m : Multimap Bytes Bytes} (hne : m.entries ≠ [])
    (hnul : ∀ p ∈ m.entries, NulFree p.1 ∧ NulFree p.2) : decodeQueryData (encodeQueryData m) = some m := by
  have hcode (s : Bytes) (hs : NulFree s) :
      safeDecode isUrlSafeCharacter (safeEncode isUrlSafeCharacter (cStr s)) = some s := by
    rw [cStr_of_nulFree hs, safeDecode_safeEncode (by decide)]
  have hsep (s : Bytes) : Separable (safeEncode isUrlSafeCharacter s) :=
    separable_safeEncode (by decide) (by decide) s
  rw [decodeQueryData, encodeQueryData, splitPairs_joinPairs hne]
  · rw [mapM_eq_some (g := id), Option.map_some, List.map_id, Multimap.ofList_entries]
    intro p hp
    obtain ⟨hk, hv⟩ := hnul p hp
    rw [decodePair, hcode _ hk, hcode _ hv]
    rfl
  · exact fun p _ => ⟨hsep _, hsep _⟩

/-- Encoded query data is made of safe characters, escapes and the two separators. -/
theorem notMem_encodeQueryData {b : UInt8} (hb : isUrlSafeCharacter b = false) (hpct : b ≠ '%'.toUInt8)
    (hdigit : b ∉ hexAlphabet) (hsep : b ≠ '&'.toUInt8 ∧ b ≠ '='.toUInt8) (m : Multimap Bytes Bytes) :
    b ∉ encodeQueryData m := by
  intro h
  rcases mem_of_mem_intercalate h with hamp | ⟨part, hpart, hin⟩
  · exact hsep.1 (List.mem_singleton.mp hamp)
  · obtain ⟨p, -, rfl⟩ := List.mem_map.mp hpart
    rcases List.mem_append.mp hin with hkey | hvalue
    · exact notMem_safeEncode hb hpct hdigit _ hkey
    · rcases List.mem_cons.mp hvalue with heq | hvalue
      · exact hsep.2 heq
      · exact notMem_safeEncode hb hpct hdigit _ hvalue

/-- Query data comes back unchanged, so no two multimaps are written alike. -/
theorem query_round_trip (m : Multimap Bytes Bytes) (hne : m.entries ≠ [])
    (hnul : ∀ p ∈ m.entries, NulFree p.1 ∧ NulFree p.2) :
    decodeQueryData (encodeQueryData m) = some m ∧
      ∀ other : Multimap Bytes Bytes, other.entries ≠ [] → (∀ p ∈ other.entries, NulFree p.1 ∧ NulFree p.2) →
        encodeQueryData other = encodeQueryData m → other = m := by
  have hm := decodeQueryData_encodeQueryData hne hnul
  refine ⟨hm, ?_⟩
  intro other hother hfree heq
  have hback := decodeQueryData_encodeQueryData hother hfree
  rw [heq, hm] at hback
  exact (Option.some.inj hback).symm

private def awkwardQuery : Multimap Bytes Bytes :=
  .ofList [(text "a=b", text "1&2"), ([], []), (text "+ %", [255]), (text "a=b", text "0")]

theorem query_round_trip_awkward : decodeQueryData (encodeQueryData awkwardQuery) = some awkwardQuery :=
  (query_round_trip awkwardQuery (by decide) (by decide)).1

/-- The unreserved characters of RFC 3986. -/
def unreserved : Bytes := text "ABCDEFGHIJKLMNOPQRSTUVWXYZabcdefghijklmnopqrstuvwxyz0123456789-._~"

/-- The hexadecimal digits for a value below 16, in upper and in lower case. -/
def hexDigits (n : Nat) : Bytes :=
  [(text "0123456789ABCDEF").getD n 0, (text "0123456789abcdef").getD n 0]

/-- The texts that stand for a byte. -/
inductive SerializesByte (c : UInt8) : Bytes → Prop
  | plain : c ∈ unreserved → SerializesByte c [c]
  | plus : c = ' '.toUInt8 → SerializesByte c ['+'.toUInt8]
  | escape {h l : UInt8} : h ∈ hexDigits (c.toNat / 16) → l ∈ hexDigits (c.toNat % 16) →
      SerializesByte c ['%'.toUInt8, h, l]

inductive Serializes : Bytes → Bytes → Prop
  | nil : Serializes [] []
  | cons {c : UInt8} {s w rest : Bytes} : SerializesByte c w → Serializes s rest → Serializes (c :: s) (w ++ rest)

/-- Names and values serialized one by one, then joined. -/
inductive SerializesPairs (pairs : List (Bytes × Bytes)) : Bytes → Prop
  | join {words : List (Bytes × Bytes)} :
      List.Forall₂ (fun p w => Serializes p.1 w.1 ∧ Serializes p.2 w.2) pairs words →
      SerializesPairs pairs (joinPairs id words)

def lowerCaseDigits : Bytes := text "abcdef"

/-- No plus sign, and no escape with a lower-case digit. -/
structure UpperCased (w : Bytes) : Prop where
  plus : '+'.toUInt8 ∉ w
  digits : ∀ h l, ['%'.toUInt8, h, l] <:+: w → h ∉ lowerCaseDigits ∧ l ∉ lowerCaseDigits

private theorem upperCased_nil : UpperCased [] := ⟨by simp, by simp⟩

private theorem upperCased_cons {c : UInt8} {w : Bytes} (hplus : c ≠ '+'.toUInt8) (hpct : c ≠ '%'.toUInt8) :
    UpperCased (c :: w) ↔ UpperCased w := by
  have hwithin (h l : UInt8) : ['%'.toUInt8, h, l] <:+: c :: w ↔ ['%'.toUInt8, h, l] <:+: w := by
    simp [List.infix_cons_iff, hpct.symm]
  constructor
  · rintro ⟨hp, hd⟩
    exact ⟨fun hin => hp (List.mem_cons_of_mem _ hin), fun h l hin => hd h l ((hwithin h l).mpr hin)⟩
  · rintro ⟨hp, hd⟩
    exact ⟨by simp [hplus.symm, hp], fun h l hin => hd h l ((hwithin h l).mp hin)⟩

private theorem not_upperCased_plus {w : Bytes} : ¬ UpperCased ('+'.toUInt8 :: w) :=
  fun h => h.plus List.mem_cons_self

private structure Digit (d : UInt8) (n : Nat) : Prop where
  ascii : d &&& 0x80 = 0
  plus : d ≠ '+'.toUInt8
  percent : d ≠ '%'.toUInt8
  ampersand : d ≠ '&'.toUInt8
  equals : d ≠ '='.toUInt8
  lower : d ∈ lowerCaseDigits → reverseDigit d = 255
  upper : d ∉ lowerCaseDigits → reverseDigit d = UInt8.ofNat n

private theorem digit_of_mem {d : UInt8} {n : Nat} (hn : n < 16) (hd : d ∈ hexDigits n) : Digit d n := by
  have hall : ∀ n : Fin 16, ∀ d ∈ hexDigits n, d &&& 0x80 = 0 ∧ d ≠ '+'.toUInt8 ∧ d ≠ '%'.toUInt8 ∧
      d ≠ '&'.toUInt8 ∧ d ≠ '='.toUInt8 ∧ (d ∈ lowerCaseDigits → reverseDigit d = 255) ∧
      (d ∉ lowerCaseDigits → reverseDigit d = UInt8.ofNat n) := by
    decide +kernel
  obtain ⟨h1, h2, h3, h4, h5, h6, h7⟩ := hall ⟨n, hn⟩ d hd
  exact ⟨h1, h2, h3, h4, h5, h6, h7⟩

private theorem digits_of_escape {c h l : UInt8} (hh : h ∈ hexDigits (c.toNat / 16))
    (hl : l ∈ hexDigits (c.toNat % 16)) : Digit h (c.toNat / 16) ∧ Digit l (c.toNat % 16) := by
  have hc : c.toNat < 256 := c.toNat_lt_size
  exact ⟨digit_of_mem (by omega) hh, digit_of_mem (by omega) hl⟩

private structure Plain (c : UInt8) : Prop where
  safe : isUrlSafeCharacter c
  plus : c ≠ '+'.toUInt8
  percent : c ≠ '%'.toUInt8
  ampersand : c ≠ '&'.toUInt8
  equals : c ≠ '='.toUInt8

private theorem plain_of_mem {c : UInt8} (hc : c ∈ unreserved) : Plain c := by
  have hall : ∀ c ∈ unreserved, isUrlSafeCharacter c = true ∧ c ≠ '+'.toUInt8 ∧ c ≠ '%'.toUInt8 ∧
      c ≠ '&'.toUInt8 ∧ c ≠ '='.toUInt8 := by
    decide +kernel
  obtain ⟨h1, h2, h3, h4, h5⟩ := hall c hc
  exact ⟨h1, h2, h3, h4, h5⟩

private theorem upperCased_escape {h l : UInt8} {m n : Nat} {w : Bytes} (hh : Digit h m) (hl : Digit l n) :
    UpperCased ('%'.toUInt8 :: h :: l :: w) ↔ (h ∉ lowerCaseDigits ∧ l ∉ lowerCaseDigits) ∧ UpperCased w := by
  have hpct : '%'.toUInt8 ≠ '+'.toUInt8 := by decide
  have hwithin (a b : UInt8) : ['%'.toUInt8, a, b] <:+: '%'.toUInt8 :: h :: l :: w ↔
      (a = h ∧ b = l) ∨ ['%'.toUInt8, a, b] <:+: w := by
    simp [List.infix_cons_iff, hh.percent.symm, hl.percent.symm]
  constructor
  · rintro ⟨hp, hd⟩
    refine ⟨hd h l ((hwithin h l).mpr (.inl ⟨rfl, rfl⟩)), ?_, fun a b hin => hd a b ((hwithin a b).mpr (.inr hin))⟩
    exact fun hin => hp (by simp [hin])
  · rintro ⟨hlow, hp, hd⟩
    refine ⟨by simp [hpct.symm, hh.plus.symm, hl.plus.symm, hp], fun a b hin => ?_⟩
    rcases (hwithin a b).mp hin with ⟨rfl, rfl⟩ | hin
    · exact hlow
    · exact hd a b hin

/-- Texts that no escape straddles the end of. -/
private def Whole (w : Bytes) : Prop := ∀ rest, UpperCased (w ++ rest) ↔ UpperCased w ∧ UpperCased rest

private theorem whole_append {v w : Bytes} (hv : Whole v) (hw : Whole w) : Whole (v ++ w) := by
  intro rest
  rw [List.append_assoc, hv, hw, hv w, and_assoc]

private theorem whole_of_serializesByte {c : UInt8} {w : Bytes} (h : SerializesByte c w) : Whole w := by
  intro rest
  cases h with
  | plain hc =>
    have hc := plain_of_mem hc
    simp [upperCased_cons hc.plus hc.percent, upperCased_nil]
  | plus _ => simp [not_upperCased_plus]
  | escape hh hl =>
    obtain ⟨hh, hl⟩ := digits_of_escape hh hl
    simp [upperCased_escape hh hl, upperCased_nil]

private theorem whole_nil : Whole [] := fun rest => by simp [upperCased_nil]

private theorem whole_of_serializes {s w : Bytes} (h : Serializes s w) : Whole w := by
  induction h with
  | nil => exact whole_nil
  | cons hb _ ih => exact whole_append (whole_of_serializesByte hb) ih

private theorem separable_of_serializes {s w : Bytes} (h : Serializes s w) : Separable w := by
  induction h with
  | nil => exact ⟨by simp, by simp⟩
  | cons hb _ ih =>
    obtain ⟨ha, he⟩ := ih
    have hpct : '&'.toUInt8 ≠ '%'.toUInt8 ∧ '='.toUInt8 ≠ '%'.toUInt8 := by decide
    cases hb with
    | plain hc =>
      have hc := plain_of_mem hc
      exact ⟨by simp [ha, hc.ampersand.symm], by simp [he, hc.equals.symm]⟩
    | plus _ => exact ⟨by simpa using ⟨by decide, ha⟩, by simpa using ⟨by decide, he⟩⟩
    | escape hh hl =>
      obtain ⟨hh, hl⟩ := digits_of_escape hh hl
      exact ⟨by simp [ha, hpct.1, hh.ampersand.symm, hl.ampersand.symm],
        by simp [he, hpct.2, hh.equals.symm, hl.equals.symm]⟩

private theorem digit_value {d : UInt8} {n : Nat} (hn : n < 16) (hd : Digit d n) :
    reverseDigit d = 255 ↔ d ∈ lowerCaseDigits := by
  refine ⟨fun h => ?_, hd.lower⟩
  by_contra hlow
  have hvalue : UInt8.ofNat n = 255 := (hd.upper hlow).symm.trans h
  have hall : ∀ n : Fin 16, UInt8.ofNat n ≠ 255 := by decide
  exact hall ⟨n, hn⟩ hvalue

/-- Query decoding reads a serialized string back, or fails on what it does not understand of it. -/
theorem safeDecode_of_serializes {s w : Bytes} (h : Serializes s w) :
    (UpperCased w → safeDecode isUrlSafeCharacter w = some s) ∧
      (¬ UpperCased w → safeDecode isUrlSafeCharacter w = none) := by
  induction h with
  | nil => exact ⟨fun _ => rfl, fun h => absurd upperCased_nil h⟩
  | @cons c s w rest hb _ ih =>
    obtain ⟨hread, hfail⟩ := ih
    cases hb with
    | plain hc =>
      have hc := plain_of_mem hc
      rw [List.singleton_append, upperCased_cons hc.plus hc.percent, safeDecode_safe hc.safe]
      exact ⟨fun h => by rw [hread h]; rfl, fun h => by rw [hfail h]; rfl⟩
    | plus _ =>
      have hnone : safeDecode isUrlSafeCharacter ('+'.toUInt8 :: rest) = none := by
        rw [safeDecode.eq_def]
        simp [show isUrlSafeCharacter '+'.toUInt8 = false from by decide,
          show '+'.toUInt8 ≠ '%'.toUInt8 from by decide]
      exact ⟨fun h => absurd h not_upperCased_plus, fun _ => hnone⟩
    | @escape h l hh hl =>
      obtain ⟨hh, hl⟩ := digits_of_escape hh hl
      have hc : c.toNat < 256 := c.toNat_lt_size
      have hescape := safeDecode_escape (w := rest) (show isUrlSafeCharacter '%'.toUInt8 = false by decide)
        hh.ascii hl.ascii
      change (UpperCased ('%'.toUInt8 :: h :: l :: rest) → safeDecode _ ('%'.toUInt8 :: h :: l :: rest) = _) ∧
        (¬ UpperCased ('%'.toUInt8 :: h :: l :: rest) → safeDecode _ ('%'.toUInt8 :: h :: l :: rest) = _)
      have hdigits : reverseDigit h = 255 ∨ reverseDigit l = 255 ↔ h ∈ lowerCaseDigits ∨ l ∈ lowerCaseDigits :=
        or_congr (digit_value (by omega) hh) (digit_value (by omega) hl)
      rw [upperCased_escape hh hl, hescape]
      by_cases hlow : h ∈ lowerCaseDigits ∨ l ∈ lowerCaseDigits
      · rw [if_pos (hdigits.mpr hlow)]
        exact ⟨fun hup => absurd hlow (not_or.mpr hup.1), fun _ => rfl⟩
      · rw [if_neg (mt hdigits.mp hlow), hh.upper (not_or.mp hlow).1, hl.upper (not_or.mp hlow).2, joined_digits]
        refine ⟨fun hup => by rw [hread hup.2]; rfl, fun hup => ?_⟩
        rw [hfail fun hrest => hup ⟨not_or.mp hlow, hrest⟩]
        rfl

private theorem decodePair_of_serializes {p w : Bytes × Bytes} (h : Serializes p.1 w.1 ∧ Serializes p.2 w.2) :
    (UpperCased w.1 ∧ UpperCased w.2 → decodePair (safeDecode isUrlSafeCharacter) w = some p) ∧
      (¬ (UpperCased w.1 ∧ UpperCased w.2) → decodePair (safeDecode isUrlSafeCharacter) w = none) := by
  obtain ⟨hkey, hkeyFail⟩ := safeDecode_of_serializes h.1
  obtain ⟨hvalue, hvalueFail⟩ := safeDecode_of_serializes h.2
  unfold decodePair
  by_cases hk : UpperCased w.1
  · by_cases hv : UpperCased w.2
    · exact ⟨fun _ => by rw [hkey hk, hvalue hv]; rfl, fun hn => absurd ⟨hk, hv⟩ hn⟩
    · exact ⟨fun hn => absurd hn.2 hv, fun _ => by rw [hkey hk, hvalueFail hv]; rfl⟩
  · exact ⟨fun hn => absurd hn.1 hk, fun _ => by rw [hkeyFail hk]; rfl⟩

private theorem mapM_of_serializes {pairs words : List (Bytes × Bytes)}
    (h : List.Forall₂ (fun p w => Serializes p.1 w.1 ∧ Serializes p.2 w.2) pairs words) :
    ((∀ w ∈ words, UpperCased w.1 ∧ UpperCased w.2) →
      words.mapM (decodePair (safeDecode isUrlSafeCharacter)) = some pairs) ∧
      ((¬ ∀ w ∈ words, UpperCased w.1 ∧ UpperCased w.2) →
        words.mapM (decodePair (safeDecode isUrlSafeCharacter)) = none) := by
  induction h with
  | nil => exact ⟨fun _ => rfl, fun h => absurd (by simp) h⟩
  | @cons p w pairs words hp _ ih =>
    obtain ⟨hread, hfail⟩ := decodePair_of_serializes hp
    obtain ⟨ihRead, ihFail⟩ := ih
    rw [List.forall_mem_cons, List.mapM_cons]
    by_cases hw : UpperCased w.1 ∧ UpperCased w.2
    · rw [hread hw]
      exact ⟨fun h => by rw [ihRead h.2]; rfl, fun h => by rw [ihFail fun hrest => h ⟨hw, hrest⟩]; rfl⟩
    · rw [hfail hw]
      exact ⟨fun h => absurd h.1 hw, fun _ => rfl⟩

private theorem whole_separator {c : UInt8} (hplus : c ≠ '+'.toUInt8) (hpct : c ≠ '%'.toUInt8) : Whole [c] := by
  intro rest
  simp [upperCased_cons hplus hpct, upperCased_nil]

private theorem upperCased_joinPairs {words : List (Bytes × Bytes)}
    (h : ∀ w ∈ words, Whole w.1 ∧ Whole w.2) :
    UpperCased (joinPairs id words) ↔ ∀ w ∈ words, UpperCased w.1 ∧ UpperCased w.2 := by
  have hpart (w : Bytes × Bytes) (hw : Whole w.1 ∧ Whole w.2) :
      Whole (w.1 ++ '='.toUInt8 :: w.2) ∧
        (UpperCased (w.1 ++ '='.toUInt8 :: w.2) ↔ UpperCased w.1 ∧ UpperCased w.2) := by
    have heq : Whole ('='.toUInt8 :: w.2) := whole_append (whole_separator (by decide) (by decide)) hw.2
    exact ⟨whole_append hw.1 heq, by rw [hw.1, upperCased_cons (by decide) (by decide)]⟩
  induction words with
  | nil => simp [joinPairs, upperCased_nil]
  | cons w words ih =>
    have hrest := ih fun v hv => h v (List.mem_cons_of_mem _ hv)
    obtain ⟨hwhole, hw⟩ := hpart w (h w List.mem_cons_self)
    cases words with
    | nil => simpa [joinPairs] using hw
    | cons next words =>
      have hjoin : joinPairs id (w :: next :: words) =
          (w.1 ++ '='.toUInt8 :: w.2) ++ '&'.toUInt8 :: joinPairs id (next :: words) := by
        simp [joinPairs, List.intercalate_cons_cons]
      rw [hjoin, hwhole, hw, upperCased_cons (by decide) (by decide), List.forall_mem_cons (a := w)]
      exact and_congr_right' hrest

private theorem exists_serialized {pairs words : List (Bytes × Bytes)}
    (h : List.Forall₂ (fun p w => Serializes p.1 w.1 ∧ Serializes p.2 w.2) pairs words) :
    ∀ w ∈ words, ∃ p : Bytes × Bytes, Serializes p.1 w.1 ∧ Serializes p.2 w.2 := by
  induction h with
  | nil => simp
  | @cons p w pairs words hp _ ih => exact List.forall_mem_cons.mpr ⟨⟨p, hp⟩, ih⟩

/-- A serialized query is understood exactly when it has no plus sign and no escape with a lower-case digit. -/
theorem query_understood_iff (pairs : List (Bytes × Bytes)) (query : Bytes) (hne : pairs ≠ [])
    (h : SerializesPairs pairs query) :
    decodeQueryData query = some (.ofList pairs) ↔
      '+'.toUInt8 ∉ query ∧
        ∀ high low, ['%'.toUInt8, high, low] <:+: query → high ∉ lowerCaseDigits ∧ low ∉ lowerCaseDigits := by
  obtain ⟨hs⟩ := h
  rename_i words
  have hserialized := exists_serialized hs
  have hwords : words ≠ [] := by
    rintro rfl
    exact hne (List.forall₂_nil_right_iff.mp hs)
  have hdecode : decodeQueryData (joinPairs id words) =
      (words.mapM (decodePair (safeDecode isUrlSafeCharacter))).map Multimap.ofList := by
    refine splitPairs_joinPairs hwords fun w hw => ?_
    obtain ⟨p, hkey, hvalue⟩ := hserialized w hw
    exact ⟨separable_of_serializes hkey, separable_of_serializes hvalue⟩
  have hupper : UpperCased (joinPairs id words) ↔ ∀ w ∈ words, UpperCased w.1 ∧ UpperCased w.2 := by
    refine upperCased_joinPairs fun w hw => ?_
    obtain ⟨p, hkey, hvalue⟩ := hserialized w hw
    exact ⟨whole_of_serializes hkey, whole_of_serializes hvalue⟩
  obtain ⟨hread, hfail⟩ := mapM_of_serializes hs
  constructor
  · intro hsome
    have hup : UpperCased (joinPairs id words) := by
      rw [hupper]
      by_contra hn
      rw [hdecode, hfail hn] at hsome
      cases hsome
    exact ⟨hup.plus, hup.digits⟩
  · rintro ⟨hplus, hdigits⟩
    rw [hdecode, hread (hupper.mp ⟨hplus, hdigits⟩), Option.map_some]

private theorem serializes_plain {s : Bytes} (h : ∀ c ∈ s, c ∈ unreserved) : Serializes s s := by
  induction s with
  | nil => exact .nil
  | cons c s ih =>
    obtain ⟨hc, hs⟩ := List.forall_mem_cons.mp h
    exact .cons (.plain hc) (ih hs)

theorem query_understood_state :
    decodeQueryData (text "code=%2F&state=xy") =
      some (.ofList [(text "code", text "/"), (text "state", text "xy")]) := by
  have hs : SerializesPairs [(text "code", text "/"), (text "state", text "xy")]
      (joinPairs id [(text "code", text "%2F"), (text "state", text "xy")]) := by
    refine .join (.cons ⟨serializes_plain (by decide +kernel), ?_⟩
      (.cons ⟨serializes_plain (by decide +kernel), ?_⟩ .nil))
    · exact .cons (.escape (by decide) (by decide)) .nil
    · exact serializes_plain (by decide +kernel)
  refine (query_understood_iff _ _ (by decide) hs).mpr ⟨by decide, ?_⟩
  intro high low hin
  obtain ⟨tail, hfront, htail⟩ := List.infix_iff_prefix_suffix.mp hin
  have hall : ∀ t ∈ (joinPairs id [(text "code", text "%2F"), (text "state", text "xy")]).tails,
      t.head? = some '%'.toUInt8 → t.getD 1 0 ∉ lowerCaseDigits ∧ t.getD 2 0 ∉ lowerCaseDigits := by
    decide
  obtain ⟨rest, rfl⟩ := hfront
  exact hall _ ((List.mem_tails _ _).mpr htail) rfl

/-- A space written as `+` in the state is enough to refuse the callback. -/
theorem query_plus_refused :
    ¬ ∀ (pairs : List (Bytes × Bytes)) (query : Bytes), pairs ≠ [] → SerializesPairs pairs query →
      decodeQueryData query = some (.ofList pairs) := by
  intro h
  have hs : SerializesPairs [(text "code", text "a b")] (joinPairs id [(text "code", text "a+b")]) := by
    refine .join (.cons ⟨serializes_plain (by decide +kernel), ?_⟩ .nil)
    exact .cons (.plain (by decide)) (.cons (.plus rfl) (serializes_plain (by decide +kernel)))
  exact absurd (h _ _ (by decide) hs) (by decide)

end Query
end AuthService.Common.Http
