import AuthService.Common.Bytes
import AuthService.Lib.Containers

/-! Percent coding, query and form data, basic credentials and cookies of `http.cc`. -/
namespace AuthService.Common.Http
open Lib

def forwardAlphabet : Bytes := text "0123456789ABCDEF"

/-- Hexadecimal digit values by character; 255 marks what is not a digit. -/
def reverseAlphabet : Bytes := [
  255, 255, 255, 255, 255, 255, 255, 255, 255, 255, 255, 255, 255, 255, 255,
  255, 255, 255, 255, 255, 255, 255, 255, 255, 255, 255, 255, 255, 255, 255,
  255, 255, 255, 255, 255, 255, 255, 255, 255, 255, 255, 255, 255, 255, 255,
  255, 255, 255, 0,   1,   2,   3,   4,   5,   6,   7,   8,   9,   255, 255,
  255, 255, 255, 255, 255, 10,  11,  12,  13,  14,  15,  255, 255, 255, 255,
  255, 255, 255, 255, 255, 255, 255, 255, 255, 255, 255, 255, 255, 255, 255,
  255, 255, 255, 255, 255, 255, 255, 255, 255, 255, 255, 255, 255, 255, 255,
  255, 255, 255, 255, 255, 255, 255, 255, 255, 255, 255, 255, 255, 255, 255,
  255, 255, 255, 255, 255, 255, 255, 255]

def isUrlSafeCharacter (c : UInt8) : Bool :=
  ('A'.toUInt8 ≤ c && c ≤ 'Z'.toUInt8) || ('a'.toUInt8 ≤ c && c ≤ 'z'.toUInt8) ||
  ('0'.toUInt8 ≤ c && c ≤ '9'.toUInt8) || c == '-'.toUInt8 || c == '_'.toUInt8 ||
  c == '.'.toUInt8 || c == '~'.toUInt8

def isFormDataSafeCharacter (c : UInt8) : Bool := isUrlSafeCharacter c || c == '+'.toUInt8

def forwardDigit (n : UInt8) : UInt8 := forwardAlphabet.getD n.toNat 0

def reverseDigit (c : UInt8) : UInt8 := reverseAlphabet.getD (c &&& 0x7f).toNat 255

def safeEncode (isSafe : UInt8 → Bool) (s : Bytes) : Bytes :=
  s.flatMap fun c =>
    if isSafe c then [c]
    else ['%'.toUInt8, forwardDigit ((c &&& 0xf0) >>> 4), forwardDigit (c &&& 0x0f)]

def safeDecode (isSafe : UInt8 → Bool) : Bytes → Option Bytes
  | [] => some []
  | c :: rest =>
    if isSafe c then (safeDecode isSafe rest).map (c :: ·)
    else if c ≠ '%'.toUInt8 then none
    else match rest with
      | [] => none
      | first :: rest =>
        if first &&& 0x80 ≠ 0 then none
        else match rest with
          | [] => none
          | second :: rest =>
            if second &&& 0x80 ≠ 0 then none
            else if reverseDigit first = 255 ∨ reverseDigit second = 255 then none
            else (safeDecode isSafe rest).map ((reverseDigit first <<< 4 ||| reverseDigit second) :: ·)

def urlSafeEncode (url : Bytes) : Bytes := safeEncode isUrlSafeCharacter url

def urlSafeDecode (url : Bytes) : Option Bytes := safeDecode isUrlSafeCharacter url

/-- Pairs joined by `=` inside and `&` between. -/
def joinPairs (encode : Bytes → Bytes) (pairs : List (Bytes × Bytes)) : Bytes :=
  [('&'.toUInt8)].intercalate (pairs.map fun p => encode p.1 ++ '='.toUInt8 :: encode p.2)

/-- One `key=value` part, both sides decoded. -/
def splitPair (decode : Bytes → Option Bytes) (part : Bytes) : Option (Bytes × Bytes) :=
  match part.splitOn '='.toUInt8 with
  | [key, value] =>
    match decode key, decode value with
    | some key, some value => some (key, value)
    | _, _ => none
  | _ => none

/-- Split at `&`; any part that is not one decodable pair fails the whole. -/
def splitPairs (decode : Bytes → Option Bytes) (s : Bytes) : Option (Multimap Bytes Bytes) :=
  ((s.splitOn '&'.toUInt8).mapM (splitPair decode)).map Multimap.ofList

/-- The copies with spaces replaced by `+` that the source makes here are never used. -/
def encodeQueryData (data : Multimap Bytes Bytes) : Bytes :=
  joinPairs (fun s => safeEncode isUrlSafeCharacter (cStr s)) data.entries

def decodeQueryData (query : Bytes) : Option (Multimap Bytes Bytes) :=
  splitPairs (safeDecode isUrlSafeCharacter) query

def replace (old new : UInt8) (s : Bytes) : Bytes := s.map fun c => if c = old then new else c

def encodeFormData (data : Multimap Bytes Bytes) : Bytes :=
  joinPairs (fun s => safeEncode isFormDataSafeCharacter (replace ' '.toUInt8 '+'.toUInt8 (cStr s)))
    data.entries

def decodeFormData (form : Bytes) : Option (Multimap Bytes Bytes) :=
  splitPairs (fun s => (safeDecode isFormDataSafeCharacter s).map (replace '+'.toUInt8 ' '.toUInt8)) form

def base64Alphabet : Bytes := text "ABCDEFGHIJKLMNOPQRSTUVWXYZabcdefghijklmnopqrstuvwxyz0123456789+/"

def base64Digit (n : Nat) : UInt8 := base64Alphabet.getD (n % 64) 0

/-- `absl::Base64Escape`: three bytes give four digits, a shorter tail is padded. -/
def base64Escape : Bytes → Bytes
  | [] => []
  | [a] =>
    let n := a.toNat * 65536
    [base64Digit (n / 262144), base64Digit (n / 4096), '='.toUInt8, '='.toUInt8]
  | [a, b] =>
    let n := a.toNat * 65536 + b.toNat * 256
    [base64Digit (n / 262144), base64Digit (n / 4096), base64Digit (n / 64), '='.toUInt8]
  | a :: b :: c :: rest =>
    let n := a.toNat * 65536 + b.toNat * 256 + c.toNat
    base64Digit (n / 262144) :: base64Digit (n / 4096) :: base64Digit (n / 64) :: base64Digit n ::
      base64Escape rest

def encodeBasicAuth (username password : Bytes) : Bytes :=
  text "Basic" ++ text " " ++ base64Escape (username ++ text ":" ++ password)

def encodeSetCookie (name value : Bytes) (directives : List Bytes) : Bytes :=
  cStr name ++ '='.toUInt8 :: cStr value ++ directives.flatMap fun d => text "; " ++ cStr d

/-- `absl::StrSplit` at a two-byte delimiter, leftmost occurrences first. -/
def splitOnPair (x y : UInt8) : Bytes → List Bytes
  | [] => [[]]
  | [a] => [[a]]
  | a :: b :: rest =>
    if a = x ∧ b = y then [] :: splitOnPair x y rest
    else match splitOnPair x y (b :: rest) with
      | [] => [[a]]
      | part :: parts => (a :: part) :: parts

/-- `absl::StrSplit` with at most one split: before and after the first delimiter. -/
def splitFirst (x : UInt8) (s : Bytes) : Option (Bytes × Bytes) :=
  if x ∈ s then some (s.takeWhile (· ≠ x), (s.dropWhile (· ≠ x)).drop 1) else none

/-- Earlier cookies win; a segment without `=` makes the whole header undecodable. -/
def decodeCookies (cookies : Bytes) : Option (AList fun _ : Bytes => Bytes) :=
  ((splitOnPair ';'.toUInt8 ' '.toUInt8 cookies).mapM (splitFirst '='.toUInt8)).map fun pairs =>
    pairs.foldl (fun m p => if p.1 ∈ m then m else m.insert p.1 p.2) ∅

/-- A cookie's value: the first pair of its name, when every segment is a pair. -/
theorem decodeCookies_bind_lookup (cookies name : Bytes) :
    (decodeCookies cookies).bind (·.lookup name) =
      ((splitOnPair ';'.toUInt8 ' '.toUInt8 cookies).mapM (splitFirst '='.toUInt8)).bind (·.lookup name) := by
  have hfold (pairs : List (Bytes × Bytes)) (m : AList fun _ : Bytes => Bytes) :
      (pairs.foldl (fun m p => if p.1 ∈ m then m else m.insert p.1 p.2) m).lookup name =
        (m.lookup name).or (pairs.lookup name) := by
    induction pairs generalizing m with
    | nil => simp
    | cons pair pairs ih =>
      obtain ⟨first, value⟩ := pair
      rw [List.foldl_cons, ih]
      by_cases hn : name = first
      · subst hn
        split
        · rename_i hm
          obtain ⟨v, hv⟩ := Option.isSome_iff_exists.mp (AList.lookup_isSome.mpr hm)
          simp [hv]
        · rename_i hm
          simp [AList.lookup_eq_none.mpr hm, AList.lookup_insert]
      · have hb : (name == first) = false := by simpa using hn
        split
        · rw [List.lookup_cons, hb]
        · rw [AList.lookup_insert_ne hn, List.lookup_cons, hb]
  unfold decodeCookies
  cases (splitOnPair ';'.toUInt8 ' '.toUInt8 cookies).mapM (splitFirst '='.toUInt8) with
  | none => rfl
  | some pairs => simp [hfold]

private theorem mem_of_mem_splitOnPair {x y c : UInt8} {s part : Bytes} (hp : part ∈ splitOnPair x y s)
    (hc : c ∈ part) : c ∈ s := by
  induction s using splitOnPair.induct x y generalizing part with
  | case1 => simp_all [splitOnPair]
  | case2 a => simp_all [splitOnPair]
  | case3 a b rest hab ih =>
    rw [splitOnPair, if_pos hab] at hp
    rcases List.mem_cons.mp hp with rfl | hp
    · cases hc
    · exact List.mem_cons_of_mem _ (List.mem_cons_of_mem _ (ih hp hc))
  | case4 a b rest hab hs ih =>
    rw [splitOnPair, if_neg hab, hs] at hp
    simp_all
  | case5 a b rest hab first parts hs ih =>
    rw [splitOnPair, if_neg hab, hs] at hp
    rcases List.mem_cons.mp hp with rfl | hp
    · rcases List.mem_cons.mp hc with rfl | hc
      · exact List.mem_cons_self
      · exact List.mem_cons_of_mem _ (ih (hs ▸ List.mem_cons_self) hc)
    · exact List.mem_cons_of_mem _ (ih (hs ▸ List.mem_cons_of_mem _ hp) hc)

private theorem splitFirst_subset {x : UInt8} {s a b : Bytes} (h : splitFirst x s = some (a, b)) : b ⊆ s := by
  unfold splitFirst at h
  split at h
  · cases h
    exact fun c hc => (List.dropWhile_sublist _).subset (List.drop_subset _ _ hc)
  · cases h

/-- A cookie's value is made of bytes of the header. -/
theorem decodeCookies_subset {cookies name value : Bytes}
    (h : (decodeCookies cookies).bind (·.lookup name) = some value) : value ⊆ cookies := by
  rw [decodeCookies_bind_lookup] at h
  obtain ⟨pairs, hp, hl⟩ := Option.bind_eq_some_iff.mp h
  obtain ⟨l₁, l₂, rfl, _⟩ := List.lookup_eq_some_iff.mp hl
  obtain ⟨part, hpart, hs⟩ := exists_of_mapM hp (List.mem_append_right l₁ List.mem_cons_self)
  exact fun c hc => mem_of_mem_splitOnPair hpart (splitFirst_subset hs hc)

private theorem splitOnPair_cons {x y a : UInt8} {s : Bytes} (ha : ¬ [x, y] <+: a :: s) :
    splitOnPair x y (a :: s) = (match splitOnPair x y s with
      | [] => [[a]]
      | part :: parts => (a :: part) :: parts) := by
  cases s with
  | nil => rfl
  | cons b s => rw [splitOnPair, if_neg fun ⟨hx, hy⟩ => ha (by simp [hx, hy])]

private theorem splitOnPair_append {x y : UInt8} {part rest : Bytes} (hxy : x ≠ y) (hp : ¬ [x, y] <:+: part) :
    splitOnPair x y (part ++ x :: y :: rest) = part :: splitOnPair x y rest := by
  induction part with
  | nil => simp [splitOnPair]
  | cons a part ih =>
    rw [List.infix_cons_iff, not_or] at hp
    have ha : ¬ [x, y] <+: a :: (part ++ x :: y :: rest) := by
      cases part with
      | nil => simp [hxy.symm]
      | cons b part => simpa using hp.1
    rw [List.cons_append, splitOnPair_cons ha, ih hp.2]

private theorem splitOnPair_self {x y : UInt8} {part : Bytes} (hp : ¬ [x, y] <:+: part) :
    splitOnPair x y part = [part] := by
  induction part with
  | nil => rfl
  | cons a part ih =>
    rw [List.infix_cons_iff, not_or] at hp
    rw [splitOnPair_cons hp.1, ih hp.2]

/-- Splitting undoes joining when no part holds the delimiter. -/
theorem splitOnPair_intercalate {x y : UInt8} {parts : List Bytes} (hxy : x ≠ y) (hne : parts ≠ [])
    (hp : ∀ part ∈ parts, ¬ [x, y] <:+: part) :
    splitOnPair x y ([x, y].intercalate parts) = parts := by
  induction parts with
  | nil => exact absurd rfl hne
  | cons part parts ih =>
    have hpart := hp part List.mem_cons_self
    cases parts with
    | nil => rw [List.intercalate_singleton, splitOnPair_self hpart]
    | cons next parts =>
      have ih := ih (by simp) fun p hin => hp p (List.mem_cons_of_mem _ hin)
      rw [List.intercalate_cons_cons, List.append_assoc]
      exact (splitOnPair_append hxy hpart).trans (congrArg _ ih)

/-- A `name=value` cookie as a browser sends it back. -/
structure CookiePair (p : Bytes × Bytes) : Prop where
  name_eq : '='.toUInt8 ∉ p.1
  name_semicolon : ';'.toUInt8 ∉ p.1
  value_semicolon : ';'.toUInt8 ∉ p.2

def joinCookie (p : Bytes × Bytes) : Bytes := p.1 ++ '='.toUInt8 :: p.2

/-- Cookies joined by a semicolon and a space. -/
def joinCookies (pairs : List (Bytes × Bytes)) : Bytes :=
  [';'.toUInt8, ' '.toUInt8].intercalate (pairs.map joinCookie)

private theorem splitFirst_joinCookie {p : Bytes × Bytes} (hp : '='.toUInt8 ∉ p.1) :
    splitFirst '='.toUInt8 (joinCookie p) = some p := by
  have hne : ∀ c ∈ p.1, decide (c ≠ '='.toUInt8) = true := by
    intro c hc
    simpa using fun h : c = '='.toUInt8 => hp (h ▸ hc)
  rw [splitFirst, joinCookie, if_pos (by simp), List.takeWhile_append_of_pos hne, List.dropWhile_append_of_pos hne]
  simp

/-- Cookie decoding finds every cookie of a well-formed header. -/
theorem decodeCookies_joinCookies {pairs : List (Bytes × Bytes)} (hne : pairs ≠ [])
    (hp : ∀ p ∈ pairs, CookiePair p) (name : Bytes) :
    (decodeCookies (joinCookies pairs)).bind (·.lookup name) = pairs.lookup name := by
  have hmap : (pairs.map joinCookie).mapM (splitFirst '='.toUInt8) = some pairs := by
    have hsplit : ∀ p ∈ pairs, (splitFirst '='.toUInt8 ∘ joinCookie) p = some (id p) :=
      fun p hin => splitFirst_joinCookie (hp p hin).name_eq
    rw [List.mapM_map, mapM_eq_some hsplit, List.map_id]
  rw [decodeCookies_bind_lookup, joinCookies, splitOnPair_intercalate (by decide), hmap]
  · rfl
  · simpa using hne
  · intro part hpart hin
    obtain ⟨p, hp', rfl⟩ := List.mem_map.mp hpart
    have hsep : ';'.toUInt8 ≠ '='.toUInt8 := by decide
    have hnot : ';'.toUInt8 ∉ joinCookie p := by
      simp [joinCookie, (hp p hp').name_semicolon, (hp p hp').value_semicolon, hsep]
    exact hnot (hin.subset List.mem_cons_self)

private theorem delimited_of_mem {x : UInt8} {s : Bytes} (h : x ∈ s) : s.takeWhile (· ≠ x) ++ [x] <+: s := by
  induction s with
  | nil => cases h
  | cons c s ih =>
    by_cases hc : c = x
    · simp [hc]
    · have hs : x ∈ s := by simpa [Ne.symm hc] using h
      simpa [hc] using ih hs

/-- The first segment of a cookie's name decides, when every segment is a pair. -/
theorem decodeCookies_segments {front back : List Bytes} {name value : Bytes} (hname : '='.toUInt8 ∉ name)
    (hseg : ∀ seg ∈ front ++ joinCookie (name, value) :: back, ¬ [';'.toUInt8, ' '.toUInt8] <:+: seg)
    (hfront : ∀ seg ∈ front, ¬ name ++ ['='.toUInt8] <+: seg) :
    (decodeCookies ([';'.toUInt8, ' '.toUInt8].intercalate (front ++ joinCookie (name, value) :: back))).bind
        (·.lookup name) =
      if ∀ seg ∈ front ++ joinCookie (name, value) :: back, '='.toUInt8 ∈ seg then some value else none := by
  rw [decodeCookies_bind_lookup, splitOnPair_intercalate (by decide) (by simp) hseg]
  split
  · rename_i hall
    have hsplit : ∀ seg ∈ front ++ joinCookie (name, value) :: back, splitFirst '='.toUInt8 seg =
        some (seg.takeWhile (· ≠ '='.toUInt8), (seg.dropWhile (· ≠ '='.toUInt8)).drop 1) :=
      fun seg hin => if_pos (hall seg hin)
    have hcookie := (hsplit _ (by simp)).symm.trans (splitFirst_joinCookie (p := (name, value)) hname)
    rw [mapM_eq_some hsplit, Option.bind_some, List.map_append, List.lookup_append, List.map_cons,
      Option.some.inj hcookie, List.lookup_cons_self, Option.or_eq_right_of_none]
    rw [List.lookup_eq_none_iff]
    intro p hin
    obtain ⟨seg, hfr, rfl⟩ := List.mem_map.mp hin
    refine bne_iff_ne.mpr fun hn => hfront seg hfr ?_
    rw [hn]
    exact delimited_of_mem (hall seg (List.mem_append_left _ hfr))
  · rename_i hall
    obtain ⟨seg, hin, heq⟩ : ∃ seg ∈ front ++ joinCookie (name, value) :: back, '='.toUInt8 ∉ seg := by
      simpa using hall
    rw [mapM_eq_none hin (if_neg heq)]
    rfl

namespace Headers

def authorization : Bytes := text "authorization"
def cookie : Bytes := text "cookie"
def cacheControl : Bytes := text "cache-control"
def contentType : Bytes := text "content-type"
def location : Bytes := text "location"
def pragma : Bytes := text "pragma"
def setCookie : Bytes := text "set-cookie"
def noCache : Bytes := text "no-cache"
def formUrlEncoded : Bytes := text "application/x-www-form-urlencoded"
def secure : Bytes := text "Secure"
def httpOnly : Bytes := text "HttpOnly"
def sameSiteLax : Bytes := text "SameSite=Lax"
def maxAge : Bytes := text "Max-Age"

end Headers
end AuthService.Common.Http
