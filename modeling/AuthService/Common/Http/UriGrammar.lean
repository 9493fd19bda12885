import AuthService.Common.Http.Uri

/-! The grammar of the URIs the parser accepts, and the parts it and the path splitter read off a text. -/
namespace AuthService.Common.Http

namespace PathQueryFragment

/-- A question mark stands before the first hash. -/
abbrev QueryFirst (s : Bytes) : Prop := '?'.toUInt8 ∈ s.takeWhile (· ≠ '#'.toUInt8)

/-- The split of a text into path, query and fragment: the first `?` before any `#` opens the query,
the first `#` the fragment. -/
structure Splits (s : Bytes) (p : PathQueryFragment) : Prop where
  path : Plain p.path
  query : '#'.toUInt8 ∉ p.query
  whole : s = p.path ++ ((if QueryFirst s then '?'.toUInt8 :: p.query else []) ++
    if '#'.toUInt8 ∈ s then '#'.toUInt8 :: p.fragment else [])
  noQuery : ¬ QueryFirst s → p.query = []
  noFragment : '#'.toUInt8 ∉ s → p.fragment = []

private theorem takeWhile_before {front fragment : Bytes} (h : '#'.toUInt8 ∉ front) :
    (front ++ '#'.toUInt8 :: fragment).takeWhile (· ≠ '#'.toUInt8) = front := by
  rw [List.takeWhile_append_of_pos]
  · simp
  · intro c hc
    simpa using fun he : c = '#'.toUInt8 => h (he ▸ hc)

private theorem takeWhile_all {s : Bytes} (h : '#'.toUInt8 ∉ s) : s.takeWhile (· ≠ '#'.toUInt8) = s := by
  rw [List.takeWhile_eq_self_iff]
  intro c hc
  simpa using fun he : c = '#'.toUInt8 => h (he ▸ hc)

theorem parse_splits {s : Bytes} (h : NulFree s) : Splits s (parse s) := by
  have hsep : '#'.toUInt8 ≠ '?'.toUInt8 := by decide
  cases arranged s with
  | plain hp =>
    have hnone : ¬ QueryFirst s := by
      rw [QueryFirst, takeWhile_all hp.hashtag]
      exact hp.question
    rw [parse_plain hp, cStr_of_nulFree h]
    exact ⟨hp, by simp, by simp [hnone, hp.hashtag], fun _ => rfl, fun _ => rfl⟩
  | @query path query hp hq =>
    have hhash : '#'.toUInt8 ∉ path ++ '?'.toUInt8 :: query := by simp [hp.hashtag, hq, hsep]
    have hfirst : QueryFirst (path ++ '?'.toUInt8 :: query) := by
      rw [QueryFirst, takeWhile_all hhash]
      simp
    have hquery : cStr query = query := cStr_of_nulFree fun hz => h (by simp [hz])
    rw [parse_query hp hq, hquery]
    exact ⟨hp, hq, by rw [if_pos hfirst, if_neg hhash, List.append_nil], fun hn => absurd hfirst hn, fun _ => rfl⟩
  | @fragment path fragment hp =>
    have hhash : '#'.toUInt8 ∈ path ++ '#'.toUInt8 :: fragment := by simp
    have hnone : ¬ QueryFirst (path ++ '#'.toUInt8 :: fragment) := by
      rw [QueryFirst, takeWhile_before hp.hashtag]
      exact hp.question
    have hfragment : cStr fragment = fragment := cStr_of_nulFree fun hz => h (by simp [hz])
    rw [parse_fragment hp, hfragment]
    exact ⟨hp, by simp, by rw [if_neg hnone, if_pos hhash, List.nil_append], fun _ => rfl, fun hn => absurd hhash hn⟩
  | @both path query fragment hp hq =>
    have hassoc : path ++ '?'.toUInt8 :: (query ++ '#'.toUInt8 :: fragment) =
        (path ++ '?'.toUInt8 :: query) ++ '#'.toUInt8 :: fragment := by
      rw [List.append_assoc, List.cons_append]
    have hhash : '#'.toUInt8 ∈ path ++ '?'.toUInt8 :: (query ++ '#'.toUInt8 :: fragment) := by simp
    have hfirst : QueryFirst (path ++ '?'.toUInt8 :: (query ++ '#'.toUInt8 :: fragment)) := by
      rw [QueryFirst, hassoc, takeWhile_before (by simp [hp.hashtag, hq, hsep])]
      simp
    have hfragment : cStr fragment = fragment := cStr_of_nulFree fun hz => h (by simp [hz])
    rw [parse_both hp hq, hfragment]
    exact ⟨hp, hq, by rw [if_pos hfirst, if_pos hhash, List.cons_append], fun hn => absurd hfirst hn,
      fun hn => absurd hhash hn⟩

end PathQueryFragment

namespace Uri

/-- The characters that end an authority. -/
def isDelimiter (c : UInt8) : Bool := c == '/'.toUInt8 || c == '?'.toUInt8 || c == '#'.toUInt8

private def nearest (n : Nat) (position : Option Nat) : Nat := position.elim n (min n)

private theorem foldl_nearest_succ (n : Nat) (positions : List (Option Nat)) :
    (positions.map (Option.map (· + 1))).foldl nearest (n + 1) = positions.foldl nearest n + 1 := by
  induction positions generalizing n with
  | nil => rfl
  | cons position positions ih =>
    have hstep : nearest (n + 1) (position.map (· + 1)) = nearest n position + 1 := by
      cases position with
      | none => rfl
      | some i => exact Nat.add_min_add_right n i 1
    rw [List.map_cons, List.foldl_cons, hstep, ih, List.foldl_cons]

private theorem foldl_nearest_zero {positions : List (Option Nat)} {n : Nat} (h : n = 0 ∨ some 0 ∈ positions) :
    positions.foldl nearest n = 0 := by
  induction positions generalizing n with
  | nil => simpa using h
  | cons position positions ih =>
    rw [List.foldl_cons]
    apply ih
    rcases h with rfl | h
    · cases position <;> simp [nearest]
    · rcases List.mem_cons.mp h with rfl | h
      · simp [nearest]
      · exact .inr h

private theorem endOfHostAndPort_delimiter {c : UInt8} (hc : isDelimiter c) (s : Bytes) :
    endOfHostAndPort (c :: s) = 0 := by
  refine foldl_nearest_zero (.inr ?_)
  simp only [isDelimiter, Bool.or_eq_true, beq_iff_eq] at hc
  rcases hc with (rfl | rfl) | rfl <;> simp [List.idxOf?_cons]

private theorem endOfHostAndPort_cons {c : UInt8} (hc : ¬ isDelimiter c) (s : Bytes) :
    endOfHostAndPort (c :: s) = endOfHostAndPort s + 1 := by
  simp only [isDelimiter, Bool.or_eq_true, beq_iff_eq, not_or] at hc
  refine Eq.trans ?_ (foldl_nearest_succ s.length [s.idxOf? '/'.toUInt8, s.idxOf? '?'.toUInt8, s.idxOf? '#'.toUInt8])
  simp [endOfHostAndPort, nearest, List.idxOf?_cons, hc.1.1, hc.1.2, hc.2]

private theorem endOfHostAndPort_append {authority rest : Bytes} (ha : ∀ c ∈ authority, ¬ isDelimiter c)
    (hr : ∀ c ∈ rest.head?, isDelimiter c) : endOfHostAndPort (authority ++ rest) = authority.length := by
  induction authority with
  | nil =>
    cases rest with
    | nil => rfl
    | cons c rest => exact endOfHostAndPort_delimiter (hr c rfl) rest
  | cons c authority ih =>
    obtain ⟨hc, ha⟩ := List.forall_mem_cons.mp ha
    rw [List.cons_append, endOfHostAndPort_cons hc, ih ha, List.length_cons]

/-- A text cut into its scheme, its authority and what follows from the first delimiter on. -/
structure UriText (s scheme authority rest : Bytes) : Prop where
  scheme_mem : scheme = text "http" ∨ scheme = text "https"
  whole : s = scheme ++ text "://" ++ (authority ++ rest)
  authority_free : ∀ c ∈ authority, ¬ isDelimiter c
  rest_head : ∀ c ∈ rest.head?, isDelimiter c

/-- The text behind the authority as the parser keeps it. -/
def slashed (rest : Bytes) : Bytes := if startsWith rest (text "/") then rest else text "/" ++ rest

section Cut
variable {s scheme authority rest : Bytes}

private theorem parse_scheme (h : scheme = text "http" ∨ scheme = text "https") (after : Bytes) :
    parse (scheme ++ text "://" ++ after) = parseAfterScheme (scheme ++ text "://" ++ after) scheme after := by
  rcases h with rfl | rfl
  · rfl
  · rfl

private theorem exists_uriText_of_scheme (h : scheme = text "http" ∨ scheme = text "https") (after : Bytes) :
    ∃ authority rest, after = authority ++ rest ∧
      UriText (scheme ++ text "://" ++ after) scheme authority rest := by
  refine ⟨after.takeWhile (!isDelimiter ·), after.dropWhile (!isDelimiter ·), ?_, h, ?_, ?_, ?_⟩
  · rw [List.takeWhile_append_dropWhile]
  · rw [List.takeWhile_append_dropWhile]
  · intro c hc
    simpa using List.mem_takeWhile_imp hc
  · intro c hc
    have hhead := List.head?_dropWhile_not (!isDelimiter ·) after
    rw [hc] at hhead
    simpa using hhead

private theorem parseAfterScheme_of_uriText (h : UriText s scheme authority rest) :
    parse s = parseAfterScheme s scheme (authority ++ rest) := by
  rw [h.whole, parse_scheme h.scheme_mem]

theorem parse_of_parseAuthority (h : UriText s scheme authority rest) (hne : authority ++ rest ≠ [])
    {host : Bytes} {port : Int} (hport : parseAuthority scheme authority = .ok (host, port)) :
    parse s = .ok ⟨host, scheme, port, slashed (cStr rest), .parse (slashed (cStr rest))⟩ := by
  rw [parseAfterScheme_of_uriText h, parseAfterScheme, if_neg hne]
  dsimp only
  rw [endOfHostAndPort_append h.authority_free h.rest_head, List.take_left, List.drop_left, hport]
  rfl

/-- What the constructor accepts, it has cut at its delimiters. -/
theorem exists_of_parse {u : Uri} (h : parse s = .ok u) :
    ∃ authority rest, UriText s u.scheme authority rest ∧ authority ++ rest ≠ [] ∧
      parseAuthority u.scheme authority = .ok (u.host, u.port) ∧
      u = ⟨u.host, u.scheme, u.port, slashed (cStr rest), .parse (slashed (cStr rest))⟩ := by
  have hscheme : ∃ scheme after, (scheme = text "http" ∨ scheme = text "https") ∧ s = scheme ++ text "://" ++ after := by
    unfold parse at h
    split at h
    · rename_i hs
      obtain ⟨after, rfl⟩ := List.isPrefixOf_iff_prefix.mp hs
      exact ⟨text "https", after, .inr rfl, rfl⟩
    · split at h
      · rename_i hs
        obtain ⟨after, rfl⟩ := List.isPrefixOf_iff_prefix.mp hs
        exact ⟨text "http", after, .inl rfl, rfl⟩
      · cases h
  obtain ⟨scheme, after, hscheme, rfl⟩ := hscheme
  obtain ⟨authority, rest, rfl, ht⟩ := exists_uriText_of_scheme hscheme after
  have hne : authority ++ rest ≠ [] := by
    intro hnil
    rw [parseAfterScheme_of_uriText ht, parseAfterScheme, if_pos hnil] at h
    cases h
  cases hport : parseAuthority scheme authority with
  | error what =>
    rw [parseAfterScheme_of_uriText ht, parseAfterScheme, if_neg hne] at h
    dsimp only at h
    rw [endOfHostAndPort_append ht.authority_free ht.rest_head, List.take_left, hport] at h
    cases h
  | ok p =>
    obtain ⟨host, port⟩ := p
    rw [parse_of_parseAuthority ht hne hport] at h
    cases h
    exact ⟨authority, rest, ht, hne, hport, rfl⟩

private theorem scheme_unique {scheme' after after' : Bytes} (h : scheme = text "http" ∨ scheme = text "https")
    (h' : scheme' = text "http" ∨ scheme' = text "https")
    (heq : scheme ++ text "://" ++ after = scheme' ++ text "://" ++ after') : scheme = scheme' ∧ after = after' := by
  have hscheme : scheme = scheme' := by
    rcases h with rfl | rfl <;> rcases h' with rfl | rfl
    · rfl
    · have hfifth : some ':'.toUInt8 = some 's'.toUInt8 := congrArg (·[4]?) heq
      exact absurd hfifth (by decide)
    · have hfifth : some 's'.toUInt8 = some ':'.toUInt8 := congrArg (·[4]?) heq
      exact absurd hfifth (by decide)
    · rfl
  subst hscheme
  exact ⟨rfl, List.append_cancel_left heq⟩

private theorem rest_subset (h : UriText s scheme authority rest) {authority' rest' : Bytes}
    (ha : ∀ c ∈ authority', ¬ isDelimiter c) (heq : authority ++ rest = authority' ++ rest') : rest ⊆ rest' := by
  rcases List.append_eq_append_iff.mp heq with ⟨x, rfl, rfl⟩ | ⟨x, rfl, rfl⟩
  · cases x with
    | nil => simp
    | cons c x => exact absurd (h.rest_head c rfl) (ha c (by simp))
  · exact fun c hc => List.mem_append_right x hc

/-- The parts of a parsed URI give back the text it was parsed from. -/
structure Recomposed (s : Bytes) (u : Uri) : Prop where
  scheme : u.scheme = text "http" ∨ u.scheme = text "https"
  parts : ∃ authority rest, s = u.scheme ++ text "://" ++ (authority ++ rest) ∧
    (∀ c ∈ authority, ¬ isDelimiter c) ∧ u.pathQueryFragmentString = slashed rest
  slash : startsWith u.pathQueryFragmentString (text "/")
  split : PathQueryFragment.Splits u.pathQueryFragmentString ⟨u.getPath, u.getQuery, u.getFragment⟩

private theorem startsWith_slashed (rest : Bytes) : startsWith (slashed rest) (text "/") := by
  unfold slashed
  split
  · assumption
  · rfl

private theorem nulFree_slashed : NulFree (slashed rest) ↔ NulFree rest := by
  unfold slashed
  split
  · rfl
  · rw [nulFree_append]
    exact and_iff_right (by decide)

private theorem recomposed_iff {u : Uri} (hu : parse s = .ok u) :
    Recomposed s u ↔ ∀ scheme authority rest, UriText s scheme authority rest → NulFree rest := by
  obtain ⟨hnul, hsplit⟩ := parse_path hu
  obtain ⟨authority, rest, ht, -, -, hu⟩ := exists_of_parse hu
  have hstring : u.pathQueryFragmentString = slashed (cStr rest) := by rw [hu]
  constructor
  · intro h scheme' authority' rest' ht'
    obtain ⟨front, back, hwhole, hfront, hback⟩ := h.parts
    obtain ⟨-, heq⟩ := scheme_unique ht'.scheme_mem h.scheme (ht'.whole.symm.trans hwhole)
    rw [hback, nulFree_slashed] at hnul
    exact fun hz => hnul (rest_subset ht' hfront heq hz)
  · intro h
    have hrest : cStr rest = rest := cStr_of_nulFree (h _ _ _ ht)
    refine ⟨ht.scheme_mem, ⟨authority, rest, ht.whole, ht.authority_free, by rw [hstring, hrest]⟩, ?_, ?_⟩
    · rw [hstring]
      exact startsWith_slashed _
    · have := PathQueryFragment.parse_splits hnul
      rwa [← hsplit] at this

/-- Nothing of a text is lost in the split, and nothing of an accepted URI exactly when no NUL stands behind
its authority. -/
theorem splits_and_recomposed_iff (s : Bytes) :
    (NulFree s → PathQueryFragment.Splits s (.parse s)) ∧
      ∀ u, parse s = .ok u →
        (Recomposed s u ↔ ∀ scheme authority rest, UriText s scheme authority rest → NulFree rest) :=
  ⟨PathQueryFragment.parse_splits, fun _ hu => recomposed_iff hu⟩

theorem recomposed_query :
    ∃ u, parse (text "https://idp:8080?login#top") = .ok u ∧ Recomposed (text "https://idp:8080?login#top") u := by
  have hu : parse (text "https://idp:8080?login#top") =
      .ok ⟨text "idp", text "https", 8080, text "/?login#top", ⟨text "/", text "login", text "top"⟩⟩ := by
    decide
  refine ⟨_, hu, ((splits_and_recomposed_iff _).2 _ hu).mpr ?_⟩
  intro scheme authority rest ht hz
  have hfree : NulFree (text "https://idp:8080?login#top") := by decide
  rw [ht.whole] at hfree
  exact hfree (by simp [hz])

/-- A NUL in the path of an endpoint: the rest of the path is dropped. -/
theorem recomposed_nul :
    ¬ ∀ s : Bytes, (NulFree s → PathQueryFragment.Splits s (.parse s)) ∧ ∀ u, parse s = .ok u → Recomposed s u := by
  intro h
  have hu : parse (text "http://idp/a" ++ 0 :: text "b") =
      .ok ⟨text "idp", text "http", 80, text "/a", ⟨text "/a", [], []⟩⟩ := by
    decide
  have ht : UriText (text "http://idp/a" ++ 0 :: text "b") (text "http") (text "idp") (text "/a" ++ 0 :: text "b") :=
    ⟨.inl rfl, by decide, by decide +kernel, by decide +kernel⟩
  exact (recomposed_iff hu).mp ((h _).2 _ hu) _ _ _ ht (by decide)

end Cut

section Grammar
variable {s scheme host : Bytes} {port : Int}

/-- The URIs the parser is meant to accept, with their scheme, host and port. -/
inductive Grammar (s scheme host : Bytes) : Int → Prop
  | bare {rest : Bytes} : UriText s scheme host rest → host ≠ [] → ':'.toUInt8 ∉ host →
      Grammar s scheme host (if scheme = text "http" then 80 else 443)
  | port {digits rest : Bytes} : UriText s scheme (host ++ ':'.toUInt8 :: digits) rest → host ≠ [] →
      ':'.toUInt8 ∉ host → digits ≠ [] → (∀ c ∈ digits, isDigit c) → digitsValue digits ≤ 65535 →
      Grammar s scheme host (digitsValue digits)

/-- The parser accepts a text exactly when it is in the grammar, and reads its parts off it. -/
structure MeetsGrammar (s : Bytes) : Prop where
  accepts : (∃ u, parse s = .ok u) ↔ ∃ scheme host port, Grammar s scheme host port
  parts : ∀ u, parse s = .ok u → Grammar s u.scheme u.host u.port

/-- Texts outside the grammar that are accepted all the same: no host before a delimiter, or a port with white
space or a sign in front of its digits or other text behind them. -/
inductive Lenient (s : Bytes) : Prop
  | noHost {scheme rest : Bytes} : UriText s scheme [] rest → rest ≠ [] → Lenient s
  | port {scheme host rest : Bytes} (n : Numeral) : UriText s scheme (host ++ ':'.toUInt8 :: n.written) rest →
      host ≠ [] → ':'.toUInt8 ∉ host → 0 ≤ n.value → n.value ≤ 65535 → n.written ≠ n.digits → Lenient s

private theorem parseAuthority_bare (h : ':'.toUInt8 ∉ host) :
    parseAuthority scheme host = .ok (host, if scheme = text "http" then 80 else 443) := by
  rw [parseAuthority, List.idxOf?_eq_none_iff.mpr h]

private theorem parseAuthority_port {written : Bytes} (hne : host ≠ []) (hcolon : ':'.toUInt8 ∉ host) :
    parseAuthority scheme (host ++ ':'.toUInt8 :: written) = .ok (host, port) ↔
      stoi written = some port ∧ 0 ≤ port ∧ port ≤ 65535 := by
  obtain ⟨n, hn⟩ : ∃ n, host.length = n + 1 := Nat.exists_eq_succ_of_ne_zero (by simpa using hne)
  have hposition : (host ++ ':'.toUInt8 :: written).idxOf? ':'.toUInt8 = some (n + 1) := by
    rw [idxOf?_append_cons hcolon, hn]
  rw [parseAuthority, hposition]
  simp only
  rw [← hn, drop_append_cons, List.take_left]
  cases hz : stoi written with
  | none => simp
  | some z =>
    dsimp only
    split
    · rename_i hrange
      simp only [reduceCtorEq, Option.some.injEq, false_iff]
      omega
    · rename_i hrange
      simp only [Except.ok.injEq, Prod.mk.injEq, true_and, Option.some.injEq]
      omega

private theorem parseAuthority_colon {written : Bytes} {p : Bytes × Int} (hcolon : ':'.toUInt8 ∉ host)
    (h : parseAuthority scheme (host ++ ':'.toUInt8 :: written) = .ok p) : host ≠ [] ∧ p.1 = host := by
  rw [parseAuthority, idxOf?_append_cons hcolon] at h
  cases hlength : host.length with
  | zero =>
    rw [hlength] at h
    cases h
  | succ n =>
    rw [hlength] at h
    simp only at h
    rw [← hlength, List.take_left] at h
    split at h
    · cases h
    · split at h
      · cases h
      · cases h
        exact ⟨fun hnil => by simp [hnil] at hlength, rfl⟩

private theorem grammar_or_lenient {u : Uri} (h : parse s = .ok u) : Grammar s u.scheme u.host u.port ∨ Lenient s := by
  obtain ⟨authority, rest, ht, hne, hauthority, -⟩ := exists_of_parse h
  by_cases hcolon : ':'.toUInt8 ∈ authority
  · obtain ⟨host, written, rfl, hhost⟩ := List.eq_append_cons_of_mem hcolon
    obtain ⟨hfull, hu⟩ := parseAuthority_colon hhost hauthority
    have hu : u.host = host := hu
    rw [hu] at hauthority ⊢
    obtain ⟨hstoi, hlow, hhigh⟩ := (parseAuthority_port hfull hhost).mp hauthority
    obtain ⟨n, rfl, hvalue⟩ := Numeral.exists_of_stoi hstoi
    rw [hvalue] at hlow hhigh ⊢
    by_cases hplain : n.written = n.digits
    · have hvalue := n.value_of_plain hplain
      rw [hvalue] at hhigh ⊢
      rw [hplain] at ht
      exact .inl (.port ht hfull hhost n.digits_ne n.digits_isDigit (by omega))
    · exact .inr (.port n ht hfull hhost hlow hhigh hplain)
  · rw [parseAuthority_bare hcolon] at hauthority
    obtain ⟨rfl, hport⟩ := Prod.mk.inj (Except.ok.inj hauthority)
    by_cases hfull : u.host = []
    · rw [hfull, List.nil_append] at hne
      rw [hfull] at ht
      exact .inr (.noHost ht hne)
    · rw [← hport]
      exact .inl (.bare ht hfull hcolon)

private theorem uriText_unique {scheme' authority authority' rest rest' : Bytes}
    (h : UriText s scheme authority rest) (h' : UriText s scheme' authority' rest') : authority = authority' := by
  obtain ⟨-, heq⟩ := scheme_unique h.scheme_mem h'.scheme_mem (h.whole.symm.trans h'.whole)
  have hlength := congrArg endOfHostAndPort heq
  rw [endOfHostAndPort_append h.authority_free h.rest_head,
    endOfHostAndPort_append h'.authority_free h'.rest_head] at hlength
  exact (List.append_inj heq hlength).1

private theorem parse_of_grammar (h : Grammar s scheme host port) : ∃ u, parse s = .ok u := by
  cases h with
  | bare ht hne hcolon => exact ⟨_, parse_of_parseAuthority ht (by simp [hne]) (parseAuthority_bare hcolon)⟩
  | @port digits rest ht hne hcolon hfull hdigits hvalue =>
    have hstoi : stoi digits = some (digitsValue digits : Int) := stoi_digits hfull hdigits (by omega)
    exact ⟨_, parse_of_parseAuthority ht (by simp)
      ((parseAuthority_port hne hcolon).mpr ⟨hstoi, by omega, by omega⟩)⟩

private theorem host_ne_of_grammar (h : Grammar s scheme host port) : host ≠ [] := by
  cases h with
  | bare _ hne _ => exact hne
  | port _ hne _ _ _ _ => exact hne

private theorem parse_of_lenient (h : Lenient s) :
    ∃ u, parse s = .ok u ∧ ¬ Grammar s u.scheme u.host u.port := by
  cases h with
  | noHost ht hrest =>
    refine ⟨_, parse_of_parseAuthority ht (by simpa using hrest) (parseAuthority_bare (by simp)), ?_⟩
    exact fun hg => host_ne_of_grammar hg rfl
  | @port scheme host rest n ht hne hcolon hlow hhigh hother =>
    have hstoi : stoi n.written = some n.value := by
      rw [n.stoi_written, if_pos (by omega)]
    refine ⟨_, parse_of_parseAuthority ht (by simp)
      ((parseAuthority_port hne hcolon).mpr ⟨hstoi, hlow, hhigh⟩), ?_⟩
    intro hg
    dsimp only at hg
    generalize n.value = z at hg
    cases hg with
    | bare ht' _ hcolon' =>
      rw [← uriText_unique ht ht'] at hcolon'
      simp at hcolon'
    | port ht' _ _ _ hdigits _ =>
      have hwritten := (List.append_cancel_left (uriText_unique ht ht'))
      rw [← (List.cons.inj hwritten).2] at hdigits
      exact hother (n.written_of_isDigit hdigits)

private theorem not_meetsGrammar (h : Lenient s) : ¬ MeetsGrammar s := by
  intro hm
  obtain ⟨u, hu, hnot⟩ := parse_of_lenient h
  exact hnot (hm.parts u hu)

/-- The parser keeps to its grammar on every text that is not of one of the lenient kinds. -/
theorem meetsGrammar_iff (s : Bytes) : MeetsGrammar s ↔ ¬ Lenient s := by
  constructor
  · exact fun hm hl => not_meetsGrammar hl hm
  · intro hl
    have hparts : ∀ u, parse s = .ok u → Grammar s u.scheme u.host u.port :=
      fun u hu => (grammar_or_lenient hu).resolve_right hl
    refine ⟨⟨?_, ?_⟩, hparts⟩
    · rintro ⟨u, hu⟩
      exact ⟨_, _, _, hparts u hu⟩
    · rintro ⟨scheme, host, port, hg⟩
      exact parse_of_grammar hg

/-- A port with a letter behind its digits, and a missing host. -/
theorem lenient_accepted :
    ¬ MeetsGrammar (text "https://host:8a/path") ∧ ¬ MeetsGrammar (text "https:///path") := by
  let n : Numeral := ⟨[], [], text "8", text "a", by simp, by simp, by decide, by decide +kernel, by decide +kernel⟩
  have hport : UriText (text "https://host:8a/path") (text "https") (text "host" ++ ':'.toUInt8 :: n.written)
      (text "/path") := ⟨.inr rfl, by decide, by decide +kernel, by decide +kernel⟩
  have hhost : UriText (text "https:///path") (text "https") [] (text "/path") :=
    ⟨.inr rfl, by decide, by decide +kernel, by decide +kernel⟩
  constructor
  · exact not_meetsGrammar (.port n hport (by decide) (by decide) (by decide) (by decide) (by decide))
  · exact not_meetsGrammar (.noHost hhost (by decide))

end Grammar
end Uri
end AuthService.Common.Http
