import AuthService.Common.Bytes

/-! The path splitter and the URI parser of `http.cc`. -/
namespace AuthService.Common.Http

theorem idxOf?_append_cons {c : UInt8} {front back : Bytes} (h : c ∉ front) :
    (front ++ c :: back).idxOf? c = some front.length := by
  rw [List.idxOf?_eq_some_iff]
  refine ⟨by simp, by simp, fun j hj he => h ?_⟩
  rw [List.getElem_append_left hj] at he
  exact he ▸ List.getElem_mem hj

theorem drop_append_cons (c : UInt8) (front back : Bytes) :
    (front ++ c :: back).drop (front.length + 1) = back := by
  rw [List.drop_append, List.drop_eq_nil_of_le (by omega), Nat.add_sub_cancel_left]
  rfl

structure PathQueryFragment where
  path : Bytes
  query : Bytes
  fragment : Bytes
  deriving DecidableEq, Repr

namespace PathQueryFragment

/-- The four cases of the constructor, on the positions of the first `?` and the first `#`. -/
def parse (s : Bytes) : PathQueryFragment :=
  match s.idxOf? '?'.toUInt8, s.idxOf? '#'.toUInt8 with
  | none, none => ⟨cStr s, [], []⟩
  | none, some hashtag => ⟨s.take hashtag, [], cStr (s.drop (hashtag + 1))⟩
  | some question, none => ⟨s.take question, cStr (s.drop (question + 1)), []⟩
  | some question, some hashtag =>
    if question < hashtag then
      ⟨s.take question, (s.drop (question + 1)).take (hashtag - question - 1), cStr (s.drop (hashtag + 1))⟩
    else ⟨s.take hashtag, [], cStr (s.drop (hashtag + 1))⟩

/-- A text before any query and fragment. -/
structure Plain (path : Bytes) : Prop where
  question : '?'.toUInt8 ∉ path
  hashtag : '#'.toUInt8 ∉ path

section Shapes
variable {path query fragment : Bytes}

theorem parse_plain (h : Plain path) : parse path = ⟨cStr path, [], []⟩ := by
  unfold parse
  rw [List.idxOf?_eq_none_iff.mpr h.question, List.idxOf?_eq_none_iff.mpr h.hashtag]

theorem parse_query (h : Plain path) (hq : '#'.toUInt8 ∉ query) :
    parse (path ++ '?'.toUInt8 :: query) = ⟨path, cStr query, []⟩ := by
  have hsep : '#'.toUInt8 ≠ '?'.toUInt8 := by decide
  have hhash : (path ++ '?'.toUInt8 :: query).idxOf? '#'.toUInt8 = none := by
    rw [List.idxOf?_eq_none_iff]
    simp [h.hashtag, hq, hsep]
  unfold parse
  rw [idxOf?_append_cons h.question, hhash]
  dsimp only
  rw [List.take_left, drop_append_cons]

/-- A question mark behind the first hash belongs to the fragment. -/
theorem parse_fragment (h : Plain path) :
    parse (path ++ '#'.toUInt8 :: fragment) = ⟨path, [], cStr fragment⟩ := by
  unfold parse
  rw [idxOf?_append_cons h.hashtag]
  cases hq : (path ++ '#'.toUInt8 :: fragment).idxOf? '?'.toUInt8 with
  | none =>
    dsimp only
    rw [List.take_left, drop_append_cons]
  | some question =>
    have hbehind : ¬ question < path.length := by
      intro hlt
      obtain ⟨_, he, -⟩ := List.idxOf?_eq_some_iff.mp hq
      rw [List.getElem_append_left hlt] at he
      exact h.question (he ▸ List.getElem_mem hlt)
    dsimp only
    rw [if_neg hbehind, List.take_left, drop_append_cons]

theorem parse_both (h : Plain path) (hq : '#'.toUInt8 ∉ query) :
    parse (path ++ '?'.toUInt8 :: (query ++ '#'.toUInt8 :: fragment)) = ⟨path, query, cStr fragment⟩ := by
  have hsep : '#'.toUInt8 ≠ '?'.toUInt8 := by decide
  have hassoc : path ++ '?'.toUInt8 :: (query ++ '#'.toUInt8 :: fragment) =
      (path ++ '?'.toUInt8 :: query) ++ '#'.toUInt8 :: fragment := by
    rw [List.append_assoc, List.cons_append]
  have hhash : (path ++ '?'.toUInt8 :: (query ++ '#'.toUInt8 :: fragment)).idxOf? '#'.toUInt8 =
      some (path ++ '?'.toUInt8 :: query).length := by
    rw [hassoc]
    exact idxOf?_append_cons (by simp [h.hashtag, hq, hsep])
  have hlength : (path ++ '?'.toUInt8 :: query).length - path.length - 1 = query.length := by
    rw [List.length_append, List.length_cons]
    omega
  unfold parse
  rw [idxOf?_append_cons h.question, hhash]
  dsimp only
  rw [if_pos (by simp), List.take_left, drop_append_cons, hlength, List.take_left, hassoc, drop_append_cons]

/-- The arrangements of the first `?` and the first `#`. -/
inductive Arranged : Bytes → Prop
  | plain {path : Bytes} : Plain path → Arranged path
  | query {path query : Bytes} : Plain path → '#'.toUInt8 ∉ query → Arranged (path ++ '?'.toUInt8 :: query)
  | fragment {path fragment : Bytes} : Plain path → Arranged (path ++ '#'.toUInt8 :: fragment)
  | both {path query fragment : Bytes} : Plain path → '#'.toUInt8 ∉ query →
      Arranged (path ++ '?'.toUInt8 :: (query ++ '#'.toUInt8 :: fragment))

private theorem arranged_of_front {s : Bytes} (hs : '#'.toUInt8 ∉ s) :
    Plain s ∨ ∃ path query, s = path ++ '?'.toUInt8 :: query ∧ Plain path ∧ '#'.toUInt8 ∉ query := by
  by_cases hq : '?'.toUInt8 ∈ s
  · obtain ⟨path, query, rfl, hpath⟩ := List.eq_append_cons_of_mem hq
    exact .inr ⟨path, query, rfl, ⟨hpath, fun h => hs (by simp [h])⟩, fun h => hs (by simp [h])⟩
  · exact .inl ⟨hq, hs⟩

theorem arranged (s : Bytes) : Arranged s := by
  by_cases hh : '#'.toUInt8 ∈ s
  · obtain ⟨front, fragment, rfl, hfront⟩ := List.eq_append_cons_of_mem hh
    rcases arranged_of_front hfront with hp | ⟨path, query, rfl, hp, hq⟩
    · exact .fragment hp
    · rw [List.append_assoc, List.cons_append]
      exact .both hp hq
  · rcases arranged_of_front hh with hp | ⟨path, query, rfl, hp, hq⟩
    · exact .plain hp
    · exact .query hp hq

end Shapes

/-- A path ends before the first `?` and the first `#`. -/
theorem path_parse (s : Bytes) : '?'.toUInt8 ∉ (parse s).path ∧ '#'.toUInt8 ∉ (parse s).path := by
  cases arranged s with
  | plain hp =>
    rw [parse_plain hp]
    exact ⟨fun h => hp.question ((List.takeWhile_sublist _).subset h),
      fun h => hp.hashtag ((List.takeWhile_sublist _).subset h)⟩
  | query hp hq =>
    rw [parse_query hp hq]
    exact ⟨hp.question, hp.hashtag⟩
  | fragment hp =>
    rw [parse_fragment hp]
    exact ⟨hp.question, hp.hashtag⟩
  | both hp hq =>
    rw [parse_both hp hq]
    exact ⟨hp.question, hp.hashtag⟩

variable {s : Bytes}

theorem parse_of_notMem (hq : '?'.toUInt8 ∉ s) (hh : '#'.toUInt8 ∉ s) : parse s = ⟨cStr s, [], []⟩ :=
  parse_plain ⟨hq, hh⟩

/-- What follows a path after a question mark is not part of it. -/
theorem path_parse_append (hq : '?'.toUInt8 ∉ s) (hh : '#'.toUInt8 ∉ s) (query : Bytes) :
    (parse (s ++ '?'.toUInt8 :: query)).path = s := by
  by_cases hf : '#'.toUInt8 ∈ query
  · obtain ⟨query, fragment, rfl, hquery⟩ := List.eq_append_cons_of_mem hf
    rw [parse_both ⟨hq, hh⟩ hquery]
  · rw [parse_query ⟨hq, hh⟩ hf]

def hasQuery (p : PathQueryFragment) : Bool := !p.query.isEmpty

def hasFragment (p : PathQueryFragment) : Bool := !p.fragment.isEmpty

end PathQueryFragment

structure Uri where
  host : Bytes
  scheme : Bytes
  port : Int
  pathQueryFragmentString : Bytes
  pathQueryFragment : PathQueryFragment
  deriving DecidableEq, Repr

namespace Uri

def httpsPrefix : Bytes := text "https://"

def httpPrefix : Bytes := text "http://"

/-- Where the authority ends: at the first of `/`, `?` and `#`. -/
def endOfHostAndPort (s : Bytes) : Nat :=
  [s.idxOf? '/'.toUInt8, s.idxOf? '?'.toUInt8, s.idxOf? '#'.toUInt8].foldl
    (fun n position => position.elim n (min n)) s.length

/-- Host and port of an authority; the error text is completed by the URI. -/
def parseAuthority (scheme hostAndPort : Bytes) : Except Bytes (Bytes × Int) :=
  match hostAndPort.idxOf? ':'.toUInt8 with
  | some 0 => .error (text "no host in uri: ")
  | some colon =>
    match stoi (hostAndPort.drop (colon + 1)) with
    | none => .error (text "port not valid in uri: ")
    | some port =>
      if port > 65535 ∨ port < 0 then .error (text "port value must be between 0 and 65535: ")
      else .ok (hostAndPort.take colon, port)
  | none => .ok (hostAndPort, if scheme = text "http" then 80 else 443)

def parseAfterScheme (uri scheme rest : Bytes) : Except Bytes Uri :=
  if rest = [] then .error (text "no host in uri: " ++ uri)
  else
    let position := endOfHostAndPort rest
    let tail := cStr (rest.drop position)
    let pathQueryFragmentString := if startsWith tail (text "/") then tail else text "/" ++ tail
    match parseAuthority scheme (rest.take position) with
    | .error what => .error (what ++ uri)
    | .ok (host, port) =>
      .ok ⟨host, scheme, port, pathQueryFragmentString, .parse pathQueryFragmentString⟩

/-- The constructor; an error carries the text of the thrown `runtime_error`. -/
def parse (uri : Bytes) : Except Bytes Uri :=
  if startsWith uri httpsPrefix then parseAfterScheme uri (text "https") (uri.drop httpsPrefix.length)
  else if startsWith uri httpPrefix then parseAfterScheme uri (text "http") (uri.drop httpPrefix.length)
  else .error (text "uri must be http or https scheme: " ++ uri)

/-- The path of a parsed URI is that of the text kept for the matcher, which has no NUL. -/
theorem parse_path {uri : Bytes} {u : Uri} (h : parse uri = .ok u) :
    NulFree u.pathQueryFragmentString ∧ u.pathQueryFragment = .parse u.pathQueryFragmentString := by
  have hafter (scheme rest : Bytes) (h : parseAfterScheme uri scheme rest = .ok u) :
      NulFree u.pathQueryFragmentString ∧ u.pathQueryFragment = .parse u.pathQueryFragmentString := by
    unfold parseAfterScheme at h
    split at h
    · cases h
    · dsimp only at h
      split at h
      · cases h
      · cases h
        refine ⟨?_, rfl⟩
        dsimp only
        split
        · exact nulFree_cStr _
        · exact nulFree_append.mpr ⟨by decide, nulFree_cStr _⟩
  unfold parse at h
  split at h
  · exact hafter _ _ h
  · split at h
    · exact hafter _ _ h
    · cases h

def getPath (u : Uri) : Bytes := u.pathQueryFragment.path

def getQuery (u : Uri) : Bytes := u.pathQueryFragment.query

def getFragment (u : Uri) : Bytes := u.pathQueryFragment.fragment

def hasQuery (u : Uri) : Bool := u.pathQueryFragment.hasQuery

def hasFragment (u : Uri) : Bool := u.pathQueryFragment.hasFragment

end Uri
end AuthService.Common.Http
