import Webroar.Head.Forgery

/-! # Absolute request URIs

For an absolute URI libebb reports neither a path nor a query string, and the head looks for them
itself: the query string behind the first question mark, the path from the first slash behind
`://` on, and the host between the two. It does not look whether the slash comes before the question
mark, and without a slash it takes the query string for a part of the host.
-/

namespace Request

open Scgi (Entry latest)

/-! ### Searching -/

/-- A byte that is not there before is found where it is. -/
theorem strstr_singleton {text rest : List UInt8} {byte : UInt8} (absent : byte ∉ text) :
    strstr (text ++ byte :: rest) [byte] = some text.length := by
  induction text with
  | nil => simp [strstr, List.isPrefixOf]
  | cons first text ih =>
      obtain ⟨other, later⟩ := not_or.mp (fun member => absent (List.mem_cons.mpr member))
      rw [List.cons_append, strstr]
      simp [List.isPrefixOf, other, ih later]

/-- A byte that is not there is not found. -/
theorem strstr_singleton_none {text : List UInt8} {byte : UInt8} (absent : byte ∉ text) :
    strstr text [byte] = none := by
  induction text with
  | nil => rfl
  | cons first text ih =>
      obtain ⟨other, later⟩ := not_or.mp (fun member => absent (List.mem_cons.mpr member))
      rw [strstr]
      simp [List.isPrefixOf, other, ih later]

/-- A text whose first byte is not there before is found where it is. -/
theorem strstr_of_not_mem {text needle rest : List UInt8} {byte : UInt8} (absent : byte ∉ text) :
    strstr (text ++ (byte :: needle ++ rest)) (byte :: needle) = some text.length := by
  induction text with
  | nil => simp [strstr]
  | cons first text ih =>
      obtain ⟨other, later⟩ := not_or.mp (fun member => absent (List.mem_cons.mpr member))
      rw [List.cons_append, strstr, ih later]
      simp [List.isPrefixOf, other]

/-! ### The parts of a URI -/

/-- An absolute URI by its parts. -/
structure AbsoluteUri where
  scheme : List UInt8
  authority : List UInt8
  /-- The path with its slash. -/
  path : Option (List UInt8)
  /-- The query string without its question mark. -/
  query : Option (List UInt8)
  /-- A scheme has neither a colon nor a question mark. -/
  schemeEnds : (58 : UInt8) ∉ scheme ∧ (63 : UInt8) ∉ scheme
  /-- An authority has neither a slash nor a question mark. -/
  authorityEnds : (47 : UInt8) ∉ authority ∧ (63 : UInt8) ∉ authority
  pathStarts : ∀ text ∈ path, ∃ rest, text = 47 :: rest ∧ (63 : UInt8) ∉ rest

namespace AbsoluteUri

/-- A query string behind its question mark. -/
def asked (uri : AbsoluteUri) : List UInt8 := (uri.query.map fun query => 63 :: query).getD []

/-- The path and the query string. -/
def pathAndQuery (uri : AbsoluteUri) : List UInt8 := uri.path.getD [] ++ uri.asked

def text (uri : AbsoluteUri) : List UInt8 :=
  uri.scheme ++ (58 :: [47, 47] ++ (uri.authority ++ uri.pathAndQuery))

/-- The headers that say what is requested. -/
def headers (uri : AbsoluteUri) : List Entry :=
  (reqUriName, uri.pathAndQuery) :: ((uri.path.map fun path => (reqPathName, path)).toList ++
    (uri.query.map fun query => (queryStrName, query)).toList)

end AbsoluteUri

/-- A request whose URI is taken apart rightly: the host is the authority, the headers say what is
requested, and the lengths are those of the parts. -/
structure Decomposed (req : Request) (uri : AbsoluteUri) : Prop where
  accepted : req.pathSet.rejected = none
  host : req.pathSet.scgi.headerValueGet hostName = some uri.authority
  headers : req.pathSet.line.headers = some (uri.headers ++
    (req.line.fragment.map fun fragment => (fragmentName, fragment.1)).toList)
  path : req.pathSet.line.path.len = (uri.path.getD []).length
  query : req.pathSet.line.query.len = (uri.query.getD []).length

/-- A query string and a path that are too long are refused, and all else is taken apart rightly. -/
structure PathSetRightly (req : Request) (uri : AbsoluteUri) : Prop where
  longQuery : Config.maxQuerySize < (uri.query.getD []).length →
    req.pathSet.rejected = some (413, ascii "The request query string is too large.")
  longPath : (uri.query.getD []).length ≤ Config.maxQuerySize →
    Config.maxPathSize < (uri.path.getD []).length →
    req.pathSet.rejected = some (413, ascii "The request path is too large.")
  short : (uri.query.getD []).length ≤ Config.maxQuerySize →
    (uri.path.getD []).length ≤ Config.maxPathSize → Decomposed req uri

variable {uri : AbsoluteUri} {line : Line}

/-- The line of a request with an absolute URI. -/
structure Line.Absolute (line : Line) (uri : AbsoluteUri) : Prop where
  text : line.uri.1 = uri.text
  uriLen : line.uriLen = uri.text.length
  path : line.path = ⟨none, 0⟩
  query : line.query = ⟨none, 0⟩

namespace AbsoluteUri

/-- Where the authority starts. -/
def ptr (uri : AbsoluteUri) : Nat := uri.scheme.length + 3

theorem strstr_scheme (uri : AbsoluteUri) :
    strstr uri.text (ascii "://") = some uri.scheme.length :=
  strstr_of_not_mem uri.schemeEnds.1

theorem drop_ptr (uri : AbsoluteUri) :
    uri.text.drop uri.ptr = uri.authority ++ uri.pathAndQuery := by
  rw [text, ← List.append_assoc]
  exact List.drop_left' (by simp [ptr])

/-- The text before the query string. -/
def front (uri : AbsoluteUri) : List UInt8 :=
  uri.scheme ++ (58 :: [47, 47] ++ (uri.authority ++ uri.path.getD []))

theorem text_eq (uri : AbsoluteUri) : uri.text = uri.front ++ uri.asked := by
  simp [text, front, pathAndQuery]

theorem length_front (uri : AbsoluteUri) :
    uri.front.length = uri.ptr + uri.authority.length + (uri.path.getD []).length := by
  simp only [front, ptr, List.length_append, List.length_cons, List.length_nil]
  omega

theorem not_mem_path (uri : AbsoluteUri) : (63 : UInt8) ∉ uri.path.getD [] := by
  cases given : uri.path with
  | none => exact List.not_mem_nil
  | some text =>
      obtain ⟨rest, rfl, plain⟩ := uri.pathStarts text given
      rw [Option.getD_some]
      simp [plain]

theorem not_mem_front (uri : AbsoluteUri) : (63 : UInt8) ∉ uri.front := by
  simp [front, uri.schemeEnds.2, uri.authorityEnds.2, uri.not_mem_path]

/-- Where the query string is found. -/
theorem strstr_query (uri : AbsoluteUri) :
    strstr uri.text (ascii "?") = uri.query.map fun _ => uri.front.length := by
  have mark : ascii "?" = [63] := rfl
  rw [text_eq, asked, mark]
  cases uri.query with
  | none =>
      rw [Option.map_none, Option.getD_none, List.append_nil]
      exact strstr_singleton_none uri.not_mem_front
  | some query =>
      rw [Option.map_some, Option.getD_some]
      exact strstr_singleton uri.not_mem_front

/-- Where the path is found when there is one. -/
theorem strstr_path (uri : AbsoluteUri) {path : List UInt8} (given : uri.path = some path) :
    strstr (uri.authority ++ uri.pathAndQuery) (ascii "/") = some uri.authority.length := by
  obtain ⟨rest, rfl, -⟩ := uri.pathStarts path given
  rw [pathAndQuery, given, Option.getD_some, List.cons_append]
  exact strstr_singleton uri.authorityEnds.1

end AbsoluteUri

/-! ### Taking a URI apart -/

/-- The query string that is found. -/
def AbsoluteUri.querySpan (uri : AbsoluteUri) : Span :=
  ⟨uri.query.map fun _ => uri.front.length + 1, (uri.query.getD []).length⟩

/-- The search for the query string finds the one of the URI. -/
theorem Line.Absolute.absolute_eq (absolute : line.Absolute uri) :
    line.absolute =
      if Config.maxQuerySize < (uri.query.getD []).length then
        .error (413, ascii "The request query string is too large.")
      else
        let line := { line with query := uri.querySpan }
        match strstr (uri.authority ++ uri.pathAndQuery) (ascii "/") with
        | some offset =>
            let len :=
              match uri.query with
              | some _ => Decimal.sizeSub (uri.front.length + 1) (uri.ptr + offset + 1)
              | none => uri.text.length - (uri.ptr + offset)
            if Config.maxPathSize < len then
              .error (413, ascii "The request path is too large.")
            else
              .ok ({ line with path := ⟨some (uri.ptr + offset), len⟩ }.shorten,
                some ((uri.authority ++ uri.pathAndQuery).take offset))
        | none => .ok (line.shorten, some (uri.authority ++ uri.pathAndQuery)) := by
  have start : uri.scheme.length + 3 = uri.ptr := rfl
  unfold Line.absolute AbsoluteUri.querySpan
  cases given : uri.query with
  | none =>
      simp only [absolute.text, uri.strstr_query, given, Option.map_none, absolute.query,
        uri.strstr_scheme, start, uri.drop_ptr, absolute.uriLen, Option.getD_none,
        List.length_nil]
      all_goals rfl
  | some query =>
      have counted : uri.text.length - (uri.front.length + 1) = query.length := by
        rw [uri.text_eq, AbsoluteUri.asked, given, List.length_append, Option.map_some,
          Option.getD_some, List.length_cons]
        omega
      simp only [absolute.text, uri.strstr_query, given, Option.map_some, uri.strstr_scheme, start,
        uri.drop_ptr, absolute.uriLen, Option.getD_some, counted]
      all_goals rfl

/-- The path of a URI that has one is found. -/
theorem Line.Absolute.withPath (absolute : line.Absolute uri) {path : List UInt8}
    (given : uri.path = some path) (short : (uri.query.getD []).length ≤ Config.maxQuerySize)
    (sized : uri.text.length < 2 ^ 64) :
    line.absolute =
      if Config.maxPathSize < path.length then
        .error (413, ascii "The request path is too large.")
      else
        .ok ({ line with
          query := uri.querySpan
          path := ⟨some (uri.ptr + uri.authority.length), path.length⟩ }.shorten,
          some uri.authority) := by
  have front := uri.length_front
  rw [given, Option.getD_some] at front
  have whole := congrArg List.length uri.text_eq
  rw [List.length_append] at whole
  have length : (match uri.query with
      | some _ => Decimal.sizeSub (uri.front.length + 1) (uri.ptr + uri.authority.length + 1)
      | none => uri.text.length - (uri.ptr + uri.authority.length)) = path.length := by
    rw [AbsoluteUri.asked] at whole
    cases asked : uri.query with
    | none =>
        rw [asked, Option.map_none, Option.getD_none, List.length_nil] at whole
        dsimp only
        omega
    | some query =>
        rw [asked, Option.map_some, Option.getD_some, List.length_cons] at whole
        dsimp only
        rw [Decimal.sizeSub_of_le (by omega) (by omega)]
        omega
  rw [absolute.absolute_eq, if_neg (Nat.not_lt_of_le short), uri.strstr_path given]
  dsimp only
  rw [length, List.take_left]

/-- Nothing is found in a URI that has neither a path nor a query string. -/
theorem Line.Absolute.bare (absolute : line.Absolute uri) (noPath : uri.path = none)
    (noQuery : uri.query = none) :
    line.absolute = .ok ({ line with query := ⟨none, 0⟩ }.shorten, some uri.authority) := by
  have behind : uri.pathAndQuery = [] := by
    rw [AbsoluteUri.pathAndQuery, AbsoluteUri.asked, noPath, noQuery]
    rfl
  have slash : ascii "/" = [47] := rfl
  rw [absolute.absolute_eq, behind, List.append_nil, slash,
    strstr_singleton_none uri.authorityEnds.1, AbsoluteUri.querySpan, noQuery]
  rfl

/-- Without a path the query string is taken for a part of the host, or a slash in it for the start
of a path whose length is below zero. -/
theorem Line.Absolute.withoutPath (absolute : line.Absolute uri) {query : List UInt8}
    (noPath : uri.path = none) (given : uri.query = some query)
    (short : (uri.query.getD []).length ≤ Config.maxQuerySize) (sized : uri.text.length < 2 ^ 63) :
    line.absolute = .error (413, ascii "The request path is too large.") ∨
      ∃ after, line.absolute = .ok (after, some (uri.authority ++ 63 :: query)) := by
  have behind : uri.pathAndQuery = 63 :: query := by
    rw [AbsoluteUri.pathAndQuery, AbsoluteUri.asked, noPath, given]
    rfl
  have front := uri.length_front
  rw [noPath, Option.getD_none, List.length_nil] at front
  have whole := congrArg List.length uri.text_eq
  rw [List.length_append, AbsoluteUri.asked, given, Option.map_some, Option.getD_some,
    List.length_cons] at whole
  have slash : ascii "/" = [47] := rfl
  rw [absolute.absolute_eq, if_neg (Nat.not_lt_of_le short), behind, slash]
  by_cases inside : (47 : UInt8) ∈ query
  · obtain ⟨before, rest, shape, absent⟩ := List.eq_append_cons_of_mem inside
    have found : strstr (uri.authority ++ 63 :: query) [47] =
        some (uri.authority.length + 1 + before.length) := by
      have cut : uri.authority ++ 63 :: query =
          (uri.authority ++ 63 :: before) ++ 47 :: rest := by
        rw [shape]
        simp
      have plain : (47 : UInt8) ∉ uri.authority ++ 63 :: before := by
        simp [uri.authorityEnds.1, absent]
      rw [cut, strstr_singleton plain, List.length_append, List.length_cons]
      congr 1
      omega
    have placed := congrArg List.length shape
    rw [List.length_append, List.length_cons] at placed
    have wrapped : Config.maxPathSize < Decimal.sizeSub (uri.front.length + 1)
        (uri.ptr + (uri.authority.length + 1 + before.length) + 1) := by
      unfold Decimal.sizeSub Config.maxPathSize
      omega
    rw [found, given]
    dsimp only
    rw [if_pos wrapped]
    exact .inl rfl
  · have plain : (47 : UInt8) ∉ uri.authority ++ 63 :: query := by
      simp [uri.authorityEnds.1, inside]
    rw [strstr_singleton_none plain]
    exact .inr ⟨_, rfl⟩

/-! ### The host -/

/-- The latest value of a name is looked up when it has no NUL, whatever the other values have. -/
theorem headerValueGet_of_latest {scgi : Scgi} {offset : Nat} {items : List Entry}
    {name value : List UInt8} (holds : scgi.Holds offset items)
    (found : latest items name = some value) (plain : (0 : UInt8) ∉ value) :
    scgi.headerValueGet name = some value := by
  rw [← holds.latest_eq] at found
  obtain ⟨header, got, entry⟩ := Option.map_eq_some_iff.mp found
  have listed : header ∈ scgi.headerList := by
    rw [Scgi.headerGet_eq] at got
    exact List.mem_of_find?_eq_some got
  rw [holds.list, List.mem_reverse] at listed
  have text := (holds.textAt listed).2 (entry ▸ plain)
  rw [Scgi.headerValueGet, got, Option.map_some, text, entry]

theorem headerValueGet_hostSet {scgi : Scgi} {items : List Entry} {host : List UInt8}
    (layout : scgi.Layout [] items none) (plain : (0 : UInt8) ∉ host) :
    (hostSet scgi host).headerValueGet hostName = some host := by
  refine headerValueGet_of_latest (layout_hostSet layout host).1.holds ?_ plain
  simp [hosted_some, latest]

/-! ### The request -/

/-- A request with an absolute URI whose headers are taken down. -/
structure Arrived (req : Request) (uri : AbsoluteUri) : Prop where
  line : req.line.Absolute uri
  sized : uri.text.length ≤ Config.maxUriSize
  accepted : req.rejected = none
  layout : ∃ items, req.scgi.Layout [] items none

variable {req : Request}

theorem Arrived.searches (arrived : Arrived req uri) :
    ¬ req.line.path.len ≠ 0 ∧ req.line.uriLen ≠ 0 := by
  rw [arrived.line.path, arrived.line.uriLen]
  refine ⟨fun some => some rfl, ?_⟩
  simp [AbsoluteUri.text]

theorem Arrived.pathSet_error (arrived : Arrived req uri) {rejection : Rejection}
    (found : req.line.absolute = .error rejection) : req.pathSet = req.invalid rejection := by
  unfold pathSet
  rw [if_neg arrived.searches.1, if_pos arrived.searches.2]
  simp only [found]

theorem Arrived.pathSet_ok (arrived : Arrived req uri) {host : List UInt8}
    (found : req.line.absolute = .ok (line, some host)) :
    req.pathSet = { req with line := line, scgi := hostSet req.scgi host } := by
  unfold pathSet
  rw [if_neg arrived.searches.1, if_pos arrived.searches.2]
  simp only [found]

theorem Arrived.plain (arrived : Arrived req uri) : (0 : UInt8) ∉ uri.authority ++ uri.pathAndQuery := by
  have text := req.line.uri.2
  rw [arrived.line.text, AbsoluteUri.text] at text
  exact fun member => text (List.mem_append_right _ (List.mem_append_right _ member))

/-- What stands in the URI at a place is read there. -/
theorem Line.read_eq {front text rest : List UInt8} {start len : Nat}
    (shape : line.uri.1 = front ++ (text ++ rest)) (placed : front.length = start)
    (sized : text.length = len) : line.read (some start) len = some text := by
  subst placed sized
  unfold read
  dsimp only
  rw [shape, if_pos (by simp), List.drop_left, List.take_left]

/-- The headers of a URI that has a path; the length of what is requested leaves a lone question
mark out. -/
theorem Line.Absolute.headers_withPath (absolute : line.Absolute uri) {path : List UInt8}
    (given : uri.path = some path) :
    ({ line with
        query := uri.querySpan
        path := ⟨some (uri.ptr + uri.authority.length), path.length⟩ }.shorten).headers =
      some ((reqUriName, path ++ if (uri.query.getD []).length ≠ 0 then uri.asked else []) ::
        ((reqPathName, path) :: ((uri.query.map fun query => (queryStrName, query)).toList ++
          (line.fragment.map fun fragment => (fragmentName, fragment.1)).toList))) := by
  have start : (uri.scheme ++ (58 :: [47, 47] ++ uri.authority)).length =
      uri.ptr + uri.authority.length := by
    simp only [AbsoluteUri.ptr, List.length_append, List.length_cons, List.length_nil]
    omega
  have shape : line.uri.1 =
      (uri.scheme ++ (58 :: [47, 47] ++ uri.authority)) ++ (path ++ uri.asked) := by
    rw [absolute.text, AbsoluteUri.text, AbsoluteUri.pathAndQuery, given, Option.getD_some]
    simp
  have pathRead := line.read_eq shape start rfl
  have front := uri.length_front
  rw [given, Option.getD_some] at front
  unfold Line.headers Line.header Line.shorten AbsoluteUri.querySpan
  dsimp only
  cases asked : uri.query with
  | none =>
      rw [Option.map_none, Option.getD_none, List.length_nil, if_neg (not_not.mpr rfl),
        if_neg (not_not.mpr rfl), List.append_nil, Nat.add_zero]
      simp only [Line.read] at pathRead ⊢
      rw [pathRead]
      rfl
  | some query =>
      have marked : uri.asked = 63 :: query := by rw [AbsoluteUri.asked, asked]; rfl
      rw [marked] at shape
      have queryRead : line.read (some (uri.front.length + 1)) query.length = some query := by
        have behind : line.uri.1 = (uri.front ++ [63]) ++ (query ++ []) := by
          rw [absolute.text, uri.text_eq, marked]
          simp
        exact line.read_eq behind (by simp) rfl
      have requested : line.read (some (uri.ptr + uri.authority.length))
          (path.length + if query.length ≠ 0 then query.length + 1 else 0) =
            some (path ++ if query.length ≠ 0 then 63 :: query else []) := by
        by_cases empty : query.length = 0
        · rw [if_neg (not_not.mpr empty), if_neg (not_not.mpr empty), List.append_nil]
          exact line.read_eq shape start rfl
        · rw [if_pos empty, if_pos empty]
          rw [← List.append_nil (path ++ 63 :: query)] at shape
          exact line.read_eq shape start (by simp)
      rw [Option.map_some, Option.getD_some, marked]
      simp only [Line.read] at pathRead queryRead requested ⊢
      rw [pathRead, queryRead, requested]
      rfl

/-- What is said of a URI with a path, when the query string is not empty. -/
theorem Arrived.decomposed (arrived : Arrived req uri) {path : List UInt8}
    (given : uri.path = some path)
    (found : req.line.absolute = .ok ({ req.line with
      query := uri.querySpan
      path := ⟨some (uri.ptr + uri.authority.length), path.length⟩ }.shorten,
      some uri.authority)) :
    Decomposed req uri ↔ uri.query ≠ some [] := by
  have set := arrived.pathSet_ok found
  have host : (0 : UInt8) ∉ uri.authority :=
    fun member => arrived.plain (List.mem_append_left _ member)
  obtain ⟨items, layout⟩ := arrived.layout
  have headers := arrived.line.headers_withPath given
  constructor
  · intro decomposed empty
    have said := decomposed.headers
    rw [set] at said
    dsimp only at said
    rw [headers, empty] at said
    simp [AbsoluteUri.headers, AbsoluteUri.pathAndQuery, AbsoluteUri.asked, given, empty] at said
  · intro asked
    have requested : (if (uri.query.getD []).length ≠ 0 then uri.asked else []) = uri.asked := by
      rw [AbsoluteUri.asked]
      cases query : uri.query with
      | none => rfl
      | some text =>
          have some : text ≠ [] := fun empty => asked (empty ▸ query)
          simp [some]
    constructor
    · rw [set]
      exact arrived.accepted
    · rw [set]
      exact headerValueGet_hostSet layout host
    · rw [set]
      dsimp only
      rw [headers, requested, AbsoluteUri.headers, AbsoluteUri.pathAndQuery, given]
      rfl
    · rw [set, given]
      rfl
    · rw [set]
      rfl

/-- A URI of a host alone is taken apart rightly. -/
theorem Arrived.decomposed_bare (arrived : Arrived req uri) (noPath : uri.path = none)
    (noQuery : uri.query = none) : Decomposed req uri := by
  have set := arrived.pathSet_ok (arrived.line.bare noPath noQuery)
  have host : (0 : UInt8) ∉ uri.authority :=
    fun member => arrived.plain (List.mem_append_left _ member)
  obtain ⟨items, layout⟩ := arrived.layout
  constructor
  · rw [set]
    exact arrived.accepted
  · rw [set]
    exact headerValueGet_hostSet layout host
  · have path := arrived.line.path
    rw [set, AbsoluteUri.headers, AbsoluteUri.pathAndQuery, AbsoluteUri.asked, noPath, noQuery]
    simp [Line.headers, Line.shorten, Line.header, Line.read, path]
  · rw [set, noPath]
    exact congrArg Span.len arrived.line.path
  · rw [set, noQuery]
    rfl

/-- A URI with a query string but no path is not taken apart rightly. -/
theorem Arrived.not_decomposed (arrived : Arrived req uri) {query : List UInt8}
    (noPath : uri.path = none) (given : uri.query = some query)
    (short : (uri.query.getD []).length ≤ Config.maxQuerySize) : ¬ Decomposed req uri := by
  have sized : uri.text.length < 2 ^ 63 := by
    have limit := arrived.sized
    unfold Config.maxUriSize at limit
    omega
  intro decomposed
  rcases arrived.line.withoutPath noPath given short sized with found | ⟨after, found⟩
  · have accepted := decomposed.accepted
    rw [arrived.pathSet_error found] at accepted
    exact Option.some_ne_none _ accepted
  · have plain := arrived.plain
    rw [AbsoluteUri.pathAndQuery, AbsoluteUri.asked, noPath, given] at plain
    obtain ⟨items, layout⟩ := arrived.layout
    have host := decomposed.host
    rw [arrived.pathSet_ok found] at host
    have whole := Option.some.inj ((headerValueGet_hostSet layout plain).symm.trans host)
    simp at whole

theorem Arrived.sizedWord (arrived : Arrived req uri) : uri.text.length < 2 ^ 64 := by
  have limit := arrived.sized
  unfold Config.maxUriSize at limit
  omega

/-- A query string that is too long is refused. -/
theorem Arrived.rightly_longQuery (arrived : Arrived req uri)
    (long : Config.maxQuerySize < (uri.query.getD []).length) : PathSetRightly req uri where
  longQuery _ := by
    have found := arrived.line.absolute_eq
    rw [if_pos long] at found
    rw [arrived.pathSet_error found]
    rfl
  longPath short := absurd long (Nat.not_lt_of_le short)
  short short := absurd long (Nat.not_lt_of_le short)

/-- A path that is too long is refused. -/
theorem Arrived.rightly_longPath (arrived : Arrived req uri) {path : List UInt8}
    (given : uri.path = some path) (short : (uri.query.getD []).length ≤ Config.maxQuerySize)
    (long : Config.maxPathSize < path.length) : PathSetRightly req uri where
  longQuery above := absurd above (Nat.not_lt_of_le short)
  longPath _ _ := by
    have found := arrived.line.withPath given short arrived.sizedWord
    rw [if_pos long] at found
    rw [arrived.pathSet_error found]
    rfl
  short _ below := by
    rw [given] at below
    exact absurd long (Nat.not_lt_of_le below)

/-- When nothing is too long all depends on what is found. -/
theorem rightly_short (short : (uri.query.getD []).length ≤ Config.maxQuerySize)
    (shortPath : (uri.path.getD []).length ≤ Config.maxPathSize) :
    PathSetRightly req uri ↔ Decomposed req uri := by
  constructor
  · intro rightly
    exact rightly.short short shortPath
  · intro decomposed
    exact ⟨fun above => absurd above (Nat.not_lt_of_le short),
      fun _ above => absurd above (Nat.not_lt_of_le shortPath), fun _ _ => decomposed⟩

/-- Which URIs are taken apart rightly. -/
theorem Arrived.pathSetRightly_iff (arrived : Arrived req uri) :
    PathSetRightly req uri ↔
      uri.query = none ∨ Config.maxQuerySize < (uri.query.getD []).length ∨
        uri.path ≠ none ∧
          (uri.query ≠ some [] ∨ Config.maxPathSize < (uri.path.getD []).length) := by
  by_cases long : Config.maxQuerySize < (uri.query.getD []).length
  · exact iff_of_true (arrived.rightly_longQuery long) (.inr (.inl long))
  have short := Nat.le_of_not_lt long
  cases given : uri.path with
  | some path =>
      by_cases longPath : Config.maxPathSize < path.length
      · exact iff_of_true (arrived.rightly_longPath given short longPath)
          (.inr (.inr ⟨Option.some_ne_none _, .inr longPath⟩))
      · have found := arrived.line.withPath given short arrived.sizedWord
        rw [if_neg longPath] at found
        rw [rightly_short short (by rw [given]; exact Nat.le_of_not_lt longPath),
          arrived.decomposed given found]
        constructor
        · intro asked
          exact .inr (.inr ⟨Option.some_ne_none _, .inl asked⟩)
        · rintro (none | above | ⟨-, asked | above⟩)
          · rw [none]
            exact fun same => Option.some_ne_none _ same.symm
          · exact absurd above long
          · exact asked
          · exact absurd above longPath
  | none =>
      have shortPath : (uri.path.getD []).length ≤ Config.maxPathSize := by
        rw [given]
        exact Nat.zero_le _
      rw [rightly_short short shortPath]
      cases asked : uri.query with
      | none => exact iff_of_true (arrived.decomposed_bare given asked) (.inl rfl)
      | some query =>
          refine iff_of_false (arrived.not_decomposed given asked short) ?_
          rintro (none | above | ⟨some, -⟩)
          · exact Option.some_ne_none _ none
          · exact long (asked ▸ above)
          · exact some rfl

/-! ### The callbacks -/

namespace LinePiece

/-- The bytes of the URI in a piece. -/
def uriText : LinePiece → List UInt8
  | .uri text => text.1
  | _ => []

/-- Is this a path or a query string that libebb found? -/
def isSpan : LinePiece → Bool
  | .path _ | .queryString _ => true
  | .uri _ | .fragment _ => false

end LinePiece

/-- A line that has taken down the bytes of a URI, but neither a path nor a query string. -/
structure Line.Taken (line : Line) (bytes : List UInt8) : Prop where
  text : line.uri.1 = bytes
  uriLen : line.uriLen = bytes.length
  sized : bytes.length ≤ Config.maxUriSize
  path : line.path = ⟨none, 0⟩
  query : line.query = ⟨none, 0⟩

/-- An accepted piece is taken down. -/
theorem Line.Taken.lineCb {text : List UInt8} {piece : LinePiece} (taken : req.line.Taken text)
    (plain : piece.isSpan = false)
    (accepted : (req.lineCb piece).rejected = none) :
    (req.lineCb piece).line.Taken (text ++ piece.uriText) := by
  cases piece with
  | path length => cases plain
  | queryString length => cases plain
  | uri bytes =>
      unfold Request.lineCb uriCb at accepted ⊢
      dsimp only at accepted ⊢
      by_cases long : Config.maxUriSize < req.line.uriLen + bytes.1.length
      · rw [if_pos long] at accepted
        exact absurd accepted (Option.some_ne_none _)
      · rw [if_neg long]
        have whole : (text ++ bytes.1).length = req.line.uriLen + bytes.1.length := by
          rw [List.length_append, taken.uriLen]
        refine ⟨congrArg (· ++ bytes.1) taken.text, whole.symm, ?_, taken.path, taken.query⟩
        exact whole ▸ Nat.le_of_not_lt long
  | fragment bytes =>
      change (fragmentCb bytes req).line.Taken (text ++ [])
      rw [fragmentCb, List.append_nil]
      split
      · exact taken
      · exact ⟨taken.text, taken.uriLen, taken.sized, taken.path, taken.query⟩

/-- The pieces of the line are taken down one after the other. -/
theorem Line.Taken.run {head : Head} {text : List UInt8} {pieces : List LinePiece}
    {rest : List Callback} {last : Request} (taken : req.line.Taken text)
    (plain : ∀ piece ∈ pieces, piece.isSpan = false)
    (ran : Request.run head req (pieces.map .line ++ rest) = some last)
    (kept : last.rejected = none) :
    ∃ next, Request.run head next rest = some last ∧ next.scgi = req.scgi ∧
      next.line.Taken (text ++ pieces.flatMap LinePiece.uriText) := by
  induction pieces generalizing req text with
  | nil => exact ⟨req, ran, rfl, by simpa using taken⟩
  | cons piece pieces ih =>
      rw [List.map_cons, List.cons_append] at ran
      obtain ⟨next, stepped, later, before, after⟩ := run_step ran kept
      have made : next = req.lineCb piece := by
        rw [step, before] at stepped
        exact (Option.some.inj stepped).symm
      subst made
      have first := taken.lineCb (plain piece List.mem_cons_self) after
      obtain ⟨last, tail, scgi, whole⟩ :=
        ih first (fun other member => plain other (List.mem_cons_of_mem _ member)) later
      refine ⟨last, tail, scgi.trans (lineCb_frame req piece).1, ?_⟩
      rwa [List.flatMap_cons, ← List.append_assoc]

/-- A request whose headers are taken down has arrived. -/
theorem Arrived.of_run {head : Head} {pieces : List LinePiece} {headers : List ClientHeader}
    (plain : ∀ piece ∈ pieces, piece.isSpan = false)
    (whole : pieces.flatMap LinePiece.uriText = uri.text)
    (ran : run head (new head) (pieces.map .line ++ headerCallbacks 0 headers) = some req)
    (accepted : req.rejected = none) : Arrived req uri := by
  have empty : (new head).line.Taken [] := ⟨rfl, rfl, Nat.zero_le _, rfl, rfl⟩
  obtain ⟨next, later, scgi, taken⟩ := empty.run plain ran accepted
  rw [List.nil_append, whole] at taken
  have shown := Scgi.Shows.new head.junk
  rw [← List.append_nil (headerCallbacks 0 headers)] at later
  obtain ⟨after, tail, layout, -⟩ := run_headers
    (by rw [scgi]; exact shown.layout) (by rw [scgi]; exact (shown.index).trans_lt (by decide))
    later accepted
  obtain rfl := Option.some.inj tail
  exact ⟨⟨taken.text, taken.uriLen, taken.path, taken.query⟩, taken.sized, accepted, _, layout⟩

/-- The head takes an absolute URI apart rightly if it has no query string, or one that is refused,
or else a path, and the query string is not empty unless the path is refused. -/
theorem absolute_iff {head : Head} {pieces : List LinePiece} {headers : List ClientHeader}
    (plain : ∀ piece ∈ pieces, piece.isSpan = false)
    (whole : pieces.flatMap LinePiece.uriText = uri.text)
    (ran : run head (new head) (pieces.map .line ++ headerCallbacks 0 headers) = some req)
    (accepted : req.rejected = none) :
    PathSetRightly req uri ↔
      uri.query = none ∨ Config.maxQuerySize < (uri.query.getD []).length ∨
        uri.path ≠ none ∧
          (uri.query ≠ some [] ∨ Config.maxPathSize < (uri.path.getD []).length) :=
  (Arrived.of_run plain whole ran accepted).pathSetRightly_iff

/-- A request line with a URI in one piece, and a host header of the client. -/
def absoluteCallbacks (text : Text) : List Callback :=
  [LinePiece.uri text].map .line ++
    headerCallbacks 0 [⟨tokenOf "Host" visible_host, [], ⟨ascii "other", by decide⟩, []⟩]

/-- The URI `http://h/a?b=/c`. -/
def sampleUri : AbsoluteUri where
  scheme := ascii "http"
  authority := ascii "h"
  path := some (ascii "/a")
  query := some (ascii "b=/c")
  schemeEnds := by decide +kernel
  authorityEnds := by decide +kernel
  pathStarts := by
    rintro text ⟨⟩
    exact ⟨ascii "a", by decide +kernel⟩

theorem absolute_iff_sample :
    ∃ req, run sampleHead (new sampleHead)
        (absoluteCallbacks ⟨ascii "http://h/a?b=/c", by decide +kernel⟩) = some req ∧
      PathSetRightly req sampleUri := by
  have accepts : (run sampleHead (new sampleHead)
      (absoluteCallbacks ⟨ascii "http://h/a?b=/c", by decide +kernel⟩)).map (·.rejected) =
        some none := by decide +kernel
  obtain ⟨req, ran, accepted⟩ := Option.map_eq_some_iff.mp accepts
  refine ⟨req, ran, ?_⟩
  have plain : ∀ piece ∈ [LinePiece.uri ⟨ascii "http://h/a?b=/c", by decide +kernel⟩],
      piece.isSpan = false := by
    intro piece member
    rw [List.mem_singleton.mp member]
    rfl
  refine (absolute_iff plain (by decide +kernel) ran accepted).mpr ?_
  exact .inr (.inr ⟨Option.some_ne_none _, .inl (by decide +kernel)⟩)

/-- The URI `http://h?x`. -/
def pathlessUri : AbsoluteUri where
  scheme := ascii "http"
  authority := ascii "h"
  path := none
  query := some (ascii "x")
  schemeEnds := by decide +kernel
  authorityEnds := by decide +kernel
  pathStarts := fun _ member => absurd member (Option.not_mem_none _)

/-- The query string becomes a part of the host, and a path that is NULL is read. -/
theorem not_absolute :
    ∃ req, run sampleHead (new sampleHead)
        (absoluteCallbacks ⟨pathlessUri.text, by decide +kernel⟩) = some req ∧
      req.rejected = none ∧ req.pathSet.scgi.headerValueGet hostName = some (ascii "h?x") ∧
      req.pathSet.line.headers = none ∧ ¬ PathSetRightly req pathlessUri := by
  have accepts : (run sampleHead (new sampleHead)
      (absoluteCallbacks ⟨pathlessUri.text, by decide +kernel⟩)).map (fun req =>
        (req.rejected, req.pathSet.scgi.headerValueGet hostName,
          req.pathSet.line.headers.isNone)) =
        some ((none : Option Rejection), some (ascii "h?x"), true) := by decide +kernel
  obtain ⟨req, ran, same⟩ := Option.map_eq_some_iff.mp accepts
  obtain ⟨accepted, rest⟩ := Prod.mk.inj same
  obtain ⟨host, read⟩ := Prod.mk.inj rest
  refine ⟨req, ran, accepted, host, Option.isNone_iff_eq_none.mp read, fun rightly => ?_⟩
  have decomposed := rightly.short (by decide +kernel) (by decide +kernel)
  exact absurd (host.symm.trans decomposed.host) (by decide +kernel)

end Request
