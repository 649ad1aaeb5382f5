import Webroar.Head.Incoming

/-! # The entries of an accepted request

The names of all entries can be told apart on the wire, and so can every value the head writes
itself, as long as the version fits its buffer. The values of the client are the client's: an
accepted request is clean when none of them has a NUL. The limits keep the block far
below the size an `int` can count.
-/

namespace Request

open Scgi (Entry Clean contentLengthEntry scgiEntry encode encodeEntry frame renameFirst
  renameLatest)

/-- No client value has a NUL and the version fits the buffer it is printed to. -/
def Incoming.Plain (incoming : Incoming) : Prop :=
  (∀ header ∈ incoming.headers, (0 : UInt8) ∉ header.entry.2) ∧
    (versionPrinted incoming.request).length < 16

instance (incoming : Incoming) : Decidable incoming.Plain :=
  inferInstanceAs (Decidable (_ ∧ _))

/-- A name that can be told apart on the wire. -/
def CleanName (name : List UInt8) : Prop := (0 : UInt8) ∉ name ∧ (44 : UInt8) ∉ name

instance (name : List UInt8) : Decidable (CleanName name) := inferInstanceAs (Decidable (_ ∧ _))

variable {head : Head} {incoming : Incoming} {req : Request}

theorem token_ne {byte : UInt8} (token : isToken byte = true) : byte ≠ 0 ∧ byte ≠ 44 := by
  refine ⟨?_, ?_⟩
  · rintro rfl
    exact absurd token (by decide)
  · rintro rfl
    exact absurd token (by decide)

/-- The name of a client header is clean. -/
theorem ClientHeader.cleanName (header : ClientHeader) : CleanName header.entry.1 := by
  have plain : ∀ byte ∈ (httpPrefix :: header.field.1 :: header.fields.map (·.1)).flatten,
      byte ≠ 0 ∧ byte ≠ 44 := by
    intro byte member
    rw [List.flatten_cons, List.flatten_cons, List.mem_append, List.mem_append] at member
    rcases member with start | first | later
    · exact (show ∀ byte ∈ httpPrefix, byte ≠ 0 ∧ byte ≠ 44 by decide +kernel) byte start
    · exact token_ne (header.field.2 byte first)
    · obtain ⟨piece, listed, inside⟩ := List.mem_flatten.mp later
      obtain ⟨token, -, rfl⟩ := List.mem_map.mp listed
      exact token_ne (token.2 byte inside)
  have written : ∀ byte ∈ header.entry.1, byte ≠ 0 ∧ byte ≠ 44 := by
    intro byte member
    obtain ⟨source, inside, rfl⟩ := List.mem_map.mp member
    obtain ⟨notNul, notComma⟩ := plain source inside
    exact Scgi.envByte_ne notNul notComma
  exact ⟨fun member => (written 0 member).1 rfl, fun member => (written 44 member).2 rfl⟩

/-! ### The host of the URI -/

theorem map_snd_renameFirst (name other : List UInt8) (items : List Entry) :
    (renameFirst name other items).map Prod.snd = items.map Prod.snd := by
  induction items with
  | nil => rfl
  | cons item rest ih =>
      rw [renameFirst]
      split
      · rfl
      · rw [List.map_cons, List.map_cons, ih]

theorem map_snd_renameLatest (name other : List UInt8) (items : List Entry) :
    (renameLatest name other items).map Prod.snd = items.map Prod.snd := by
  rw [renameLatest, List.map_reverse, map_snd_renameFirst, List.map_reverse, List.reverse_reverse]

theorem mem_renameFirst {name other : List UInt8} {items : List Entry} {item : Entry}
    (member : item ∈ renameFirst name other items) :
    item.1 = other ∨ item ∈ items := by
  induction items with
  | nil => cases member
  | cons first rest ih =>
      rw [renameFirst] at member
      split at member
      · rcases List.mem_cons.mp member with rfl | later
        · exact Or.inl rfl
        · exact Or.inr (List.mem_cons_of_mem _ later)
      · rcases List.mem_cons.mp member with rfl | later
        · exact Or.inr List.mem_cons_self
        · exact (ih later).imp_right (List.mem_cons_of_mem _)

theorem length_encode_renameFirst {name other : List UInt8} (same : other.length = name.length)
    (items : List Entry) :
    (encode (renameFirst name other items)).length = (encode items).length := by
  induction items with
  | nil => rfl
  | cons item rest ih =>
      rw [renameFirst]
      split
      · next named =>
          rw [Scgi.encode_cons, Scgi.encode_cons, List.length_append, List.length_append,
            Scgi.length_encodeEntry, Scgi.length_encodeEntry, named, same]
      · rw [Scgi.encode_cons, Scgi.encode_cons, List.length_append, List.length_append, ih]

theorem length_encode_reverse (items : List Entry) :
    (encode items.reverse).length = (encode items).length := by
  induction items with
  | nil => rfl
  | cons item rest ih =>
      rw [List.reverse_cons, Scgi.encode_append, List.length_append, ih, Scgi.encode_singleton,
        Scgi.encode_cons, List.length_append, Nat.add_comm]

theorem length_encode_renameLatest {name other : List UInt8} (same : other.length = name.length)
    (items : List Entry) :
    (encode (renameLatest name other items)).length = (encode items).length := by
  rw [renameLatest, length_encode_reverse, length_encode_renameFirst same, length_encode_reverse]

/-- Hosted entries are the entries, the hidden host and the host of the URI. -/
theorem mem_hosted {items : List Entry} {host : Option (List UInt8)} {item : Entry}
    (member : item ∈ hosted items host) :
    (item ∈ items ∨ item.1 = hiddenHostName ∧ item.2 ∈ items.map Prod.snd) ∨
      item.1 = hostName ∧ some item.2 = host := by
  cases host with
  | none => exact Or.inl (Or.inl member)
  | some host =>
      rcases List.mem_append.mp member with renamed | added
      · refine Or.inl ?_
        rcases mem_renameFirst (List.mem_reverse.mp renamed) with hidden | listed
        · refine Or.inr ⟨hidden, ?_⟩
          rw [← map_snd_renameLatest hostName hiddenHostName items]
          exact List.mem_map_of_mem renamed
        · exact Or.inl (List.mem_reverse.mp listed)
      · obtain rfl := List.mem_singleton.mp added
        exact Or.inr ⟨rfl, rfl⟩

/-- Every value of the client is still there. -/
theorem mem_snd_hosted {items : List Entry} {value : List UInt8}
    (member : value ∈ items.map Prod.snd) (host : Option (List UInt8)) : value ∈ (hosted items host).map Prod.snd := by
  cases host with
  | none => exact member
  | some host =>
      rw [hosted_some, List.map_append, List.mem_append, map_snd_renameLatest]
      exact Or.inl member

/-! ### The headers of the head -/

/-- The pieces of a URI have no NUL. -/
theorem Line.plain_read {line : Line} {str : Option Nat} {len : Nat} {text : List UInt8}
    (found : line.read str len = some text) :
    (0 : UInt8) ∉ text ∧ text.length ≤ line.uri.1.length := by
  unfold read at found
  cases str with
  | none =>
      simp only [Option.ite_none_right_eq_some, Option.some.injEq] at found
      obtain ⟨-, rfl⟩ := found
      exact ⟨List.not_mem_nil, Nat.zero_le _⟩
  | some start =>
      simp only [Option.ite_none_right_eq_some, Option.some.injEq] at found
      obtain ⟨-, rfl⟩ := found
      refine ⟨fun member => line.uri.2 (List.mem_of_mem_drop (List.mem_of_mem_take member)), ?_⟩
      rw [List.length_take, List.length_drop]
      omega

theorem Line.mem_header {line : Line} {name : List UInt8} {span : Span} {entries : List Entry}
    (found : line.header name span = some entries) :
    (∀ item ∈ entries, item.1 = name ∧ (0 : UInt8) ∉ item.2) ∧
      (encode entries).length ≤ name.length + line.uri.1.length + 2 := by
  unfold header at found
  cases start : span.str with
  | none =>
      rw [start] at found
      obtain rfl := Option.some.inj found
      exact ⟨fun item member => (List.not_mem_nil member).elim, Nat.zero_le _⟩
  | some start' =>
      rw [start] at found
      obtain ⟨text, reading, rfl⟩ := Option.map_eq_some_iff.mp found
      obtain ⟨plain, bound⟩ := plain_read reading
      refine ⟨fun item member => ?_, ?_⟩
      · obtain rfl := List.mem_singleton.mp member
        exact ⟨rfl, plain⟩
      · rw [Scgi.encode_singleton, Scgi.length_encodeEntry]
        simp only
        omega

/-- The headers of a request line are clean and have the size of the URI and the fragment. -/
theorem Line.clean_headers {line : Line} {entries : List Entry}
    (found : line.headers = some entries) :
    Clean entries ∧ (∀ item ∈ entries, item.1 ∈ [reqUriName, reqPathName, queryStrName,
        fragmentName]) ∧
      (encode entries).length ≤ 3 * line.uri.1.length +
        ((line.fragment.map fun fragment => fragment.1.length).getD 0) + 64 := by
  obtain ⟨uri, uriRead, more⟩ := Option.bind_eq_some_iff.mp found
  obtain ⟨path, pathRead, last⟩ := Option.bind_eq_some_iff.mp more
  obtain ⟨query, queryRead, rfl⟩ := Option.map_eq_some_iff.mp last
  obtain ⟨plainUri, uriBound⟩ := plain_read uriRead
  obtain ⟨pathEntries, pathBound⟩ := mem_header pathRead
  obtain ⟨queryEntries, queryBound⟩ := mem_header queryRead
  have names : CleanName reqUriName ∧ CleanName reqPathName ∧ CleanName queryStrName ∧
      CleanName fragmentName := by decide
  have sizes : reqUriName.length = 11 ∧ reqPathName.length = 12 ∧ queryStrName.length = 12 ∧
      fragmentName.length = 8 := by decide
  have each : ∀ item ∈ (reqUriName, uri) :: (path ++ query ++
      (line.fragment.map fun fragment => (fragmentName, fragment.1)).toList),
      item.1 ∈ [reqUriName, reqPathName, queryStrName, fragmentName] ∧
        (0 : UInt8) ∉ item.2 := by
    intro item member
    rw [List.mem_cons, List.mem_append, List.mem_append] at member
    rcases member with rfl | (inPath | inQuery) | inFragment
    · exact ⟨List.mem_cons_self, plainUri⟩
    · obtain ⟨named, plain⟩ := pathEntries item inPath
      rw [named]
      exact ⟨List.mem_cons_of_mem _ List.mem_cons_self, plain⟩
    · obtain ⟨named, plain⟩ := queryEntries item inQuery
      rw [named]
      exact ⟨List.mem_cons_of_mem _ (List.mem_cons_of_mem _ List.mem_cons_self), plain⟩
    · cases fragment : line.fragment with
      | none =>
          rw [fragment] at inFragment
          cases inFragment
      | some text =>
          rw [fragment] at inFragment
          obtain rfl := List.mem_singleton.mp inFragment
          exact ⟨List.mem_cons_of_mem _ (List.mem_cons_of_mem _ (List.mem_cons_of_mem _
            List.mem_cons_self)), text.2⟩
  refine ⟨fun item member => ?_, fun item member => (each item member).1, ?_⟩
  · obtain ⟨named, plain⟩ := each item member
    refine ⟨?_, plain⟩
    simp only [List.mem_cons, List.not_mem_nil, or_false] at named
    rcases named with same | same | same | same
    · rw [same]
      exact names.1
    · rw [same]
      exact names.2.1
    · rw [same]
      exact names.2.2.1
    · rw [same]
      exact names.2.2.2
  · rw [Scgi.encode_cons, Scgi.encode_append, Scgi.encode_append, List.length_append,
      List.length_append, List.length_append, Scgi.length_encodeEntry]
    simp only
    obtain ⟨uriSize, pathSize, querySize, fragmentSize⟩ := sizes
    cases fragment : line.fragment with
    | none =>
        simp only [Option.map_none, Option.toList_none, Scgi.encode_nil, List.length_nil,
          Option.getD_none]
        omega
    | some text =>
        simp only [Option.map_some, Option.toList_some, Scgi.encode_singleton,
          Scgi.length_encodeEntry, Option.getD_some]
        omega

/-- What a printed version may contain. -/
theorem mem_versionPrinted {request : EbbRequest} {byte : UInt8}
    (member : byte ∈ versionPrinted request) :
    byte ∈ ascii "HTTP/." ∨ Decimal.isDigit byte = true ∨ byte = 45 := by
  have start : ∀ byte ∈ ascii "HTTP/", byte ∈ ascii "HTTP/." := by decide +kernel
  have dot : ∀ byte ∈ ascii ".", byte ∈ ascii "HTTP/." := by decide +kernel
  rw [versionPrinted, List.mem_append, List.mem_append, List.mem_append] at member
  rcases member with ((inName | inMajor) | inDot) | inMinor
  · exact Or.inl (start byte inName)
  · exact Or.inr (Decimal.mem_format inMajor)
  · exact Or.inl (dot byte inDot)
  · exact Or.inr (Decimal.mem_format inMinor)

/-- The version has no NUL exactly when it fits its buffer. -/
theorem plain_versionText (head : Head) (request : EbbRequest) :
    (0 : UInt8) ∉ versionText head request ↔ (versionPrinted request).length < 16 := by
  unfold versionText
  by_cases fits : (versionPrinted request).length < 16
  · simp only [fits, ↓reduceIte, iff_true]
    intro member
    rcases mem_versionPrinted member with named | digit | minus
    · exact absurd named (by decide)
    · exact absurd digit (by decide)
    · exact absurd minus (by decide)
  · simp only [fits, ↓reduceIte, iff_false, not_not]
    exact List.mem_append_right _ List.mem_cons_self

/-- Cutting a text off and reading on behind it keeps its length. -/
theorem length_cut (text : List UInt8) (heap : Nat → UInt8) :
    (if text.length < 16 then text
      else text.take 15 ++ 0 :: (List.range (text.length - 16)).map heap).length =
        text.length := by
  split
  · rfl
  · rw [List.length_append, List.length_take, List.length_cons, List.length_map,
      List.length_range]
    omega

theorem length_versionText_le (head : Head) (request : EbbRequest) :
    (versionText head request).length ≤ 28 := by
  have major := Decimal.length_format_le request.versionMajor
  have minor := Decimal.length_format_le request.versionMinor
  have same : (versionText head request).length = (versionPrinted request).length :=
    length_cut (versionPrinted request) head.heap
  rw [same, versionPrinted]
  generalize Decimal.format request.versionMajor = first at *
  generalize Decimal.format request.versionMinor = second at *
  have start : (ascii "HTTP/").length = 5 := by decide
  have dot : (ascii ".").length = 1 := by decide
  rw [List.length_append, List.length_append, List.length_append, start, dot]
  omega

/-- The names of the headers the head adds behind those of the request line. -/
def lateNames : List (List UInt8) :=
  [httpsName, chunkedName, reqMethodName, svrPortName, httpCliIpName, httpVerName, filePathName]

/-- The headers behind those of the request line. -/
def lateHeaders (head : Head) (request : EbbRequest) (file : Option FilePath) : List Entry :=
  secureHeaders head ++ (chunkedHeader request ::
    connectionHeaders head request (request.method.text.getD [])) ++ fileHeader file

theorem plain_methodText (method : Method) :
    (0 : UInt8) ∉ method.text.getD [] ∧ (method.text.getD []).length ≤ 9 := by
  cases method <;> decide

/-- The late headers have the late names; the only value that may have a NUL is the version. -/
theorem mem_lateHeaders {request : EbbRequest} {file : Option FilePath} {item : Entry}
    (member : item ∈ lateHeaders head request file) :
    item.1 ∈ lateNames ∧
      ((0 : UInt8) ∉ item.2 ∨ item.2 = versionText head request) ∧ item.2.length ≤ 2048 := by
  have version := length_versionText_le head request
  obtain ⟨plainMethod, methodSize⟩ := plain_methodText request.method
  rw [lateHeaders, List.mem_append, List.mem_append] at member
  rcases member with (secure | connection) | fileItem
  · unfold secureHeaders at secure
    split at secure
    · obtain rfl := List.mem_singleton.mp secure
      refine ⟨?_, Or.inl ?_, ?_⟩
      · decide
      · decide
      · decide
    · cases secure
  · rcases List.mem_cons.mp connection with rfl | later
    · unfold chunkedHeader
      split
      · exact ⟨by decide, Or.inl (by decide), by decide⟩
      · exact ⟨by decide, Or.inl (by decide), by decide⟩
    · simp only [connectionHeaders, List.mem_cons, List.not_mem_nil, or_false] at later
      rcases later with rfl | rfl | rfl | rfl
      · exact ⟨by dsimp only; decide, Or.inl plainMethod, by dsimp only; omega⟩
      · refine ⟨by dsimp only; decide, Or.inl head.connection.port.1.2, ?_⟩
        have bound := head.connection.port.2
        dsimp only
        omega
      · refine ⟨by dsimp only; decide, Or.inl head.connection.ip.1.2, ?_⟩
        have bound := head.connection.ip.2
        dsimp only
        omega
      · dsimp only
        exact ⟨by decide, Or.inr (Eq.refl (versionText head request)), by omega⟩
  · cases file with
    | none => cases fileItem
    | some path =>
        obtain rfl := List.mem_singleton.mp fileItem
        have plain := path.1.2
        have bound := path.2
        have listed : filePathName ∈ lateNames := by decide
        dsimp only
        exact ⟨listed, Or.inl plain, Nat.le_of_lt bound⟩

theorem cleanName_lateNames : ∀ name ∈ lateNames, CleanName name := by decide

theorem length_lateHeaders_le (head : Head) (request : EbbRequest) (file : Option FilePath) :
    (lateHeaders head request file).length ≤ 7 := by
  unfold lateHeaders secureHeaders fileHeader connectionHeaders
  cases head.connection.secure <;> cases file <;> simp

/-- Every entry of a list below a size bounds the bytes of the list. -/
theorem length_encode_le {items : List Entry} {size : Nat}
    (bounded : ∀ item ∈ items, item.1.length + item.2.length + 2 ≤ size) :
    (encode items).length ≤ items.length * size := by
  induction items with
  | nil => exact Nat.zero_le _
  | cons item rest ih =>
      have first := bounded item List.mem_cons_self
      have later := ih fun other member => bounded other (List.mem_cons_of_mem _ member)
      rw [Scgi.encode_cons, List.length_append, Scgi.length_encodeEntry, List.length_cons,
        Nat.add_mul]
      omega

theorem length_encode_lateHeaders (head : Head) (request : EbbRequest) (file : Option FilePath) :
    (encode (lateHeaders head request file)).length ≤ 7 * 2100 := by
  have count := length_lateHeaders_le head request file
  have names : ∀ name ∈ lateNames, name.length ≤ 14 := by decide
  have bound : (encode (lateHeaders head request file)).length ≤
      (lateHeaders head request file).length * 2100 := by
    refine length_encode_le fun item member => ?_
    obtain ⟨named, -, size⟩ := mem_lateHeaders member
    have short := names item.1 named
    omega
  exact bound.trans (Nat.mul_le_mul_right 2100 count)

/-- The late headers are clean when the version fits. -/
theorem clean_lateHeaders {request : EbbRequest} (file : Option FilePath)
    (fits : (versionPrinted request).length < 16) : Clean (lateHeaders head request file) := by
  intro item member
  obtain ⟨named, plain, -⟩ := mem_lateHeaders member
  refine ⟨cleanName_lateNames item.1 named, ?_⟩
  rcases plain with plain | version
  · exact plain
  · rw [version]
    exact (plain_versionText head request).mpr fits

/-! ### The request line -/

/-- A request line within the limits. -/
structure Line.Fits (line : Line) : Prop where
  uriLen : line.uriLen = line.uri.1.length
  uri : line.uri.1.length ≤ Config.maxUriSize
  fragment : ((line.fragment.map fun fragment => fragment.1.length).getD 0) ≤ Config.maxFragSize

theorem Line.Fits.lineCb (fits : req.line.Fits) (piece : LinePiece) :
    (req.lineCb piece).line.Fits := by
  obtain ⟨uriLen, uri, fragment⟩ := fits
  cases piece with
  | path length =>
      simp only [Request.lineCb, pathCb]
      split
      · exact ⟨uriLen, uri, fragment⟩
      · exact ⟨uriLen, uri, fragment⟩
  | queryString length =>
      simp only [Request.lineCb, queryStringCb]
      split
      · exact ⟨uriLen, uri, fragment⟩
      · exact ⟨uriLen, uri, fragment⟩
  | uri text =>
      simp only [Request.lineCb, uriCb]
      split
      · exact ⟨uriLen, uri, fragment⟩
      · next room =>
          have length : (Text.append req.line.uri text).1.length =
              req.line.uri.1.length + text.1.length := List.length_append
          refine ⟨?_, ?_, fragment⟩
          · dsimp only
            rw [length, uriLen]
          · dsimp only
            rw [length]
            omega
  | fragment text =>
      simp only [Request.lineCb, fragmentCb]
      split
      · exact ⟨uriLen, uri, fragment⟩
      · next room =>
          refine ⟨uriLen, uri, ?_⟩
          dsimp only
          cases old : req.line.fragment with
          | none =>
              rw [old] at room
              simp only [Option.map_none, Option.getD_none, Option.map_some,
                Option.getD_some] at room ⊢
              omega
          | some before =>
              rw [old] at room
              have length : (Text.append before text).1.length =
                  before.1.length + text.1.length := List.length_append
              simp only [Option.map_some, Option.getD_some, length] at room ⊢
              omega

theorem fits_lineOf (pieces : List LinePiece) (fits : req.line.Fits) :
    (lineOf req pieces).Fits := by
  induction pieces generalizing req with
  | nil => exact fits
  | cons piece pieces ih => exact ih (fits.lineCb piece)

theorem Incoming.fits_requestLine (incoming : Incoming) (head : Head) :
    (incoming.requestLine head).Fits :=
  fits_lineOf incoming.line ⟨rfl, Nat.zero_le _, Nat.zero_le _⟩

/-- Finding the parts of an absolute URI keeps the URI, and its host is a part of it. -/
theorem Line.absolute_spec {line after : Line} {host : Option (List UInt8)}
    (found : line.absolute = .ok (after, host)) :
    after.uri = line.uri ∧ after.fragment = line.fragment ∧
      ∀ text ∈ host, (0 : UInt8) ∉ text ∧ text.length ≤ line.uri.1.length := by
  unfold absolute at found
  simp only at found
  split at found
  · split at found
    · cases found
    · split at found
      · obtain ⟨rfl, rfl⟩ := Prod.mk.inj (Except.ok.inj found)
        exact ⟨rfl, rfl, fun text member => by cases member⟩
      · split at found
        · split at found
          · cases found
          · obtain ⟨rfl, rfl⟩ := Prod.mk.inj (Except.ok.inj found)
            refine ⟨rfl, rfl, fun text member => ?_⟩
            obtain rfl := Option.some.inj member
            refine ⟨fun inside =>
              line.uri.2 (List.mem_of_mem_drop (List.mem_of_mem_take inside)), ?_⟩
            rw [List.length_take, List.length_drop]
            omega
        · obtain ⟨rfl, rfl⟩ := Prod.mk.inj (Except.ok.inj found)
          refine ⟨rfl, rfl, fun text member => ?_⟩
          obtain rfl := Option.some.inj member
          refine ⟨fun inside => line.uri.2 (List.mem_of_mem_drop inside), ?_⟩
          rw [List.length_drop]
          omega
  · split at found
    · cases found
    · split at found
      · obtain ⟨rfl, rfl⟩ := Prod.mk.inj (Except.ok.inj found)
        exact ⟨rfl, rfl, fun text member => by cases member⟩
      · split at found
        · split at found
          · cases found
          · obtain ⟨rfl, rfl⟩ := Prod.mk.inj (Except.ok.inj found)
            refine ⟨rfl, rfl, fun text member => ?_⟩
            obtain rfl := Option.some.inj member
            refine ⟨fun inside =>
              line.uri.2 (List.mem_of_mem_drop (List.mem_of_mem_take inside)), ?_⟩
            rw [List.length_take, List.length_drop]
            omega
        · obtain ⟨rfl, rfl⟩ := Prod.mk.inj (Except.ok.inj found)
          refine ⟨rfl, rfl, fun text member => ?_⟩
          obtain rfl := Option.some.inj member
          refine ⟨fun inside => line.uri.2 (List.mem_of_mem_drop inside), ?_⟩
          rw [List.length_drop]
          omega

theorem resolved_spec (line : Line) :
    (resolved line).1.uri = line.uri ∧ (resolved line).1.fragment = line.fragment ∧
      ∀ text ∈ (resolved line).2, (0 : UInt8) ∉ text ∧ text.length ≤ line.uri.1.length := by
  unfold resolved
  split
  · exact ⟨rfl, rfl, fun text member => by cases member⟩
  · split
    · cases found : line.absolute with
      | error rejection => exact ⟨rfl, rfl, fun text member => by cases member⟩
      | ok result => exact Line.absolute_spec found
    · exact ⟨rfl, rfl, fun text member => by cases member⟩

/-! ### All entries -/

/-- The client's entries with the host of the URI. -/
def Incoming.hostEntries (incoming : Incoming) (head : Head) : List Entry :=
  hosted (scgiEntry :: incoming.clientEntries) (resolved (incoming.requestLine head)).2

/-- The entries the head writes behind those of the client. -/
def Incoming.written (incoming : Incoming) (head : Head) : List Entry :=
  (resolved (incoming.requestLine head)).1.headers.getD [] ++
    lateHeaders head incoming.request
      (head.staticFile (resolved (incoming.requestLine head)).1
        (incoming.hostEntries head ++
          headEntries head incoming.request (resolved (incoming.requestLine head)).1))

/-- The entries behind the content length: those of the client and those of the head. -/
theorem Incoming.added_eq (incoming : Incoming) (head : Head) :
    incoming.added head = incoming.hostEntries head ++ incoming.written head := by
  rw [added, completed, withFile, written, lateHeaders, hostEntries]
  generalize head.staticFile _ _ = file
  rw [headEntries]
  simp only [List.append_assoc]

/-- The names the head writes, in order. -/
def writtenNames : List (List UInt8) :=
  [reqUriName, reqPathName, queryStrName, fragmentName] ++ lateNames

theorem Line.header_names {line : Line} {name : List UInt8} {span : Span} {entries : List Entry}
    (found : line.header name span = some entries) :
    (entries.map Prod.fst).Sublist [name] := by
  unfold header at found
  cases start : span.str with
  | none =>
      rw [start] at found
      obtain rfl := Option.some.inj found
      exact List.nil_sublist _
  | some start' =>
      rw [start] at found
      obtain ⟨text, -, rfl⟩ := Option.map_eq_some_iff.mp found
      exact List.Sublist.refl _

theorem Line.headers_names {line : Line} {entries : List Entry}
    (found : line.headers = some entries) :
    (entries.map Prod.fst).Sublist [reqUriName, reqPathName, queryStrName, fragmentName] := by
  obtain ⟨uri, -, more⟩ := Option.bind_eq_some_iff.mp found
  obtain ⟨path, pathRead, last⟩ := Option.bind_eq_some_iff.mp more
  obtain ⟨query, queryRead, rfl⟩ := Option.map_eq_some_iff.mp last
  have fragment : (((line.fragment.map fun fragment =>
      (fragmentName, fragment.1)).toList).map Prod.fst).Sublist [fragmentName] := by
    cases line.fragment with
    | none => exact List.nil_sublist _
    | some text => exact List.Sublist.refl _
  rw [List.map_cons, List.map_append, List.map_append]
  exact (((header_names pathRead).append (header_names queryRead)).append fragment).cons_cons _

theorem lateHeaders_names (head : Head) (request : EbbRequest) (file : Option FilePath) :
    ((lateHeaders head request file).map Prod.fst).Sublist lateNames := by
  have secure : ((secureHeaders head).map Prod.fst).Sublist [httpsName] := by
    unfold secureHeaders
    split
    · exact List.Sublist.refl _
    · exact List.nil_sublist _
  have chunked : (chunkedHeader request).1 = chunkedName := by
    unfold chunkedHeader
    split
    · rfl
    · rfl
  have named : ((fileHeader file).map Prod.fst).Sublist [filePathName] := by
    cases file with
    | none => exact List.nil_sublist _
    | some path => exact List.Sublist.refl _
  rw [lateHeaders, List.map_append, List.map_append, List.map_cons, chunked]
  exact (secure.append (List.Sublist.refl [chunkedName, reqMethodName, svrPortName,
    httpCliIpName, httpVerName])).append named

/-- The head writes each of its names at most once. -/
theorem Incoming.written_names (incoming : Incoming) (head : Head) :
    ((incoming.written head).map Prod.fst).Sublist writtenNames := by
  rw [written, List.map_append]
  refine List.Sublist.append ?_ (lateHeaders_names head incoming.request _)
  cases found : (resolved (incoming.requestLine head)).1.headers with
  | none => exact List.nil_sublist _
  | some headers => exact Line.headers_names found

/-- A request whose entries have no NUL in their values is plain. -/
theorem Incoming.plain_of_values
    (values : ∀ item ∈ incoming.entries head, (0 : UInt8) ∉ item.2) : incoming.Plain := by
  have added : ∀ item ∈ incoming.hostEntries head ++ incoming.written head,
      (0 : UInt8) ∉ item.2 := by
    intro item member
    rw [← incoming.added_eq] at member
    exact values item (List.mem_cons_of_mem _ member)
  refine ⟨fun header member nul => ?_, ?_⟩
  · have client : header.entry ∈ incoming.clientEntries := List.mem_map_of_mem member
    have all : header.entry ∈ scgiEntry :: incoming.clientEntries :=
      List.mem_cons_of_mem _ client
    have listed : header.entry.2 ∈ (scgiEntry :: incoming.clientEntries).map Prod.snd :=
      List.mem_map_of_mem all
    obtain ⟨item, inside, same⟩ := List.mem_map.mp
      (mem_snd_hosted listed (resolved (incoming.requestLine head)).2)
    have plain := added item (List.mem_append_left _ inside)
    rw [same] at plain
    exact plain nul
  · have version : (httpVerName, versionText head incoming.request) ∈ incoming.written head := by
      rw [written]
      exact List.mem_append_right _ (by simp [lateHeaders, connectionHeaders])
    have plain := added _ (List.mem_append_right _ version)
    dsimp only at plain
    exact (plain_versionText head incoming.request).mp plain

/-- The entries of an accepted plain request are clean. -/
theorem Received.clean (received : Received head incoming req) (plain : incoming.Plain) :
    Clean (incoming.entries head) := by
  obtain ⟨values, fits⟩ := plain
  obtain ⟨headers, found⟩ := Option.isSome_iff_exists.mp received.headers
  obtain ⟨cleanLine, -, -⟩ := Line.clean_headers found
  obtain ⟨-, -, plainHost⟩ := resolved_spec (incoming.requestLine head)
  have cleanClient : ∀ item ∈ scgiEntry :: incoming.clientEntries,
      CleanName item.1 ∧ (0 : UInt8) ∉ item.2 := by
    intro item member
    rcases List.mem_cons.mp member with rfl | listed
    · exact Scgi.clean_scgiEntry _ List.mem_cons_self
    · obtain ⟨header, inside, rfl⟩ := List.mem_map.mp listed
      exact ⟨header.cleanName, values header inside⟩
  have cleanHosted : Clean (incoming.hostEntries head) := by
    intro item member
    rcases mem_hosted member with (listed | ⟨named, value⟩) | ⟨named, value⟩
    · exact cleanClient item listed
    · rw [named]
      obtain ⟨other, inside, same⟩ := List.mem_map.mp value
      rw [← same]
      exact ⟨by decide, (cleanClient other inside).2⟩
    · rw [named]
      exact ⟨by decide, (plainHost item.2 value.symm).1⟩
  have cleanWritten : Clean (incoming.written head) := by
    rw [Incoming.written, found, Option.getD_some]
    exact cleanLine.append (clean_lateHeaders _ fits)
  have cleanAdded : Clean (incoming.added head) := by
    rw [incoming.added_eq]
    exact cleanHosted.append cleanWritten
  exact (Scgi.clean_contentLengthEntry incoming.request.contentLength).append cleanAdded

/-- The block of an accepted request is far shorter than an `int` can count. -/
theorem Received.short (received : Received head incoming req) :
    (frame (incoming.entries head)).length < 2 ^ 31 := by
  obtain ⟨headers, found⟩ := Option.isSome_iff_exists.mp received.headers
  obtain ⟨-, -, lineSize⟩ := Line.clean_headers found
  obtain ⟨sameUri, sameFragment, hostSize⟩ := resolved_spec (incoming.requestLine head)
  obtain ⟨-, uriSize, fragmentSize⟩ := incoming.fits_requestLine head
  have shape := incoming.added_eq head
  rw [Incoming.written, found, Option.getD_some] at shape
  generalize head.staticFile _ _ = file at shape
  have lateSize := length_encode_lateHeaders head incoming.request file
  have clientSize := received.room
  have lengthSize := Scgi.length_contentLengthEntry_le incoming.request.contentLength
  have printed := Decimal.length_format_le (encode (incoming.entries head)).length
  have limits : Config.maxUriSize = 12288 ∧ Config.maxFragSize = 1024 ∧
      Config.maxHeaderSize = 112640 := ⟨rfl, rfl, rfl⟩
  rw [sameUri, sameFragment] at lineSize
  have hostedSize : (encode (incoming.hostEntries head)).length ≤
      Config.maxHeaderSize + 12288 + 11 := by
    rw [Incoming.hostEntries]
    cases host : (resolved (incoming.requestLine head)).2 with
    | none =>
        simp only [hosted_none]
        exact clientSize.trans (Nat.le_add_right_of_le (Nat.le_add_right _ _))
    | some text =>
        have textSize := (hostSize text host).2
        have named : hiddenHostName.length = hostName.length := by decide
        have nine : hostName.length = 9 := by decide
        rw [hosted_some, Scgi.encode_append, List.length_append, length_encode_renameLatest named,
          Scgi.encode_singleton, Scgi.length_encodeEntry]
        simp only
        omega
  have size : (encode (incoming.entries head)).length ≤ 200000 := by
    rw [Incoming.entries, Scgi.encode_cons, List.length_append, shape, Scgi.encode_append,
      Scgi.encode_append, List.length_append, List.length_append]
    omega
  rw [frame, List.length_append, List.length_cons, List.length_append, List.length_singleton]
  omega

end Request
