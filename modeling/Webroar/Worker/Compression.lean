import Webroar.Library.Loop
import Webroar.Library.Zlib
import Webroar.Worker.MimeType

/-! # Compression of static files

The static worker compresses a file whose size is between two limits when the client takes an
encoding it has. The file is read into a buffer, and the compressed bytes are written to another one
whose size is a little more than that of the file; when they do not fit the file is sent as it is.
The length of what `fread` returns and the lengths a `z_stream` takes have 32 bits.
-/

namespace StaticServer

/-- `WR_DEFLATE_ENCODING` and `WR_GZIP_ENCODING`. -/
inductive ContentEncoding where
  | deflate
  | gzip
deriving DecidableEq, Repr

/-- What is compressed: the limits, and the expressions that a worker built with `W_REGEX` has. -/
structure Compress where
  lowerLimit : Nat
  upperLimit : Nat
  /-- `r_content_type` and `r_user_agent`; nothing in a worker that is built without `W_REGEX`. -/
  regex : Option (Option (List UInt8 → Bool) × Option (List UInt8 → Bool))

/-- The values of the header fields of a request. -/
abbrev Values := List UInt8 → Option Text

/-- `strstr`, for the value of a field that may be missing. -/
def mentions (value : Option Text) (needle : List UInt8) : Bool :=
  value.any fun text => (strstr text.1 needle).isSome

namespace Compress

/-- Is this type compressed for this client? -/
def accepts (compress : Compress) (mimeType : List UInt8) (userAgent : Option Text) : Bool :=
  match compress.regex with
  | some (contentType, agent) =>
      contentType.all (· mimeType) &&
        agent.all fun matching => userAgent.all fun text => matching text.1
  | none =>
      (strstr mimeType (ascii "text")).isSome || (strstr mimeType (ascii "xml")).isSome ||
        (strstr mimeType (ascii "css")).isSome || (strstr mimeType (ascii "javascript")).isSome

/-- The encoding that `file_compress` goes to the file with. -/
def wanted (compress : Compress) (values : Values) (mimeType : List UInt8) (size : Nat) :
    Option ContentEncoding :=
  let encoding := values (ascii "HTTP_ACCEPT_ENCODING")
  let userAgent := values (ascii "HTTP_USER_AGENT")
  if mentions (values (ascii "Cache-Control")) (ascii "no-transform") then none
  else if mentions userAgent (ascii "MSIE 6.0") then none
  else if compress.lowerLimit ≤ size ∧ size ≤ compress.upperLimit ∧ encoding.isSome then
    if mentions encoding (ascii "gzip") then
      if compress.accepts mimeType userAgent then some .gzip else none
    else if mentions encoding (ascii "deflate") then
      if compress.accepts mimeType userAgent then some .deflate else none
    else none
  else none

end Compress

/-- The file while it is read: the bytes of the buffer, its length, and where in the file the next
call reads. -/
structure Reading where
  str : List UInt8
  len : Nat
  pos : Nat

/-- One turn of the loop around `fread`. -/
def readTurn (content : List UInt8) (size : Nat) (reading : Reading) :
    Turn Reading (List UInt8) :=
  if reading.len < size then
    let bytes := (content.drop reading.pos).take (size - reading.len)
    -- the count goes through an `unsigned int`
    .again ⟨reading.str.take reading.len ++ bytes, reading.len + bytes.length % 2 ^ 32,
      reading.pos + bytes.length⟩
  else .halt (reading.str.take reading.len)

/-- One turn of the loop around `deflate`, with what is written so far. -/
def deflateTurn (zlib : Zlib) (input : List UInt8) (size : Nat) (written : List UInt8) :
    Turn (List UInt8) (ZCode × List UInt8) :=
  let availOut := (size - written.length) % 2 ^ 32
  let (err, bytes) := zlib.deflate input written.length availOut
  if err = .ok then .again (written ++ bytes) else .halt (err, written ++ bytes)

/-- `gzip_file_compression`, into a buffer of some size; nothing while the loop goes on. -/
def gzipFileCompression (zlib : Zlib) (fuel : Nat) (buffer : List UInt8) (size : Nat) :
    Option (Option (List UInt8)) :=
  if zlib.deflateInit2 ≠ .ok then some none
  else
    let input := buffer.take (buffer.length % 2 ^ 32)
    match Loop.drive (deflateTurn zlib input size) fuel [] with
    | .halt (_, written) =>
        -- `if (err = Z_STREAM_END)` assigns: every code leads here
        if zlib.deflateEnd input written.length ≠ .ok then some none else some (some written)
    | .again _ => none
    | .fault => none

/-- `deflate_file_compression`, into a buffer of some size. -/
def deflateFileCompression (zlib : Zlib) (buffer : List UInt8) (size : Nat) :
    Option (List UInt8) :=
  let (err, written) := zlib.compress2 buffer size
  if err ≠ .ok then none else some written

/-- `st_size * 1.01 + 12`; a double has all digits of it for a file that is read. -/
def bufferSize (size : Nat) : Nat := size * 101 / 100 + 12

/-- `file_compress`, for a file that opens with some content, or does not. It comes back without a
body when the file is to be sent as it is. -/
def fileCompress (zlib : Zlib) (compress : Compress) (fuel : Nat) (values : Values)
    (mimeType : List UInt8) (size : Nat) (file : Option (List UInt8)) :
    Option (Option (ContentEncoding × List UInt8)) :=
  match compress.wanted values mimeType size, file with
  | none, _ => some none
  | some _, none => some none
  | some encoding, some content =>
      match Loop.drive (readTurn content size) fuel ⟨[], 0, 0⟩ with
      | .halt buffer =>
          match encoding with
          | .gzip => (gzipFileCompression zlib fuel buffer (bufferSize size)).map
              fun body => body.map fun written => (.gzip, written)
          | .deflate => some ((deflateFileCompression zlib buffer (bufferSize size)).map
              fun written => (.deflate, written))
      | .again _ => none
      | .fault => none

/-! ### The loops -/

variable {zlib : Zlib} {compress : Compress} {values : Values} {mimeType content : List UInt8}
  {size fuel : Nat}

/-- A file of less than 4 GiB is read in one turn. -/
theorem drive_readTurn (whole : content.length = size) (small : size < 2 ^ 32) (fuel : Nat) :
    Loop.drive (readTurn content size) (fuel + 2) ⟨[], 0, 0⟩ = .halt content := by
  have last : ∀ reading : Reading, reading.str = content → reading.len = size →
      readTurn content size reading = .halt content := by
    intro reading str len
    rw [readTurn, if_neg (by omega), str, len, List.take_of_length_le (by omega)]
  by_cases empty : size = 0
  · rw [Loop.drive, last ⟨[], 0, 0⟩ (List.eq_nil_of_length_eq_zero (by omega)).symm empty.symm]
  · have bytes : (content.drop 0).take (size - 0) = content := by
      rw [List.drop_zero, List.take_of_length_le (by omega)]
    have first : readTurn content size ⟨[], 0, 0⟩ = .again ⟨content, size, size⟩ := by
      unfold readTurn
      dsimp only
      rw [if_pos (by omega), bytes, whole, Nat.mod_eq_of_lt small, List.take_nil, List.nil_append,
        Nat.zero_add]
    rw [Loop.drive, first]
    dsimp only
    rw [Loop.drive, last _ rfl rfl]

/-- A file of 4 GiB or more is read for ever. -/
theorem drive_readTurn_large (whole : content.length = size) (large : 2 ^ 32 ≤ size) (fuel : Nat) :
    ∃ reading, Loop.drive (readTurn content size) fuel ⟨[], 0, 0⟩ = .again reading := by
  have stays : ∀ fuel (reading : Reading), reading.len < size → reading.pos = size →
      ∃ later, Loop.drive (readTurn content size) fuel reading = .again later := by
    intro fuel
    induction fuel with
    | zero => exact fun reading _ _ => ⟨reading, rfl⟩
    | succ fuel ih =>
        intro reading short behind
        have bytes : (content.drop reading.pos).take (size - reading.len) = [] := by
          rw [List.drop_eq_nil_of_le (by omega), List.take_nil]
        rw [Loop.drive, readTurn, if_pos short, bytes]
        dsimp only
        exact ih _ (by simpa using short) behind
  cases fuel with
  | zero => exact ⟨_, rfl⟩
  | succ fuel =>
      have bytes : (content.drop 0).take (size - 0) = content := by
        rw [List.drop_zero, List.take_of_length_le (by omega)]
      rw [Loop.drive, readTurn]
      dsimp only
      rw [if_pos (by omega), bytes, whole]
      have wraps : size % 2 ^ 32 < 2 ^ 32 := Nat.mod_lt _ (by decide)
      exact stays fuel _ (by dsimp only; omega) (Nat.zero_add size)

/-- A turn of the loop around `deflate`, with the result of the call. -/
theorem deflateTurn_eq {input written bytes : List UInt8} {err : ZCode}
    (called : zlib.deflate input written.length ((size - written.length) % 2 ^ 32) = (err, bytes)) :
    deflateTurn zlib input size written =
      if err = .ok then .again (written ++ bytes) else .halt (err, written ++ bytes) := by
  simp only [deflateTurn, called]

/-- The loop around `deflate` ends, with as much of the stream as the low 32 bits of the size say. -/
theorem drive_deflateTurn (contract : zlib.Contract) (input : List UInt8) (size fuel : Nat) :
    ∃ err, Loop.drive (deflateTurn zlib input size) (fuel + 2) [] =
      .halt (err, (zlib.gzip input).take (size % 2 ^ 32)) := by
  have stopped : ∀ written : List UInt8, written.length = size % 2 ^ 32 →
      size % 2 ^ 32 < (zlib.gzip input).length →
      deflateTurn zlib input size written = .halt (.bufError, written) := by
    intro written length rest
    have full : (size - written.length) % 2 ^ 32 = 0 := by omega
    have called := contract.stuck input written.length (by omega)
    rw [← full] at called
    rw [deflateTurn_eq called, if_neg (by decide), List.append_nil]
  by_cases fits : (zlib.gzip input).length ≤ size % 2 ^ 32
  · have called := contract.fits input 0 (size % 2 ^ 32) (by omega)
    refine ⟨.streamEnd, ?_⟩
    rw [Loop.drive, deflateTurn_eq called, if_neg (by decide), List.nil_append, List.drop_zero,
      List.take_of_length_le fits]
  · refine ⟨.bufError, ?_⟩
    by_cases empty : size % 2 ^ 32 = 0
    · rw [Loop.drive, stopped [] empty.symm (by omega), empty, List.take_zero]
    · have called := contract.full input 0 (size % 2 ^ 32) (by omega) (by omega)
      rw [Loop.drive, deflateTurn_eq called, if_pos rfl, List.nil_append, List.drop_zero]
      dsimp only
      rw [Loop.drive, stopped _ (List.length_take_of_le (by omega)) (by omega)]

/-! ### What is compressed -/

/-- Nothing more comes from a call that came back. -/
theorem gzipFileCompression_add {buffer : List UInt8} {result : Option (List UInt8)}
    (back : gzipFileCompression zlib fuel buffer size = some result) (more : Nat) :
    gzipFileCompression zlib (fuel + more) buffer size = some result := by
  unfold gzipFileCompression at back ⊢
  dsimp only at back ⊢
  split_ifs at back ⊢ with init
  · exact back
  · cases driven : Loop.drive (deflateTurn zlib (buffer.take (buffer.length % 2 ^ 32)) size) fuel [] with
    | again state =>
        rw [driven] at back
        cases back
    | fault =>
        rw [driven] at back
        cases back
    | halt last =>
        rw [driven] at back
        rw [Loop.drive_add driven]
        exact back

theorem fileCompress_add {file : Option (List UInt8)}
    {result : Option (ContentEncoding × List UInt8)}
    (back : fileCompress zlib compress fuel values mimeType size file = some result) (more : Nat) :
    fileCompress zlib compress (fuel + more) values mimeType size file = some result := by
  unfold fileCompress at back ⊢
  cases wants : compress.wanted values mimeType size with
  | none =>
      rw [wants] at back
      exact back
  | some encoding =>
      cases file with
      | none =>
          rw [wants] at back
          exact back
      | some content =>
          rw [wants] at back
          dsimp only at back ⊢
          cases driven : Loop.drive (readTurn content size) fuel ⟨[], 0, 0⟩ with
          | again state =>
              rw [driven] at back
              cases back
          | fault =>
              rw [driven] at back
              cases back
          | halt buffer =>
              rw [driven] at back
              rw [Loop.drive_add driven]
              cases encoding with
              | deflate => exact back
              | gzip =>
                  dsimp only at back ⊢
                  obtain ⟨body, written, rfl⟩ := Option.map_eq_some_iff.mp back
                  rw [gzipFileCompression_add written]
                  rfl

/-- What a compression comes back with. -/
theorem gzipFileCompression_eq (contract : zlib.Contract) (small : content.length < 2 ^ 32)
    (size fuel : Nat) : gzipFileCompression zlib (fuel + 2) content size =
      some (if zlib.deflateInit2 = .ok ∧
          zlib.deflateEnd content (min (size % 2 ^ 32) (zlib.gzip content).length) = .ok then
        some ((zlib.gzip content).take (size % 2 ^ 32)) else none) := by
  obtain ⟨err, driven⟩ := drive_deflateTurn contract content size fuel
  have input : content.take (content.length % 2 ^ 32) = content := by
    rw [Nat.mod_eq_of_lt small, List.take_length]
  unfold gzipFileCompression
  dsimp only
  rw [input, driven]
  dsimp only
  rw [List.length_take]
  by_cases init : zlib.deflateInit2 = .ok
  · by_cases ended : zlib.deflateEnd content (min (size % 2 ^ 32) (zlib.gzip content).length) = .ok
    · rw [if_neg (not_not_intro init), if_neg (not_not_intro ended), if_pos ⟨init, ended⟩]
    · rw [if_neg (not_not_intro init), if_pos ended, if_neg (fun both => ended both.2)]
  · rw [if_pos init, if_neg (fun both => init both.1)]

/-- The body that a file of less than 4 GiB is compressed to. -/
def compressed (zlib : Zlib) (content : List UInt8) :
    ContentEncoding → Option (ContentEncoding × List UInt8)
  | .gzip =>
      let room := bufferSize content.length % 2 ^ 32
      if zlib.deflateInit2 = .ok ∧
          zlib.deflateEnd content (min room (zlib.gzip content).length) = .ok then
        some (.gzip, (zlib.gzip content).take room)
      else none
  | .deflate =>
      let (err, written) := zlib.compress2 content (bufferSize content.length)
      if err ≠ .ok then none else some (.deflate, written)

/-- What `file_compress` comes back with. -/
theorem fileCompress_eq (contract : zlib.Contract) (whole : content.length = size)
    (small : compress.wanted values mimeType size ≠ none → size < 2 ^ 32) (fuel : Nat) :
    fileCompress zlib compress (fuel + 2) values mimeType size (some content) =
      some ((compress.wanted values mimeType size).bind (compressed zlib content)) := by
  unfold fileCompress
  cases wants : compress.wanted values mimeType size with
  | none => rfl
  | some encoding =>
      have few := small (by rw [wants]; exact Option.some_ne_none encoding)
      dsimp only
      rw [drive_readTurn whole few]
      subst whole
      cases encoding with
      | gzip =>
          dsimp only
          rw [gzipFileCompression_eq contract few, Option.map_some, Option.bind_some, compressed]
          split_ifs <;> rfl
      | deflate =>
          dsimp only
          rw [Option.bind_some, compressed, deflateFileCompression]
          dsimp only
          split_ifs <;> rfl

/-- A file of 4 GiB or more that is to be compressed keeps the worker. -/
theorem fileCompress_large (whole : content.length = size) (large : 2 ^ 32 ≤ size)
    {encoding : ContentEncoding} (wants : compress.wanted values mimeType size = some encoding)
    (fuel : Nat) : fileCompress zlib compress fuel values mimeType size (some content) = none := by
  obtain ⟨reading, driven⟩ := drive_readTurn_large whole large fuel
  unfold fileCompress
  rw [wants]
  dsimp only
  rw [driven]

/-- A body is in the encoding it was to be in. -/
theorem compressed_encoding {encoding used : ContentEncoding} {body : List UInt8}
    (made : compressed zlib content encoding = some (used, body)) : used = encoding := by
  cases encoding with
  | gzip =>
      unfold compressed at made
      dsimp only at made
      split_ifs at made with done
      cases made
      rfl
  | deflate =>
      unfold compressed at made
      dsimp only at made
      split_ifs at made with done
      cases made
      rfl

end StaticServer
