import Mathlib

/-! # Compressed streams

A compressor puts out one stream for an input, in as many pieces as its caller has room for, and
says with a code whether that was all of it. What its caller relies on is a contract; a compressor
that stores its input is one that meets it.
-/

/-- The codes of zlib. -/
inductive ZCode where
  | ok
  | streamEnd
  | errno
  | streamError
  | dataError
  | memError
  | bufError
  | versionError
deriving DecidableEq, Repr

/-- A compressor: the calls of zlib with their results, and the streams they are about. -/
structure Zlib where
  deflateInit2 : ZCode
  /-- `deflate` with `Z_FINISH`: the code, and the bytes behind the first `totalOut` of the stream
  that are written to `availOut` places. -/
  deflate (input : List UInt8) (totalOut availOut : Nat) : ZCode × List UInt8
  /-- `deflateEnd` when `totalOut` bytes of the stream were written. -/
  deflateEnd (input : List UInt8) (totalOut : Nat) : ZCode
  /-- `compress2`: the code, and the bytes that are written to `size` places. -/
  compress2 (input : List UInt8) (size : Nat) : ZCode × List UInt8
  /-- The stream `deflate` makes of an input. -/
  gzip (input : List UInt8) : List UInt8
  /-- What a reader of gzip makes of a stream. -/
  gunzip (stream : List UInt8) : Option (List UInt8)
  /-- What a reader of zlib streams makes of a stream. -/
  inflate (stream : List UInt8) : Option (List UInt8)

namespace Zlib

/-- `deflate` ends when the rest of the stream fits, and otherwise fills what room there is; a stream
that ends early is not read as its input; `compress2` is complete or fails. -/
structure Contract (zlib : Zlib) : Prop where
  fits (input : List UInt8) (totalOut availOut : Nat) :
    (zlib.gzip input).length ≤ totalOut + availOut →
    zlib.deflate input totalOut availOut = (.streamEnd, (zlib.gzip input).drop totalOut)
  full (input : List UInt8) (totalOut availOut : Nat) : 0 < availOut →
    totalOut + availOut < (zlib.gzip input).length →
    zlib.deflate input totalOut availOut =
      (.ok, ((zlib.gzip input).drop totalOut).take availOut)
  stuck (input : List UInt8) (totalOut : Nat) : totalOut < (zlib.gzip input).length →
    zlib.deflate input totalOut 0 = (.bufError, [])
  ended (input : List UInt8) : zlib.deflateEnd input (zlib.gzip input).length = .ok
  read (input : List UInt8) : zlib.gunzip (zlib.gzip input) = some input
  refused {input part : List UInt8} : part <+: zlib.gzip input → part ≠ zlib.gzip input →
    zlib.gunzip part ≠ some input
  complete {input : List UInt8} {size : Nat} : (zlib.compress2 input size).1 = .ok →
    zlib.inflate (zlib.compress2 input size).2 = some input

/-! ### A compressor that stores -/

/-- A number in four bytes, the lowest first. -/
def littleEndian (n : UInt32) : List UInt8 :=
  [n.toUInt8, (n >>> 8).toUInt8, (n >>> 16).toUInt8, (n >>> 24).toUInt8]

/-- One bit of the checksum of gzip. -/
def crcBit (crc : UInt32) : UInt32 :=
  if crc &&& 1 = 1 then (crc >>> 1) ^^^ 0xEDB88320 else crc >>> 1

/-- The checksum of gzip. -/
def crc32 (data : List UInt8) : UInt32 :=
  ~~~ data.foldl (fun crc byte => crcBit^[8] (crc ^^^ byte.toUInt32)) 0xFFFFFFFF

/-- The checksum of zlib streams, in four bytes, the highest first. -/
def adler32 (data : List UInt8) : List UInt8 :=
  let (a, b) := data.foldl (fun sums byte =>
    let a := (sums.1 + byte.toUInt32) % 65521
    (a, (sums.2 + a) % 65521)) ((1, 0) : UInt32 × UInt32)
  (littleEndian (b * 65536 + a)).reverse

/-- The head of a block that is the last one and stored. -/
def storedHead (length : Nat) : List UInt8 :=
  let low := UInt8.ofNat length
  let high := UInt8.ofNat (length / 256)
  [1, low, high, ~~~ low, ~~~ high]

/-- A gzip stream of one stored block. -/
def storedGzip (input : List UInt8) : List UInt8 :=
  [0x1f, 0x8b, 8, 0, 0, 0, 0, 0, 0, 3] ++ storedHead input.length ++ input ++
    littleEndian (crc32 input) ++ littleEndian (UInt32.ofNat input.length)

/-- A zlib stream of one stored block. -/
def storedZlib (input : List UInt8) : List UInt8 :=
  [0x78, 0x9c] ++ storedHead input.length ++ input ++ adler32 input

/-- The input of a stream that has `front` bytes in front of it and `behind` bytes behind it. -/
def readStored (encode : List UInt8 → List UInt8) (front behind : Nat) (stream : List UInt8) :
    Option (List UInt8) :=
  let input := (stream.drop front).take (stream.length - (front + behind))
  if encode input = stream then some input else none

/-- A compressor that puts its input into one stored block, as zlib does with a short text it finds
no repetition in. It frees a stream with `Z_OK` once all of its input is taken. -/
def storing : Zlib where
  deflateInit2 := .ok
  deflate input totalOut availOut :=
    if (storedGzip input).length ≤ totalOut + availOut then
      (.streamEnd, (storedGzip input).drop totalOut)
    else if availOut = 0 then (.bufError, [])
    else (.ok, ((storedGzip input).drop totalOut).take availOut)
  deflateEnd _ _ := .ok
  compress2 input size :=
    if (storedZlib input).length ≤ size then (.ok, storedZlib input) else (.bufError, [])
  gzip := storedGzip
  gunzip := readStored storedGzip 15 8
  inflate := readStored storedZlib 7 4

theorem length_storedZlib (input : List UInt8) : (storedZlib input).length = input.length + 11 := by
  simp only [storedZlib, storedHead, adler32, littleEndian, List.length_append, List.length_cons,
    List.length_nil, List.length_reverse]
  omega

/-- A stream is read as the input it was made of. -/
theorem readStored_eq {encode : List UInt8 → List UInt8} {input head tail : List UInt8}
    {front behind : Nat} (shape : encode input = head ++ (input ++ tail))
    (before : head.length = front) (after : tail.length = behind) :
    readStored encode front behind (encode input) = some input := by
  have cut : ((encode input).drop front).take ((encode input).length - (front + behind)) =
      input := by
    rw [shape, ← before, ← after, List.drop_left, List.length_append, List.length_append,
      List.take_append_of_le_length (by omega), List.take_of_length_le (by omega)]
  rw [readStored, cut, if_pos rfl]

/-- What is read as an input is its whole stream. -/
theorem eq_of_readStored {encode : List UInt8 → List UInt8} {front behind : Nat}
    {stream input : List UInt8} (read : readStored encode front behind stream = some input) :
    stream = encode input := by
  unfold readStored at read
  dsimp only at read
  split_ifs at read with same
  cases read
  exact same.symm

theorem storing_contract : storing.Contract where
  fits _ _ _ room := if_pos room
  full _ _ _ room rest :=
    (if_neg (Nat.not_le_of_lt rest)).trans (if_neg (Nat.ne_of_gt room))
  stuck _ _ rest := (if_neg (Nat.not_le_of_lt rest)).trans (if_pos rfl)
  ended _ := rfl
  read input := by
    have shape : storedGzip input =
        ([0x1f, 0x8b, 8, 0, 0, 0, 0, 0, 0, 3] ++ storedHead input.length) ++
          (input ++ (littleEndian (crc32 input) ++ littleEndian (UInt32.ofNat input.length))) := by
      rw [storedGzip]
      simp only [List.append_assoc]
    exact readStored_eq shape rfl rfl
  refused _ other read := other (eq_of_readStored read)
  complete := by
    intro input size whole
    have shape : storedZlib input =
        ([0x78, 0x9c] ++ storedHead input.length) ++ (input ++ adler32 input) := by
      rw [storedZlib]
      simp only [List.append_assoc]
    have read : readStored storedZlib 7 4 (storedZlib input) = some input :=
      readStored_eq shape rfl rfl
    unfold storing at whole ⊢
    dsimp only at whole ⊢
    split_ifs at whole ⊢ with room
    exact read

end Zlib
