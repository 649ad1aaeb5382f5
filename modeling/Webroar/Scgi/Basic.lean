import Webroar.Library.Block
import Webroar.Library.Decimal

/-! # SCGI objects

The object of `wr_scgi.c` and the operations that build one. The head and a worker exchange
requests and responses as a netstring-like header block followed by a body:
`<length>:CONTENT_LENGTH\0<n>\0SCGI\01\0<name>\0<value>\0...,<body>`. The builder leaves room
in front of the headers and writes the content length and the block length backwards into it.

Allocation always succeeds here; what fresh memory contains is a parameter of `Scgi.new`.
Pointers to a caller's text are the text, never NULL. An operation that returns -1 in the
source returns `none`.
-/

/-- A recorded header: where its name and its value are in the header block. -/
structure ScgiHeader where
  fieldOffset : Nat
  valueOffset : Nat
  fieldLength : Nat
  valueLength : Nat
deriving DecidableEq, Repr

/-- Whether an object is being built or was parsed. -/
inductive ScgiType where
  | none
  | parse
  | build
deriving DecidableEq, Repr

/-- An SCGI request or response. -/
structure Scgi where
  /-- The header block. -/
  header : Block UInt8
  /-- The body, NULL until some of it was added or parsed. -/
  body : Option (List UInt8)
  headerSize : Nat
  headerLength : Nat
  headerOffset : Nat
  length : Nat
  startOffset : Nat
  bytesSent : Nat
  /-- The recorded headers, latest first. -/
  headerList : List ScgiHeader
  /-- The number of the client header that is being added. -/
  index : Int
  type : ScgiType

namespace Scgi

/-- The room left in front of the headers. -/
def startOffsetInit : Nat := 40

/-- The step by which the header block grows. -/
def headerBlockSize : Nat := 2048

/-- The name of the content length header. -/
def contentLengthName : List UInt8 := ascii "CONTENT_LENGTH"

/-- The number of body bytes held. -/
def bodyLength (scgi : Scgi) : Nat := (scgi.body.getD []).length

/-- The first length of the form `length + k * headerBlockSize` that is large enough. -/
def growLength (required length : Nat) : Nat :=
  if length < required then growLength required (length + headerBlockSize) else length
termination_by required - length
decreasing_by simp only [headerBlockSize]; omega

/-- Make the header block large enough for `required` bytes. Two more cells are allocated. -/
def memoryCheck (scgi : Scgi) (required : Nat) : Scgi :=
  if scgi.headerSize < required then
    let length := growLength required (scgi.headerSize + headerBlockSize)
    { scgi with header := scgi.header.resize (length + 2), headerSize := length }
  else
    scgi

/-- Add a header with its whole name and value. -/
def headerAdd (scgi : Scgi) (field value : List UInt8) : Scgi :=
  let scgi := scgi.memoryCheck (scgi.headerOffset + field.length + value.length + 2)
  let fieldOffset := scgi.headerOffset
  let valueOffset := fieldOffset + field.length + 1
  { scgi with
    header := (((scgi.header.write fieldOffset field).write (fieldOffset + field.length) [0]).write
      valueOffset value).write (valueOffset + value.length) [0]
    headerOffset := valueOffset + value.length + 1
    headerList := ⟨fieldOffset, valueOffset, field.length, value.length⟩ :: scgi.headerList }

/-- A new object holds the `SCGI` header; `junk` is what its fresh header block contains. -/
def new (junk : Nat → UInt8) : Scgi :=
  let length := max headerBlockSize (startOffsetInit + 2)
  let scgi : Scgi :=
    { header := ⟨length, junk, false⟩
      body := none
      headerSize := length - 2
      headerLength := 0
      headerOffset := startOffsetInit
      length := 0
      startOffset := startOffsetInit
      bytesSent := 0
      headerList := []
      index := -1
      type := .none }
  scgi.headerAdd (ascii "SCGI") (ascii "1")

/-- Write the content length header backwards from the first header. -/
def contentLengthAdd (scgi : Scgi) (length : Nat) : Scgi :=
  let value := Decimal.format length
  let valueOffset := startOffsetInit - value.length - 1
  { scgi with
    header := (((scgi.header.write (scgi.startOffset - 1) [0]).write valueOffset value).write
      (valueOffset - 1) [0]).write (valueOffset - (contentLengthName.length + 1)) contentLengthName
    startOffset := valueOffset - (contentLengthName.length + 1) }

/-- Append bytes to the body. -/
def bodyAdd (scgi : Scgi) (body : List UInt8) : Scgi :=
  { scgi with body := some (scgi.body.getD [] ++ body) }

/-- The ASCII upper case of a byte. -/
def toUpper (byte : UInt8) : UInt8 := if 97 ≤ byte && byte ≤ 122 then byte &&& ~~~0x20 else byte

/-- The byte a client header name is stored with: dashes become underscores. -/
def envByte (byte : UInt8) : UInt8 := if byte = 45 then 95 else toUpper byte

/-- Add a piece of the name of client header `index`. -/
def headerFieldAdd (scgi : Scgi) (field : List UInt8) (index : Int) : Option Scgi :=
  if index < scgi.index then
    none
  else if scgi.index = index then
    match scgi.headerList with
    | [] => none
    | last :: rest =>
        if last.valueOffset ≠ 0 then
          none
        else
          let scgi := scgi.memoryCheck (scgi.headerOffset + field.length)
          -- The piece starts on the NUL that ended the name so far.
          let start := scgi.headerOffset - 1
          let headerOffset := scgi.headerOffset + field.length
          some { scgi with
            header := ((scgi.header.write start field).write (headerOffset - 1) [0]).modify
              start (headerOffset - start) envByte
            headerOffset := headerOffset
            headerList := { last with fieldLength := last.fieldLength + field.length } :: rest }
  else
    let scgi := { scgi with index := index }.memoryCheck (scgi.headerOffset + field.length + 1)
    let start := scgi.headerOffset
    let headerOffset := start + (field.length + 1)
    some { scgi with
      header := ((scgi.header.write start field).write (headerOffset - 1) [0]).modify
        start (headerOffset - start) envByte
      headerOffset := headerOffset
      headerList := ⟨start, 0, field.length, 0⟩ :: scgi.headerList }

/-- Add a piece of the value of client header `index`. -/
def headerValueAdd (scgi : Scgi) (value : List UInt8) (index : Int) : Option Scgi :=
  if index ≠ scgi.index then
    none
  else
    match scgi.headerList with
    | [] => none
    | last :: rest =>
        if last.valueOffset = 0 then
          let scgi := scgi.memoryCheck (scgi.headerOffset + value.length + 1)
          let headerOffset := scgi.headerOffset + (value.length + 1)
          some { scgi with
            header := (scgi.header.write scgi.headerOffset value).write (headerOffset - 1) [0]
            headerOffset := headerOffset
            headerList :=
              { last with valueOffset := scgi.headerOffset, valueLength := value.length } :: rest }
        else
          let scgi := scgi.memoryCheck (scgi.headerOffset + value.length)
          let headerOffset := scgi.headerOffset + value.length
          some { scgi with
            header := (scgi.header.write (scgi.headerOffset - 1) value).write
              (headerOffset - 1) [0]
            headerOffset := headerOffset
            headerList := { last with valueLength := last.valueLength + value.length } :: rest }

/-- Add the content length of the body unless one was added already. -/
def contentLengthCheck (scgi : Scgi) : Scgi :=
  if scgi.startOffset = startOffsetInit then scgi.contentLengthAdd scgi.bodyLength else scgi

/-- Put the length of the headers and a colon in front of them and a comma behind. -/
def close (scgi : Scgi) : Scgi :=
  let headerLength := scgi.headerOffset - scgi.startOffset
  let lengthStr := Decimal.format headerLength ++ ascii ":"
  let startOffset := scgi.startOffset - lengthStr.length
  { scgi with
    header := (scgi.header.write startOffset lengthStr).write scgi.headerOffset (ascii ",")
    headerLength := headerLength
    startOffset := startOffset
    headerOffset := scgi.headerOffset + 1
    length := scgi.headerOffset + 1 - startOffset + scgi.bodyLength }

/-- Finish the header block. -/
def build (scgi : Scgi) : Scgi :=
  { scgi with type := .build }.contentLengthCheck.close

/-- The finished header block. -/
def block (scgi : Scgi) : List UInt8 :=
  scgi.header.slice scgi.startOffset (scgi.headerOffset - scgi.startOffset)

/-- What is sent: the finished header block and the body. -/
def wire (scgi : Scgi) : List UInt8 := scgi.block ++ scgi.body.getD []

/-- The latest header of a name. -/
def headerGet (scgi : Scgi) (field : List UInt8) : Option ScgiHeader :=
  scgi.headerList.find? fun header =>
    field.length = header.fieldLength &&
      scgi.header.slice header.fieldOffset field.length = field

/-- The text in memory from a cell up to the next NUL. -/
def textAt (scgi : Scgi) (offset : Nat) : List UInt8 :=
  (scgi.header.slice offset (scgi.header.size - offset)).takeWhile (· ≠ 0)

/-- The value of the latest header of a name, as the text its pointer shows. -/
def headerValueGet (scgi : Scgi) (field : List UInt8) : Option (List UInt8) :=
  (scgi.headerGet field).map fun header => scgi.textAt header.valueOffset

/-- A recorded header as the bytes of its name and its value. -/
def entry (scgi : Scgi) (header : ScgiHeader) : List UInt8 × List UInt8 :=
  (scgi.header.slice header.fieldOffset header.fieldLength,
    scgi.header.slice header.valueOffset header.valueLength)

/-- The recorded headers in the order they were added. -/
def entries (scgi : Scgi) : List (List UInt8 × List UInt8) :=
  scgi.headerList.reverse.map scgi.entry

end Scgi
