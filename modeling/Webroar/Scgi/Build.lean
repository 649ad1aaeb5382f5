import Webroar.Scgi.Layout

/-! # Finished header blocks

`build` writes the content length header and the length of the whole header block backwards in
front of the headers and a comma behind them. What results is the frame of the entries: their
length in decimal, a colon, their bytes and a comma. The recorded headers stay where they are,
so lookups in the builder do not see the content length that was written in front of them.
-/

namespace Scgi

/-- The content length header as an entry. -/
def contentLengthEntry (length : Nat) : Entry := (contentLengthName, Decimal.format length)

/-- A finished header block. -/
def frame (items : List Entry) : List UInt8 :=
  Decimal.format (encode items).length ++ 58 :: (encode items ++ [44])

variable {scgi : Scgi} {front : List UInt8} {items : List Entry} {opened : Option (List UInt8)}

@[simp] theorem length_contentLengthName : contentLengthName.length = 14 := by decide

theorem length_contentLengthEntry_le (length : Nat) :
    (encodeEntry (contentLengthEntry length)).length ≤ 27 := by
  have bound := Decimal.length_format_le length
  rw [length_encodeEntry]
  simp only [contentLengthEntry, length_contentLengthName]
  omega

/-- Of the four writes of a content length the first ends what is before the start offset and
the others are one write of the header but for its last NUL. -/
theorem contentLengthAdd_writes (scgi : Scgi) (length : Nat) :
    ∃ place, place + (contentLengthName ++ 0 :: Decimal.format length).length + 1 =
        startOffsetInit ∧
      scgi.contentLengthAdd length =
        { scgi with
          header := (scgi.header.write (scgi.startOffset - 1) [0]).write place
            (contentLengthName ++ 0 :: Decimal.format length)
          startOffset := place } := by
  have bound := Decimal.length_format_le length
  unfold Scgi.contentLengthAdd
  rw [length_contentLengthName, List.length_append, List.length_cons, length_contentLengthName]
  have room : startOffsetInit = 40 := rfl
  generalize startOffsetInit = top at room
  generalize Decimal.format length = digits at bound
  refine ⟨top - digits.length - 1 - (14 + 1), by omega, ?_⟩
  generalize scgi.header.write (scgi.startOffset - 1) [0] = header
  have ended : (header.write (top - digits.length - 1) digits).write
      (top - digits.length - 1 - 1) [0] =
        header.write (top - digits.length - 1 - 1) (0 :: digits) :=
    Block.write_write_prepend _ (by simp only [List.length_cons, List.length_nil]; omega)
  have named : (header.write (top - digits.length - 1 - 1) (0 :: digits)).write
      (top - digits.length - 1 - (14 + 1)) contentLengthName =
        header.write (top - digits.length - 1 - (14 + 1)) (contentLengthName ++ 0 :: digits) :=
    Block.write_write_prepend _ (by rw [length_contentLengthName]; omega)
  simp only [ended, named]

theorem contentLengthEntry_ended (length : Nat) :
    encodeEntry (contentLengthEntry length) =
      (contentLengthName ++ 0 :: Decimal.format length) ++ [0] :=
  encodeEntry_ended _ _

/-- The four writes of a content length are one write of its entry before the first header. -/
theorem contentLengthAdd_eq (scgi : Scgi) (length : Nat)
    (start : scgi.startOffset = startOffsetInit) :
    ∃ place, place + (encodeEntry (contentLengthEntry length)).length = startOffsetInit ∧
      scgi.contentLengthAdd length =
        { scgi with
          header := scgi.header.write place (encodeEntry (contentLengthEntry length))
          startOffset := place } := by
  obtain ⟨place, placed, written⟩ := contentLengthAdd_writes scgi length
  rw [contentLengthEntry_ended]
  refine ⟨place, ?_, ?_⟩
  · rw [List.length_append, List.length_singleton, ← Nat.add_assoc, placed]
  · have last : scgi.startOffset - 1 =
        place + (contentLengthName ++ 0 :: Decimal.format length).length := by
      rw [start, ← placed, Nat.add_sub_cancel]
    rw [written, Block.write_write_prepend _ last]

/-- The content length goes in front of what was there. -/
theorem Layout.contentLengthAdd (layout : scgi.Layout [] items opened) (length : Nat) :
    (scgi.contentLengthAdd length).Layout (encodeEntry (contentLengthEntry length)) items
      opened := by
  have start : scgi.startOffset = startOffsetInit := layout.start
  obtain ⟨place, placed, written⟩ := contentLengthAdd_eq scgi length start
  have extended : contents (encodeEntry (contentLengthEntry length)) items opened =
      encodeEntry (contentLengthEntry length) ++ contents [] items opened := by
    simp [contents]
  have sized := layout.size
  have measured := layout.offset
  have room := layout.room
  rw [← start] at placed
  rw [written]
  refine ⟨?_, sized, ?_, ?_, room, ?_, layout.list⟩
  · simp only
    rw [Block.wild_write_of_le, layout.fits]
    omega
  · exact placed.trans start
  · rw [extended, List.length_append]
    simp only
    omega
  · rw [extended, List.length_append, Block.slice_add]
    simp only
    rw [Block.slice_write_self, Block.slice_write_of_ge _ _ _ _ _ (Nat.le_refl _), placed,
      layout.bytes]

/-- What `build` leaves: the frame of all entries, the added entries still in their slots, and
the number of bytes there are to send. -/
structure Built (scgi : Scgi) (all items : List Entry) : Prop where
  fits : scgi.header.wild = false
  block : scgi.block = frame all
  holds : scgi.Holds startOffsetInit items
  length : scgi.length = scgi.block.length + scgi.bodyLength

/-- Closing an object whose content length was written leaves the frame of its entries. -/
theorem Layout.close {length : Nat}
    (layout : scgi.Layout (encodeEntry (contentLengthEntry length)) items none) :
    scgi.close.Built (contentLengthEntry length :: items) items := by
  have front := length_contentLengthEntry_le length
  have top : startOffsetInit = 40 := rfl
  have start := layout.start
  have sized := layout.size
  have room := layout.room
  have holds := layout.holds
  have reach := holds.room
  have measured := layout.offset
  have bytes := layout.bytes
  rw [contents_none, ← encode_cons] at measured bytes
  have after : startOffsetInit + (encode items).length = scgi.headerOffset := by
    rw [encode_cons, List.length_append] at measured
    omega
  have span : scgi.headerOffset - scgi.startOffset =
      (encode (contentLengthEntry length :: items)).length := by omega
  have digits := Decimal.length_format_le (encode (contentLengthEntry length :: items)).length
  have numbered : frame (contentLengthEntry length :: items) =
      Decimal.format (encode (contentLengthEntry length :: items)).length ++ 58 ::
        (encode (contentLengthEntry length :: items) ++ [44]) := rfl
  have comma : ascii "," = [44] := rfl
  have colon : ascii ":" = [58] := rfl
  unfold Scgi.close
  simp only [span, comma, colon]
  generalize encode (contentLengthEntry length :: items) = payload
    at measured bytes digits numbered
  generalize Decimal.format payload.length = number at digits numbered
  have prefixed : (number ++ [58]).length = number.length + 1 := by
    rw [List.length_append]
    rfl
  obtain ⟨place, placed⟩ : ∃ place, place + (number.length + 1) = scgi.startOffset :=
    ⟨scgi.startOffset - (number.length + 1), by omega⟩
  have placed' : scgi.startOffset - (number ++ [58]).length = place := by omega
  have spanned : scgi.headerOffset + 1 - place =
      number.length + 1 + (payload.length + 1) := by omega
  have blocked : ((scgi.header.write place (number ++ [58])).write scgi.headerOffset
      [44]).slice place (scgi.headerOffset + 1 - place) =
        frame (contentLengthEntry length :: items) := by
    have one : payload.length + 1 = payload.length + [(44 : UInt8)].length := rfl
    rw [spanned, Block.slice_add, Block.slice_write_of_le _ _ _ _ _ (by omega), placed,
      Block.slice_write_eq _ _ _ _ prefixed.symm,
      Block.slice_write_append _ measured one,
      Block.slice_write_of_ge _ _ _ _ _ (by omega), bytes, numbered, List.append_assoc,
      List.cons_append, List.nil_append]
  rw [placed']
  refine ⟨?_, blocked, ⟨holds.list, ?_, reach⟩, ?_⟩
  · simp only
    rw [Block.wild_write_of_le, Block.wild_write_of_le, layout.fits]
    · omega
    · rw [Block.size_write, List.length_cons, List.length_nil]
      omega
  · simp only
    rw [Block.slice_write_of_le _ _ _ _ _ (by omega),
      Block.slice_write_of_ge _ _ _ _ _ (by omega), holds.bytes]
  · simp only [Scgi.block, Block.length_slice]
    rfl

/-- The kind of an object is not part of its layout. -/
theorem Layout.typed (layout : scgi.Layout front items opened) (type : ScgiType) :
    { scgi with type := type }.Layout front items opened :=
  ⟨layout.fits, layout.size, layout.start, layout.offset, layout.room, layout.bytes, layout.list⟩

/-- Building an object whose content length was already written. -/
theorem Layout.build_of_length {length : Nat}
    (layout : scgi.Layout (encodeEntry (contentLengthEntry length)) items none) :
    scgi.build.Built (contentLengthEntry length :: items) items := by
  have start := layout.start
  have positive := length_encodeEntry (contentLengthEntry length)
  have away : ¬ scgi.startOffset = startOffsetInit := by omega
  rw [Scgi.build, contentLengthCheck, if_neg away]
  exact (layout.typed .build).close

/-- Building an object whose content length was not written yet writes that of its body. -/
theorem Layout.build_of_start (layout : scgi.Layout [] items none) :
    scgi.build.Built (contentLengthEntry scgi.bodyLength :: items) items := by
  have start : scgi.startOffset = startOffsetInit := layout.start
  rw [Scgi.build, contentLengthCheck, if_pos start]
  exact ((layout.typed .build).contentLengthAdd scgi.bodyLength).close

theorem frame_headerAdd (scgi : Scgi) (field value : List UInt8) :
    (scgi.headerAdd field value).body = scgi.body ∧
      (scgi.headerAdd field value).bytesSent = scgi.bytesSent := by
  obtain ⟨header, headerSize, checked, -⟩ :=
    memoryCheck_spec scgi (scgi.headerOffset + field.length + value.length + 2)
  rw [Scgi.headerAdd, checked]
  exact ⟨rfl, rfl⟩

theorem frame_contentLengthAdd (scgi : Scgi) (length : Nat) :
    (scgi.contentLengthAdd length).body = scgi.body ∧
      (scgi.contentLengthAdd length).bytesSent = scgi.bytesSent := by
  cases scgi
  exact ⟨rfl, rfl⟩

/-- A new object has no body and is not sent. -/
theorem frame_new (junk : Nat → UInt8) :
    (Scgi.new junk).body = none ∧ (Scgi.new junk).bytesSent = 0 := by
  obtain ⟨body, sent⟩ := frame_headerAdd _ (ascii "SCGI") (ascii "1")
  exact ⟨body, sent⟩

@[simp] theorem body_build (scgi : Scgi) : scgi.build.body = scgi.body := by
  cases scgi
  unfold Scgi.build contentLengthCheck
  split <;> rfl

@[simp] theorem bytesSent_build (scgi : Scgi) : scgi.build.bytesSent = scgi.bytesSent := by
  cases scgi
  unfold Scgi.build contentLengthCheck
  split <;> rfl

end Scgi
