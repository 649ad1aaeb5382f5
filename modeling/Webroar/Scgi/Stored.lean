import Webroar.Scgi.Entries

/-! # Writing at the end of a header block

Every operation that adds to the headers checks the memory, writes once at the end of what is
stored, and moves the header offset behind it. A continued name or value starts on the NUL that
ended it so far, so that write covers the last stored byte. Here this is said once: `put` is the
common step, each operation is a `put`, and a `put` stores its piece and touches nothing before.
-/

namespace Scgi

/-- The header block stores `text` behind the reserve, in the memory allocated for it. -/
structure Stored (scgi : Scgi) (text : List UInt8) : Prop where
  fits : scgi.header.wild = false
  size : scgi.header.size = scgi.headerSize + 2
  offset : scgi.headerOffset = startOffsetInit + text.length
  room : scgi.headerOffset ≤ scgi.headerSize
  bytes : scgi.header.slice startOffsetInit text.length = text

/-- Check for `required` bytes and write `piece` from cell `place` on as the end of the headers. -/
def put (scgi : Scgi) (required place : Nat) (piece : List UInt8) (headers : List ScgiHeader) :
    Scgi :=
  let scgi := scgi.memoryCheck required
  { scgi with
    header := scgi.header.write place piece
    headerOffset := place + piece.length
    headerList := headers }

theorem growLength_spec (required length : Nat) :
    required ≤ growLength required length ∧ length ≤ growLength required length := by
  fun_induction growLength required length with
  | case1 length short ih => exact ⟨ih.1, Nat.le_trans (Nat.le_add_right _ _) ih.2⟩
  | case2 length enough => exact ⟨Nat.le_of_not_lt enough, Nat.le_refl _⟩

/-- A checked block has room for what was required; nothing else changes. -/
theorem memoryCheck_spec (scgi : Scgi) (required : Nat) :
    ∃ header headerSize, scgi.memoryCheck required =
        { scgi with header := header, headerSize := headerSize } ∧
      required ≤ headerSize ∧ scgi.headerSize ≤ headerSize ∧
      (scgi.header.size = scgi.headerSize + 2 → header.size = headerSize + 2) ∧
      header.wild = scgi.header.wild ∧
      ∀ offset length, header.slice offset length = scgi.header.slice offset length := by
  unfold memoryCheck
  split
  · obtain ⟨enough, grown⟩ := growLength_spec required (scgi.headerSize + headerBlockSize)
    exact ⟨_, _, rfl, enough, by omega, fun _ => rfl, rfl, fun _ _ => rfl⟩
  · next enough =>
      exact ⟨scgi.header, scgi.headerSize, rfl, Nat.le_of_not_lt enough, Nat.le_refl _,
        fun size => size, rfl, fun _ _ => rfl⟩

variable {scgi : Scgi} {kept dropped piece text : List UInt8} {required place : Nat}
  {headers : List ScgiHeader} {index : Int}

/-- What a `put` leaves as it was. -/
theorem put_frame (scgi : Scgi) (required place : Nat) (piece : List UInt8)
    (headers : List ScgiHeader) :
    (scgi.put required place piece headers).headerList = headers ∧
      (scgi.put required place piece headers).startOffset = scgi.startOffset ∧
      (scgi.put required place piece headers).index = scgi.index ∧
      (scgi.put required place piece headers).body = scgi.body ∧
      (scgi.put required place piece headers).bytesSent = scgi.bytesSent := by
  obtain ⟨header, headerSize, checked, -⟩ := memoryCheck_spec scgi required
  rw [put, checked]
  exact ⟨rfl, rfl, rfl, rfl, rfl⟩

/-- A `put` does not change cells before its place. -/
theorem put_slice (scgi : Scgi) (headers : List ScgiHeader) (piece : List UInt8)
    {start length : Nat} (before : start + length ≤ place) :
    (scgi.put required place piece headers).header.slice start length =
      scgi.header.slice start length := by
  obtain ⟨header, headerSize, checked, -, -, -, -, same⟩ := memoryCheck_spec scgi required
  rw [put, checked]
  exact (Block.slice_write_of_le _ _ _ _ _ before).trans (same _ _)

/-- A `put` at the end of what is kept stores its piece there. -/
theorem Stored.put (stored : scgi.Stored (kept ++ dropped))
    (placed : place + dropped.length = scgi.headerOffset)
    (enough : place + piece.length ≤ required) :
    (scgi.put required place piece headers).Stored (kept ++ piece) := by
  obtain ⟨header, headerSize, checked, larger, -, sized, flag, same⟩ :=
    memoryCheck_spec scgi required
  have sized := sized stored.size
  have measured := stored.offset
  have bytes := stored.bytes
  rw [List.length_append] at measured bytes
  have atEnd : place = startOffsetInit + kept.length := by omega
  have before := (Block.slice_of_append kept dropped bytes rfl).1
  rw [Scgi.put, checked]
  refine ⟨?_, sized, ?_, ?_, ?_⟩
  · simp only
    rw [Block.wild_write_of_le, flag, stored.fits]
    omega
  · rw [List.length_append, ← Nat.add_assoc, ← atEnd]
  · simp only
    omega
  · refine (Block.slice_write_append _ atEnd (List.length_append ..)).trans ?_
    rw [same, before]

/-- A whole header is put behind the others. -/
theorem headerAdd_eq (scgi : Scgi) (field value : List UInt8) :
    scgi.headerAdd field value =
      scgi.put (scgi.headerOffset + field.length + value.length + 2) scgi.headerOffset
        (encodeEntry (field, value))
        (⟨scgi.headerOffset, scgi.headerOffset + field.length + 1, field.length, value.length⟩ ::
          scgi.headerList) := by
  obtain ⟨header, headerSize, checked, -⟩ :=
    memoryCheck_spec scgi (scgi.headerOffset + field.length + value.length + 2)
  unfold headerAdd Scgi.put
  rw [checked]
  have second : scgi.headerOffset + field.length + 1 =
      scgi.headerOffset + (field ++ [0]).length := by
    simp only [List.length_append, List.length_cons, List.length_nil]
    omega
  have shape : encodeEntry (field, value) = field ++ [0] ++ (value ++ [0]) := by
    simp [encodeEntry]
  have written : (((header.write scgi.headerOffset field).write
      (scgi.headerOffset + field.length) [0]).write (scgi.headerOffset + field.length + 1)
        value).write (scgi.headerOffset + field.length + 1 + value.length) [0] =
      header.write scgi.headerOffset (encodeEntry (field, value)) := by
    rw [Block.write_write_append _ rfl, Block.write_write_append header rfl,
      Block.write_write_append _ second, shape]
  have reached : scgi.headerOffset + field.length + 1 + value.length + 1 =
      scgi.headerOffset + (encodeEntry (field, value)).length := by
    rw [length_encodeEntry]
    simp only
    omega
  simp only [written, reached]

/-- A name and its NUL written and converted in place. -/
theorem field_write (header : Block UInt8) {start stop : Nat} (field : List UInt8)
    (ended : stop = start + (field.length + 1)) :
    ((header.write start field).write (stop - 1) [0]).modify start (stop - start) envByte =
      header.write start (field.map envByte ++ [0]) := by
  have written : (header.write start field).write (stop - 1) [0] =
      header.write start (field ++ [0]) := Block.write_write_append _ (by omega)
  have covered : stop - start = (field ++ [0]).length := by
    simp only [List.length_append, List.length_cons, List.length_nil]
    omega
  rw [written, covered, Block.modify_write_self, List.map_append]
  rfl

/-- The first piece of a client header's name is put behind the others. -/
theorem headerFieldAdd_begin (field : List UInt8) (later : scgi.index < index) :
    scgi.headerFieldAdd field index = some
      ({ scgi with index := index }.put (scgi.headerOffset + field.length + 1) scgi.headerOffset
        (field.map envByte ++ [0])
        (⟨scgi.headerOffset, 0, field.length, 0⟩ :: scgi.headerList)) := by
  obtain ⟨header, headerSize, checked, -⟩ :=
    memoryCheck_spec { scgi with index := index } (scgi.headerOffset + field.length + 1)
  unfold headerFieldAdd Scgi.put
  rw [if_neg (by omega), if_neg (by omega)]
  simp only [checked]
  rw [field_write _ _ rfl]
  simp

/-- A further piece of a client header's name is put over the NUL that ended it. -/
theorem headerFieldAdd_continue {last : ScgiHeader} {rest : List ScgiHeader} (field : List UInt8)
    (listed : scgi.headerList = last :: rest) (bare : last.valueOffset = 0)
    (positive : 1 ≤ scgi.headerOffset) :
    scgi.headerFieldAdd field scgi.index = some
      (scgi.put (scgi.headerOffset + field.length) (scgi.headerOffset - 1)
        (field.map envByte ++ [0])
        ({ last with fieldLength := last.fieldLength + field.length } :: rest)) := by
  obtain ⟨header, headerSize, checked, -⟩ :=
    memoryCheck_spec scgi (scgi.headerOffset + field.length)
  have reached : scgi.headerOffset - 1 + (field.map envByte ++ [0]).length =
      scgi.headerOffset + field.length := by
    simp only [List.length_append, List.length_map, List.length_cons, List.length_nil]
    omega
  unfold headerFieldAdd Scgi.put
  rw [if_neg (by omega), if_pos rfl, listed]
  simp only [bare, ne_eq, not_true_eq_false, ↓reduceIte, checked]
  rw [field_write _ _ (by omega), reached]

/-- The first piece of a client header's value is put behind its name. -/
theorem headerValueAdd_begin {last : ScgiHeader} {rest : List ScgiHeader} (value : List UInt8)
    (listed : scgi.headerList = last :: rest) (bare : last.valueOffset = 0) :
    scgi.headerValueAdd value scgi.index = some
      (scgi.put (scgi.headerOffset + value.length + 1) scgi.headerOffset (value ++ [0])
        ({ last with valueOffset := scgi.headerOffset, valueLength := value.length } ::
          rest)) := by
  obtain ⟨header, headerSize, checked, -⟩ :=
    memoryCheck_spec scgi (scgi.headerOffset + value.length + 1)
  have written : (header.write scgi.headerOffset value).write
      (scgi.headerOffset + (value.length + 1) - 1) [0] =
        header.write scgi.headerOffset (value ++ [0]) :=
    Block.write_write_append _ (by omega)
  unfold headerValueAdd Scgi.put
  rw [if_neg (by simp), listed]
  simp only [bare, ↓reduceIte, checked]
  rw [written]
  simp

/-- A further piece of a client header's value is put over the NUL that ended it. -/
theorem headerValueAdd_continue {last : ScgiHeader} {rest : List ScgiHeader} (value : List UInt8)
    (listed : scgi.headerList = last :: rest) (valued : last.valueOffset ≠ 0)
    (positive : 1 ≤ scgi.headerOffset) :
    scgi.headerValueAdd value scgi.index = some
      (scgi.put (scgi.headerOffset + value.length) (scgi.headerOffset - 1) (value ++ [0])
        ({ last with valueLength := last.valueLength + value.length } :: rest)) := by
  obtain ⟨header, headerSize, checked, -⟩ :=
    memoryCheck_spec scgi (scgi.headerOffset + value.length)
  have written : (header.write (scgi.headerOffset - 1) value).write
      (scgi.headerOffset + value.length - 1) [0] =
        header.write (scgi.headerOffset - 1) (value ++ [0]) :=
    Block.write_write_append _ (by omega)
  have reached : scgi.headerOffset - 1 + (value ++ [0]).length =
      scgi.headerOffset + value.length := by
    simp only [List.length_append, List.length_cons, List.length_nil]
    omega
  unfold headerValueAdd Scgi.put
  rw [if_neg (by simp), listed]
  simp only [valued, ↓reduceIte, checked]
  rw [written, reached]

end Scgi
