import Webroar.Scgi.Stored

/-! # The layout of an object that is being built

Between two operations the header block of a builder object reads, from its start offset to its
header offset, as the bytes written in front of the headers, the entries added so far, and the
name of a client header that has no value yet. Every operation of the builder keeps this layout
and adds to it what its arguments say; no write ever leaves the allocated block.
-/

namespace Scgi

/-- The bytes of a client header that has a name and no value yet. -/
def openBytes (opened : Option (List UInt8)) : List UInt8 :=
  opened.elim [] fun name => name ++ [0]

/-- The slot of a client header that has a name and no value yet. -/
def openSlot (offset : Nat) (opened : Option (List UInt8)) : List ScgiHeader :=
  opened.elim [] fun name => [⟨offset, 0, name.length, 0⟩]

/-- What the header block reads as: `front`, the entries, and the open name. -/
def contents (front : List UInt8) (items : List Entry) (opened : Option (List UInt8)) :
    List UInt8 :=
  front ++ encode items ++ openBytes opened

/-- A builder object with `front` before its headers, the entries `items`, and maybe the name of
a client header still without a value. -/
structure Layout (scgi : Scgi) (front : List UInt8) (items : List Entry)
    (opened : Option (List UInt8)) : Prop where
  fits : scgi.header.wild = false
  size : scgi.header.size = scgi.headerSize + 2
  start : scgi.startOffset + front.length = startOffsetInit
  offset : scgi.headerOffset = scgi.startOffset + (contents front items opened).length
  room : scgi.headerOffset ≤ scgi.headerSize
  bytes : scgi.header.slice scgi.startOffset (contents front items opened).length =
    contents front items opened
  list : scgi.headerList =
    openSlot (startOffsetInit + (encode items).length) opened ++
      (slots startOffsetInit items).reverse

@[simp] theorem contents_none (front : List UInt8) (items : List Entry) :
    contents front items none = front ++ encode items := by
  simp [contents, openBytes]

@[simp] theorem contents_some (front : List UInt8) (items : List Entry) (name : List UInt8) :
    contents front items (some name) = front ++ encode items ++ (name ++ [0]) := rfl

variable {scgi : Scgi} {front : List UInt8} {items : List Entry} {opened : Option (List UInt8)}

/-- What an object of some layout stores behind the reserve. -/
theorem Layout.stored (layout : scgi.Layout front items opened) :
    scgi.Stored (encode items ++ openBytes opened) := by
  have start := layout.start
  have measured := layout.offset
  have bytes := layout.bytes
  rw [contents, List.append_assoc, List.length_append] at measured bytes
  refine ⟨layout.fits, layout.size, by omega, layout.room, ?_⟩
  rw [← start]
  exact (Block.slice_of_append _ _ bytes rfl).2

/-- Putting a piece at the end of what is kept changes the layout behind the front only. -/
theorem Layout.put {kept dropped piece : List UInt8} {required place : Nat}
    {headers : List ScgiHeader} {items' : List Entry} {opened' : Option (List UInt8)}
    (layout : scgi.Layout front items opened)
    (before : encode items ++ openBytes opened = kept ++ dropped)
    (placed : place + dropped.length = scgi.headerOffset)
    (enough : place + piece.length ≤ required)
    (after : encode items' ++ openBytes opened' = kept ++ piece)
    (list : headers = openSlot (startOffsetInit + (encode items').length) opened' ++
      (slots startOffsetInit items').reverse) :
    (scgi.put required place piece headers).Layout front items' opened' := by
  obtain ⟨fits, size, offset, room, bytes⟩ := layout.stored
  rw [before] at offset bytes
  have stored : (scgi.put required place piece headers).Stored (kept ++ piece) :=
    Stored.put ⟨fits, size, offset, room, bytes⟩ placed enough
  obtain ⟨listed, started, -⟩ := put_frame scgi required place piece headers
  have start := layout.start
  have fronted := layout.bytes
  rw [contents, List.append_assoc, List.length_append] at fronted
  have fronted := (Block.slice_of_append _ _ fronted rfl).1
  rw [List.length_append] at offset
  have measured := stored.offset
  refine ⟨stored.fits, stored.size, ?_, ?_, stored.room, ?_, ?_⟩
  · rw [started, start]
  · rw [contents, List.append_assoc, after, List.length_append, started]
    omega
  · rw [contents, List.append_assoc, after, List.length_append, Block.slice_add, started, start,
      stored.bytes, put_slice scgi headers piece (by omega), fronted]
  · rw [listed, list]

theorem encodeEntry_eq (name value : List UInt8) :
    encodeEntry (name, value) = name ++ [0] ++ value ++ [0] := by
  simp [encodeEntry]

/-- Adding a whole header adds its entry. -/
theorem Layout.headerAdd (layout : scgi.Layout front items none) (field value : List UInt8) :
    (scgi.headerAdd field value).Layout front (items ++ [(field, value)]) none := by
  have measured := layout.stored.offset
  rw [headerAdd_eq]
  refine layout.put (List.append_nil _).symm rfl ?_ (by simp [openBytes]) ?_
  · rw [length_encodeEntry]
    simp only
    omega
  · have place : scgi.headerOffset = startOffsetInit + (encode items).length := by
      simpa [openBytes] using measured
    rw [layout.list, slots_append, place]
    simp [openSlot, slots]

theorem Layout.new (junk : Nat → UInt8) :
    (Scgi.new junk).Layout [] [(ascii "SCGI", ascii "1")] none := by
  unfold Scgi.new
  have room : startOffsetInit ≤ max headerBlockSize (startOffsetInit + 2) - 2 := by decide
  have empty : ({ header := ⟨max headerBlockSize (startOffsetInit + 2), junk, false⟩
                  body := none
                  headerSize := max headerBlockSize (startOffsetInit + 2) - 2
                  headerLength := 0
                  headerOffset := startOffsetInit
                  length := 0
                  startOffset := startOffsetInit
                  bytesSent := 0
                  headerList := []
                  index := -1
                  type := .none } : Scgi).Layout [] [] none :=
    ⟨rfl, rfl, rfl, rfl, room, rfl, rfl⟩
  exact empty.headerAdd _ _

@[simp] theorem index_new (junk : Nat → UInt8) : (Scgi.new junk).index = -1 := by
  unfold Scgi.new
  exact ((memoryCheck_spec _ _).elim fun _ spec => spec.elim fun _ spec => by
    rw [Scgi.headerAdd, spec.1])

@[simp] theorem index_headerAdd (scgi : Scgi) (field value : List UInt8) :
    (scgi.headerAdd field value).index = scgi.index := by
  rw [headerAdd_eq]
  exact (put_frame ..).2.2.1

/-- The first piece of a client header's name opens it. -/
theorem Layout.headerFieldAdd_first (layout : scgi.Layout front items none)
    (field : List UInt8) {index : Int} (later : scgi.index < index) :
    ∃ next, scgi.headerFieldAdd field index = some next ∧ next.index = index ∧
      next.Layout front items (some (field.map envByte)) := by
  have moved : { scgi with index := index }.Layout front items none :=
    ⟨layout.fits, layout.size, layout.start, layout.offset, layout.room, layout.bytes, layout.list⟩
  refine ⟨_, headerFieldAdd_begin field later, (put_frame ..).2.2.1, ?_⟩
  refine moved.put (List.append_nil _).symm rfl ?_ (by simp [openBytes]) ?_
  · simp only [List.length_append, List.length_map, List.length_cons, List.length_nil]
    omega
  · have place : scgi.headerOffset = startOffsetInit + (encode items).length := by
      simpa [openBytes] using layout.stored.offset
    simp only [layout.list, place]
    simp [openSlot]

/-- A further piece of a client header's name extends it. -/
theorem Layout.headerFieldAdd_more {name : List UInt8} (layout : scgi.Layout front items (some name))
    (field : List UInt8) :
    ∃ next, scgi.headerFieldAdd field scgi.index = some next ∧ next.index = scgi.index ∧
      next.Layout front items (some (name ++ field.map envByte)) := by
  have measured := layout.stored.offset
  have positive : 1 ≤ scgi.headerOffset := by
    simp only [openBytes, Option.elim_some, List.length_append, List.length_cons] at measured
    omega
  refine ⟨_, headerFieldAdd_continue field layout.list rfl positive, (put_frame ..).2.2.1, ?_⟩
  have before : encode items ++ openBytes (some name) = encode items ++ name ++ [0] := by
    simp [openBytes]
  refine layout.put before (Nat.sub_add_cancel positive) ?_ (by simp [openBytes]) ?_
  · simp only [List.length_append, List.length_map, List.length_cons, List.length_nil]
    omega
  · simp only [openSlot, Option.elim_some, List.length_append, List.length_map, List.cons_append,
      List.nil_append]
    rfl

/-- The first piece of a client header's value completes its entry. -/
theorem Layout.headerValueAdd_first {name : List UInt8}
    (layout : scgi.Layout front items (some name)) (value : List UInt8) :
    ∃ next, scgi.headerValueAdd value scgi.index = some next ∧ next.index = scgi.index ∧
      next.Layout front (items ++ [(name, value)]) none := by
  refine ⟨_, headerValueAdd_begin value layout.list rfl, (put_frame ..).2.2.1, ?_⟩
  have after : encode (items ++ [(name, value)]) ++ openBytes none =
      (encode items ++ openBytes (some name)) ++ (value ++ [0]) := by
    simp [openBytes, encodeEntry_eq]
  refine layout.put (List.append_nil _).symm rfl ?_ after ?_
  · simp only [List.length_append, List.length_cons, List.length_nil]
    omega
  · have place : scgi.headerOffset =
        startOffsetInit + (encode items).length + name.length + 1 := by
      simpa [openBytes, Nat.add_assoc] using layout.stored.offset
    rw [slots_append, place]
    simp [openSlot, slots]

/-- A further piece of a client header's value extends its entry. -/
theorem Layout.headerValueAdd_more {name text : List UInt8}
    (layout : scgi.Layout front (items ++ [(name, text)]) none) (value : List UInt8) :
    ∃ next, scgi.headerValueAdd value scgi.index = some next ∧ next.index = scgi.index ∧
      next.Layout front (items ++ [(name, text ++ value)]) none := by
  have recorded : scgi.headerList =
      ⟨startOffsetInit + (encode items).length,
        startOffsetInit + (encode items).length + name.length + 1, name.length, text.length⟩ ::
        (slots startOffsetInit items).reverse := by
    rw [layout.list, slots_append]
    simp [openSlot, slots]
  have measured := layout.stored.offset
  have positive : 1 ≤ scgi.headerOffset := by
    rw [encode_append, encode_singleton, List.length_append, List.length_append,
      length_encodeEntry] at measured
    omega
  refine ⟨_, headerValueAdd_continue value recorded (Nat.succ_ne_zero _) positive,
    (put_frame ..).2.2.1, ?_⟩
  have before : encode (items ++ [(name, text)]) ++ openBytes none =
      (encode items ++ (name ++ [0] ++ text)) ++ [0] := by
    simp [openBytes, encodeEntry_eq]
  refine layout.put before (Nat.sub_add_cancel positive) ?_ (by simp [openBytes, encodeEntry_eq]) ?_
  · simp only [List.length_append, List.length_cons, List.length_nil]
    omega
  · rw [slots_append]
    simp [openSlot, slots]

/-- The body is kept apart from the header block. -/
theorem Layout.bodyAdd (layout : scgi.Layout front items opened) (body : List UInt8) :
    (scgi.bodyAdd body).Layout front items opened :=
  ⟨layout.fits, layout.size, layout.start, layout.offset, layout.room, layout.bytes, layout.list⟩

/-- A builder object holds its entries. -/
theorem Layout.holds (layout : scgi.Layout front items none) :
    scgi.Holds startOffsetInit items := by
  have start := layout.start
  have measured := layout.offset
  have room := layout.room
  have sized := layout.size
  have bytes := layout.bytes
  rw [contents_none, List.length_append] at measured bytes
  have held := (Block.slice_of_append _ _ bytes rfl).2
  rw [start] at held
  exact ⟨by simpa [openSlot] using layout.list, held, by omega⟩

end Scgi
