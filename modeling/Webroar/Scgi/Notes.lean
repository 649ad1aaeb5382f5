import Webroar.Scgi.Draft

/-! # The builder's invariant

Callers may leave a client header without a value, write a content length more than once, and
make calls that are turned down. Notes are taken of all this: every header with its name and
with its value once a piece of it came, the content length written last, and the body. Any
operation on an object keeps it in step with the notes, so after any sequence of operations,
and after the build that may end it, the header block is within its memory, the offsets have not
run over, and every recorded header still reads as it was noted.
-/

namespace Scgi

/-- An operation on an object that is being built. -/
inductive Op where
  | add (call : Call)
  | contentLengthAdd (length : Nat)

/-- Perform one operation. -/
def perform (scgi : Scgi) : Op → Scgi
  | .add next => scgi.call next
  | .contentLengthAdd length => scgi.contentLengthAdd length

/-- A header as far as it was added. -/
structure Note where
  name : List UInt8
  /-- The value, once a piece of it was added. -/
  value : Option (List UInt8)

/-- What was added to an object. -/
structure Notes where
  /-- The headers before the newest one, in the order they were added. -/
  older : List Note
  newest : Note
  /-- The number of the client header that is being added. -/
  index : Int
  /-- The content length written last. -/
  length : Option Nat
  body : List UInt8

namespace Notes

/-- A new object has one header. -/
def start : Notes := ⟨[], ⟨ascii "SCGI", some (ascii "1")⟩, -1, none, []⟩

/-- All headers. -/
def all (notes : Notes) : List Note := notes.older ++ [notes.newest]

/-- Begin another header. -/
def begin (notes : Notes) (header : Note) : Notes :=
  { notes with older := notes.all, newest := header }

/-- Note an operation. A piece with a number that is over, a value piece with a number that did
not begin, and a name piece behind a value are turned down. -/
def step (notes : Notes) : Op → Notes
  | .add (.headerAdd field value) => notes.begin ⟨field, some value⟩
  | .add (.headerFieldAdd field index) =>
      if notes.index < index then
        { notes.begin ⟨field.map envByte, none⟩ with index := index }
      else if index = notes.index ∧ notes.newest.value = none then
        { notes with newest := ⟨notes.newest.name ++ field.map envByte, none⟩ }
      else
        notes
  | .add (.headerValueAdd value index) =>
      if index = notes.index then
        { notes with
          newest := { notes.newest with value := some (notes.newest.value.getD [] ++ value) } }
      else
        notes
  | .add (.bodyAdd body) => { notes with body := notes.body ++ body }
  | .contentLengthAdd length => { notes with length := some length }

/-- What stands in front of the headers. -/
def front (notes : Notes) : List UInt8 :=
  notes.length.elim [] fun length => encodeEntry (contentLengthEntry length)

/-- The notes when a build has added the content length. -/
def counted (notes : Notes) : Notes :=
  { notes with length := some (notes.length.getD notes.body.length) }

end Notes

namespace Note

/-- The bytes of a header in the block. -/
def bytes (note : Note) : List UInt8 := note.name ++ [0] ++ note.value.elim [] fun value => value ++ [0]

/-- The slot of a header whose bytes begin at a cell. -/
def slot (offset : Nat) (note : Note) : ScgiHeader :=
  match note.value with
  | none => ⟨offset, 0, note.name.length, 0⟩
  | some value => ⟨offset, offset + note.name.length + 1, note.name.length, value.length⟩

/-- The bytes of some headers one after the other. -/
def encode (notes : List Note) : List UInt8 := notes.flatMap bytes

/-- The slots of some headers laid out one after the other. -/
def slots (offset : Nat) : List Note → List ScgiHeader
  | [] => []
  | note :: rest => note.slot offset :: slots (offset + note.bytes.length) rest

@[simp] theorem encode_append (first second : List Note) :
    encode (first ++ second) = encode first ++ encode second := by
  simp [encode]

@[simp] theorem encode_singleton (note : Note) : encode [note] = note.bytes := by
  simp [encode]

theorem slots_append (offset : Nat) (first second : List Note) :
    slots offset (first ++ second) =
      slots offset first ++ slots (offset + (encode first).length) second := by
  induction first generalizing offset with
  | nil => rfl
  | cons note rest ih =>
      have measured : (encode (note :: rest)).length =
          note.bytes.length + (encode rest).length := by
        simp [encode]
      rw [List.cons_append, slots, slots, ih, measured, Nat.add_assoc]
      rfl

end Note

/-- A slot is that of a header: it gives the place of the name and, once there is one, of the
value, and a NUL follows each of them in the block. -/
structure Recorded (scgi : Scgi) (note : Note) (header : ScgiHeader) : Prop where
  nameLength : header.fieldLength = note.name.length
  name : scgi.header.slice header.fieldOffset (header.fieldLength + 1) = note.name ++ [0]
  nameInside : header.fieldOffset + header.fieldLength + 1 ≤ scgi.headerOffset
  /-- Without a value the slot has no place for one. -/
  unvalued : note.value = none → header.valueOffset = 0 ∧ header.valueLength = 0
  valueLength : ∀ value, note.value = some value → header.valueLength = value.length
  value : ∀ value, note.value = some value →
    scgi.header.slice header.valueOffset (header.valueLength + 1) = value ++ [0]
  valueInside : note.value ≠ none →
    header.valueOffset + header.valueLength + 1 ≤ scgi.headerOffset

/-- An object is sound: no write ever left the header block, its offsets are inside the block,
`front` reaches from the start offset to the first header without a subtraction below zero, and
the recorded headers are those noted. -/
structure Sound (scgi : Scgi) (front : List UInt8) (notes : List Note) : Prop where
  fits : scgi.header.wild = false
  allocated : scgi.header.size = scgi.headerSize + 2
  offset : scgi.headerOffset ≤ scgi.headerSize + 2
  start : scgi.startOffset + front.length = startOffsetInit
  front : scgi.header.slice scgi.startOffset front.length = front
  records : List.Forall₂ scgi.Recorded notes scgi.headerList.reverse

/-- An object is as its notes say. -/
structure Shown (scgi : Scgi) (notes : Notes) : Prop where
  stored : scgi.Stored (Note.encode notes.all)
  start : scgi.startOffset + notes.front.length = startOffsetInit
  front : scgi.header.slice scgi.startOffset notes.front.length = notes.front
  list : scgi.headerList = (Note.slots startOffsetInit notes.all).reverse
  index : scgi.index = notes.index
  body : scgi.body.getD [] = notes.body

variable {scgi : Scgi} {notes : Notes}

@[simp] theorem Notes.all_begin (header : Note) :
    (notes.begin header).all = notes.all ++ [header] := rfl

/-- The slot of the newest header is the latest one. -/
theorem Shown.latest (shown : scgi.Shown notes) :
    scgi.headerList =
      notes.newest.slot (startOffsetInit + (Note.encode notes.older).length) ::
        (Note.slots startOffsetInit notes.older).reverse := by
  rw [shown.list, Notes.all, Note.slots_append]
  simp [Note.slots]

/-- Putting a piece at the end of what is kept changes the notes of the headers only. -/
theorem Shown.put {kept dropped piece : List UInt8} {required place : Nat}
    {headers : List ScgiHeader} {after : Notes} (shown : scgi.Shown notes)
    (before : Note.encode notes.all = kept ++ dropped)
    (placed : place + dropped.length = scgi.headerOffset)
    (enough : place + piece.length ≤ required)
    (extended : Note.encode after.all = kept ++ piece)
    (list : headers = (Note.slots startOffsetInit after.all).reverse)
    (index : after.index = notes.index) (length : after.length = notes.length)
    (body : after.body = notes.body) :
    (scgi.put required place piece headers).Shown after := by
  have stored := shown.stored
  rw [before] at stored
  obtain ⟨listed, started, numbered, same, -⟩ := put_frame scgi required place piece headers
  have start := shown.start
  have measured := stored.offset
  rw [List.length_append] at measured
  have fronted : after.front = notes.front := by rw [Notes.front, Notes.front, length]
  refine ⟨?_, ?_, ?_, ?_, ?_, ?_⟩
  · rw [extended]
    exact stored.put placed enough
  · rw [started, fronted, start]
  · rw [started, fronted, put_slice scgi headers piece (by omega), shown.front]
  · rw [listed, list]
  · rw [numbered, shown.index, index]
  · rw [same, shown.body, body]

theorem Shown.headerAdd (shown : scgi.Shown notes) (field value : List UInt8) :
    (scgi.headerAdd field value).Shown (notes.begin ⟨field, some value⟩) := by
  have measured := shown.stored.offset
  have encoded : encodeEntry (field, value) = Note.bytes ⟨field, some value⟩ := by
    simp [encodeEntry, Note.bytes]
  rw [headerAdd_eq, encoded]
  refine shown.put (List.append_nil _).symm rfl ?_ (by simp) ?_ rfl rfl rfl
  · rw [← encoded, length_encodeEntry]
    simp only
    omega
  · rw [shown.list, Notes.all_begin, Note.slots_append, measured]
    simp [Note.slots, Note.slot]

/-- A name piece with a later number begins a header. -/
theorem Shown.headerFieldAdd_begin (shown : scgi.Shown notes) (field : List UInt8) {index : Int}
    (later : notes.index < index) :
    ((scgi.headerFieldAdd field index).getD scgi).Shown
      { notes.begin ⟨field.map envByte, none⟩ with index := index } := by
  have moved : { scgi with index := index }.Shown { notes with index := index } :=
    ⟨⟨shown.stored.fits, shown.stored.size, shown.stored.offset, shown.stored.room,
      shown.stored.bytes⟩, shown.start, shown.front, shown.list, rfl, shown.body⟩
  rw [← shown.index] at later
  rw [Scgi.headerFieldAdd_begin field later, Option.getD_some]
  refine moved.put (List.append_nil _).symm rfl ?_ ?_ ?_ rfl rfl rfl
  · simp only [List.length_append, List.length_map, List.length_cons, List.length_nil]
    omega
  · change Note.encode (notes.all ++ [⟨field.map envByte, none⟩]) = Note.encode notes.all ++ _
    simp [Note.bytes]
  · change _ = (Note.slots startOffsetInit (notes.all ++ [⟨field.map envByte, none⟩])).reverse
    have measured := shown.stored.offset
    simp only [shown.list, measured, Note.slots_append]
    simp [Note.slots, Note.slot]

/-- The bytes of some headers up to the NUL that ends the newest name without a value. -/
theorem encode_of_unvalued (bare : notes.newest.value = none) :
    Note.encode notes.all = (Note.encode notes.older ++ notes.newest.name) ++ [0] := by
  rw [Notes.all, Note.encode_append, Note.encode_singleton, Note.bytes, bare]
  simp

/-- The bytes of some headers up to the NUL that ends the newest value. -/
theorem encode_of_valued {text : List UInt8} (valued : notes.newest.value = some text) :
    Note.encode notes.all =
      (Note.encode notes.older ++ (notes.newest.name ++ [0] ++ text)) ++ [0] := by
  rw [Notes.all, Note.encode_append, Note.encode_singleton, Note.bytes, valued]
  simp

theorem Shown.positive (shown : scgi.Shown notes) : 1 ≤ scgi.headerOffset := by
  have measured := shown.stored.offset
  have top : startOffsetInit = 40 := rfl
  omega

/-- A further name piece extends the newest name while there is no value. -/
theorem Shown.headerFieldAdd_continue (shown : scgi.Shown notes) (field : List UInt8)
    (bare : notes.newest.value = none) :
    ((scgi.headerFieldAdd field notes.index).getD scgi).Shown
      { notes with newest := ⟨notes.newest.name ++ field.map envByte, none⟩ } := by
  have open' : (notes.newest.slot
      (startOffsetInit + (Note.encode notes.older).length)).valueOffset = 0 := by
    rw [Note.slot, bare]
  have added := Scgi.headerFieldAdd_continue field shown.latest open' shown.positive
  rw [shown.index] at added
  rw [added, Option.getD_some]
  refine shown.put (encode_of_unvalued bare) (Nat.sub_add_cancel shown.positive) ?_ ?_ ?_ rfl rfl
    rfl
  · have positive := shown.positive
    simp only [List.length_append, List.length_map, List.length_cons, List.length_nil]
    omega
  · simp [Notes.all, Note.bytes]
  · rw [Notes.all, Note.slots_append, Note.slot, bare]
    simp [Note.slots, Note.slot]

/-- A name piece behind a value, or with a number that is over, is turned down. -/
theorem Shown.headerFieldAdd_refused (shown : scgi.Shown notes) (field : List UInt8) {index : Int}
    (notLater : ¬ notes.index < index)
    (closed : ¬ (index = notes.index ∧ notes.newest.value = none)) :
    (scgi.headerFieldAdd field index).getD scgi = scgi := by
  unfold headerFieldAdd
  rw [shown.index]
  by_cases over' : index < notes.index
  · rw [if_pos over', Option.getD_none]
  · have same : notes.index = index := by omega
    have valued : (notes.newest.slot
        (startOffsetInit + (Note.encode notes.older).length)).valueOffset ≠ 0 := by
      cases stands : notes.newest.value with
      | none => exact absurd ⟨same.symm, stands⟩ closed
      | some value => simp [Note.slot, stands]
    rw [if_neg over', if_pos same, shown.latest]
    simp only [if_pos valued, Option.getD_none]

/-- A value piece with the current number starts or extends the newest value. -/
theorem Shown.headerValueAdd (shown : scgi.Shown notes) (value : List UInt8) :
    ((scgi.headerValueAdd value notes.index).getD scgi).Shown
      { notes with
        newest := { notes.newest with value := some (notes.newest.value.getD [] ++ value) } } := by
  have measured := shown.stored.offset
  have positive := shown.positive
  cases stands : notes.newest.value with
  | none =>
      have open' : (notes.newest.slot
          (startOffsetInit + (Note.encode notes.older).length)).valueOffset = 0 := by
        rw [Note.slot, stands]
      have added := headerValueAdd_begin value shown.latest open'
      rw [shown.index] at added
      rw [added, Option.getD_some]
      refine shown.put (List.append_nil _).symm rfl ?_ ?_ ?_ rfl rfl rfl
      · simp only [List.length_append, List.length_cons, List.length_nil]
        omega
      · rw [encode_of_unvalued stands]
        simp [Notes.all, Note.bytes]
      · rw [encode_of_unvalued stands] at measured
        rw [Notes.all, Note.slots_append, Note.slot, stands]
        simp only [List.length_append, List.length_cons, List.length_nil] at measured
        simp [Note.slots, Note.slot]
        omega
  | some text =>
      have valued : (notes.newest.slot
          (startOffsetInit + (Note.encode notes.older).length)).valueOffset ≠ 0 := by
        simp [Note.slot, stands]
      have added := headerValueAdd_continue value shown.latest valued positive
      rw [shown.index] at added
      rw [added, Option.getD_some]
      refine shown.put (encode_of_valued stands) (Nat.sub_add_cancel positive) ?_ ?_ ?_ rfl rfl rfl
      · simp only [List.length_append, List.length_cons, List.length_nil]
        omega
      · simp [Notes.all, Note.bytes]
      · rw [Notes.all, Note.slots_append, Note.slot, stands]
        simp [Note.slots, Note.slot]

/-- The byte before the first header is a NUL once there is a content length. -/
theorem Shown.ended (shown : scgi.Shown notes) {length : Nat} (given : notes.length = some length) :
    scgi.startOffset < startOffsetInit ∧ scgi.header.slice (startOffsetInit - 1) 1 = [0] := by
  obtain ⟨text, shape⟩ : ∃ text, notes.front = text ++ [0] := by
    rw [Notes.front, given]
    exact ⟨_, contentLengthEntry_ended length⟩
  have start := shown.start
  have front := shown.front
  rw [shape, List.length_append, List.length_singleton] at start front
  have last : scgi.startOffset + text.length = startOffsetInit - 1 := by omega
  have split := (Block.slice_of_append _ _ front rfl).2
  rw [last] at split
  exact ⟨by omega, split⟩

/-- A text written in front of the headers over whatever stood there, behind it a NUL. -/
theorem Shown.rewrite {after : Notes} {place : Nat} {text : List UInt8} (shown : scgi.Shown notes)
    (placed : place + text.length + 1 = startOffsetInit) (fronted : after.front = text ++ [0])
    (all : after.all = notes.all) (index : after.index = notes.index)
    (body : after.body = notes.body) :
    { scgi with
      header := (scgi.header.write (scgi.startOffset - 1) [0]).write place text
      startOffset := place }.Shown after := by
  obtain ⟨fits, size, measured, room, bytes⟩ := shown.stored
  have top : startOffsetInit = 40 := rfl
  have before : scgi.startOffset ≤ startOffsetInit := Nat.le.intro shown.start
  have last : place + text.length = startOffsetInit - 1 := by omega
  have one : ([0] : List UInt8).length = 1 := rfl
  -- The first write ends a new text, or falls before the NUL of an earlier one.
  have nul : (scgi.header.write (scgi.startOffset - 1) [0]).slice (startOffsetInit - 1) 1 =
      [0] := by
    cases given : notes.length with
    | none =>
        have start : scgi.startOffset = startOffsetInit := by
          simpa [Notes.front, given] using shown.start
        rw [start]
        exact Block.slice_write_self _ _ _
    | some length =>
        obtain ⟨earlier, ended⟩ := shown.ended given
        rw [Block.slice_write_of_ge _ _ _ _ _ (by omega), ended]
  refine ⟨⟨?_, size, ?_, room, ?_⟩, ?_, ?_, ?_, ?_, ?_⟩
  · simp only
    rw [Block.wild_write_of_le, Block.wild_write_of_le, fits]
    · omega
    · rw [Block.size_write]
      omega
  · rw [all]
    exact measured
  · rw [all]
    simp only
    rw [Block.slice_write_of_ge _ _ _ _ _ (by omega),
      Block.slice_write_of_ge _ _ _ _ _ (by omega), bytes]
  · rw [fronted, List.length_append, one]
    exact placed
  · rw [fronted, List.length_append, one, Block.slice_add]
    simp only
    rw [Block.slice_write_self, last, Block.slice_write_of_ge _ _ _ _ _ (Nat.le_of_eq last), nul]
  · rw [all]
    exact shown.list
  · rw [index]
    exact shown.index
  · rw [body]
    exact shown.body

/-- A content length is written over whatever stood in front of the headers. -/
theorem Shown.contentLengthAdd (shown : scgi.Shown notes) (length : Nat) :
    (scgi.contentLengthAdd length).Shown { notes with length := some length } := by
  obtain ⟨place, placed, written⟩ := contentLengthAdd_writes scgi length
  rw [written]
  exact shown.rewrite placed (contentLengthEntry_ended length) rfl rfl rfl

/-- An operation keeps an object and its notes together. -/
theorem Shown.perform (shown : scgi.Shown notes) (op : Op) :
    (scgi.perform op).Shown (notes.step op) := by
  cases op with
  | contentLengthAdd length => exact shown.contentLengthAdd length
  | add next =>
      cases next with
      | headerAdd field value => exact shown.headerAdd field value
      | headerFieldAdd field index =>
          change ((scgi.headerFieldAdd field index).getD scgi).Shown _
          rw [Notes.step]
          by_cases later : notes.index < index
          · rw [if_pos later]
            exact shown.headerFieldAdd_begin field later
          · rw [if_neg later]
            by_cases open' : index = notes.index ∧ notes.newest.value = none
            · rw [if_pos open', open'.1]
              exact shown.headerFieldAdd_continue field open'.2
            · rw [if_neg open', shown.headerFieldAdd_refused field later open']
              exact shown
      | headerValueAdd value index =>
          change ((scgi.headerValueAdd value index).getD scgi).Shown _
          rw [Notes.step]
          by_cases current : index = notes.index
          · rw [if_pos current, current]
            exact shown.headerValueAdd value
          · have refused : scgi.headerValueAdd value index = none := by
              rw [Scgi.headerValueAdd, if_pos (by rw [shown.index]; exact current)]
            rw [if_neg current, refused]
            exact shown
      | bodyAdd body =>
          have added : (scgi.body.getD [] ++ body) = notes.body ++ body := by rw [shown.body]
          exact ⟨⟨shown.stored.fits, shown.stored.size, shown.stored.offset, shown.stored.room,
            shown.stored.bytes⟩, shown.start, shown.front, shown.list, shown.index, added⟩

theorem Shown.start_new (junk : Nat → UInt8) : (Scgi.new junk).Shown Notes.start := by
  have layout := Layout.new junk
  have stored := layout.stored
  refine ⟨?_, layout.start, rfl, layout.list, index_new junk, ?_⟩
  · exact stored
  · rw [(frame_new junk).1]
    rfl

/-- Operations keep an object and its notes together. -/
theorem Shown.performs (shown : scgi.Shown notes) (ops : List Op) :
    (ops.foldl Scgi.perform scgi).Shown (ops.foldl Notes.step notes) := by
  induction ops generalizing scgi notes with
  | nil => exact shown
  | cons op rest ih => exact ih (shown.perform op)

/-- The slots of some headers whose bytes are in the block are their records. -/
theorem recorded_slots (offset : Nat) (items : List Note)
    (bytes : scgi.header.slice offset (Note.encode items).length = Note.encode items)
    (inside : offset + (Note.encode items).length ≤ scgi.headerOffset) :
    List.Forall₂ scgi.Recorded items (Note.slots offset items) := by
  induction items generalizing offset with
  | nil => exact .nil
  | cons note rest ih =>
      have shape : Note.encode (note :: rest) = note.bytes ++ Note.encode rest := by
        simp [Note.encode]
      rw [shape, List.length_append] at bytes inside
      obtain ⟨first, second⟩ := Block.slice_of_append _ _ bytes rfl
      refine .cons ?_ (ih _ second (by omega))
      obtain ⟨name, value⟩ := note
      cases value with
      | none =>
          have measured : (Note.bytes ⟨name, none⟩).length = name.length + 1 := by
            simp [Note.bytes]
          rw [measured] at first inside
          refine ⟨rfl, ?_, ?_, fun _ => ⟨rfl, rfl⟩, nofun, nofun, fun given => absurd rfl given⟩
          · simpa [Note.bytes, Note.slot] using first
          · simp only [Note.slot]
            omega
      | some value =>
          have measured : (Note.bytes ⟨name, some value⟩).length =
              (name.length + 1) + (value.length + 1) := by
            simp [Note.bytes]
            omega
          have parts : Note.bytes ⟨name, some value⟩ = (name ++ [0]) ++ (value ++ [0]) := rfl
          rw [measured] at first inside
          rw [parts] at first
          obtain ⟨named, valued⟩ := Block.slice_of_append _ _ first (by simp)
          refine ⟨rfl, named, ?_, nofun, ?_, ?_, fun _ => ?_⟩
          · simp only [Note.slot]
            omega
          · rintro _ ⟨⟩
            rfl
          · rintro _ ⟨⟩
            rw [← Nat.add_assoc] at valued
            exact valued
          · simp only [Note.slot]
            omega

theorem Shown.sound (shown : scgi.Shown notes) : scgi.Sound notes.front notes.all := by
  have stored := shown.stored
  have room := stored.room
  refine ⟨stored.fits, stored.size, by omega, shown.start, shown.front, ?_⟩
  rw [shown.list, List.reverse_reverse]
  exact recorded_slots _ _ stored.bytes (Nat.le_of_eq stored.offset.symm)

/-- A build adds the content length of the body unless one was written. -/
theorem Shown.contentLengthCheck (shown : scgi.Shown notes) :
    scgi.contentLengthCheck.Shown notes.counted := by
  unfold Scgi.contentLengthCheck
  cases given : notes.length with
  | none =>
      have start : scgi.startOffset = startOffsetInit := by
        simpa [Notes.front, given] using shown.start
      rw [if_pos start, Scgi.bodyLength, shown.body, Notes.counted, given]
      exact shown.contentLengthAdd notes.body.length
  | some length =>
      have counted : notes.counted = notes := by
        obtain ⟨older, newest, index, length', body⟩ := notes
        rw [Notes.counted, given]
        exact given ▸ rfl
      rw [if_neg (Nat.ne_of_lt (shown.ended given).1), counted]
      exact shown

/-- Closing an object writes the length of its headers in front and a comma behind, both inside
the block, and leaves every header where it is. -/
theorem Shown.close (shown : scgi.Shown notes) {length : Nat}
    (given : notes.length = some length) :
    scgi.close.Sound
      (Decimal.format (notes.front.length + (Note.encode notes.all).length) ++ ascii ":" ++
        notes.front) notes.all := by
  obtain ⟨fits, size, measured, room, bytes⟩ := shown.stored
  have start := shown.start
  have front := shown.front
  have top : startOffsetInit = 40 := rfl
  have short : notes.front.length ≤ 27 := by
    rw [Notes.front, given]
    exact length_contentLengthEntry_le length
  have span : scgi.headerOffset - scgi.startOffset =
      notes.front.length + (Note.encode notes.all).length := by omega
  have digits := Decimal.length_format_le
    (notes.front.length + (Note.encode notes.all).length)
  have colon : (ascii ":").length = 1 := rfl
  have comma : (ascii ",").length = 1 := rfl
  unfold Scgi.close
  simp only [span]
  generalize Decimal.format (notes.front.length + (Note.encode notes.all).length) = number
    at digits ⊢
  have prefixed : (number ++ ascii ":").length = number.length + 1 := by
    rw [List.length_append, colon]
  obtain ⟨place, placed⟩ : ∃ place, place + (number.length + 1) = scgi.startOffset :=
    ⟨scgi.startOffset - (number.length + 1), by omega⟩
  have placed' : scgi.startOffset - (number ++ ascii ":").length = place := by omega
  rw [placed']
  refine ⟨?_, size, ?_, ?_, ?_, ?_⟩
  · simp only
    rw [Block.wild_write_of_le, Block.wild_write_of_le, fits]
    · omega
    · rw [Block.size_write]
      omega
  · simp only
    omega
  · rw [List.length_append, prefixed]
    simp only
    omega
  · rw [List.length_append, prefixed, Block.slice_add]
    simp only
    rw [Block.slice_write_of_le _ _ _ _ _ (by omega), Block.slice_write_eq _ _ _ _ prefixed.symm,
      Block.slice_write_of_le _ _ _ _ _ (by omega), placed,
      Block.slice_write_of_ge _ _ _ _ _ (by omega), front]
  · simp only [shown.list, List.reverse_reverse]
    refine recorded_slots _ _ ?_ ?_
    · simp only
      rw [Block.slice_write_of_le _ _ _ _ _ (by omega),
        Block.slice_write_of_ge _ _ _ _ _ (by omega), bytes]
    · simp only
      omega

/-- The builder is sound. Whatever operations a new object goes through, all writes stay inside
the memory of its header block, the header offset stays inside it too, no subtraction from the
start offset runs below zero, and every recorded header reads as what was added, each part of
it with a NUL behind; and so it is when a build ends them. -/
theorem builder_sound (junk : Nat → UInt8) (ops : List Op) :
    (ops.foldl Scgi.perform (Scgi.new junk)).Sound (ops.foldl Notes.step Notes.start).front
      (ops.foldl Notes.step Notes.start).all ∧
    (ops.foldl Scgi.perform (Scgi.new junk)).build.Sound
      (Decimal.format ((ops.foldl Notes.step Notes.start).counted.front.length +
          (Note.encode (ops.foldl Notes.step Notes.start).all).length) ++ ascii ":" ++
        (ops.foldl Notes.step Notes.start).counted.front)
      (ops.foldl Notes.step Notes.start).all := by
  have shown := (Shown.start_new junk).performs ops
  generalize ops.foldl Scgi.perform (Scgi.new junk) = scgi at shown
  generalize ops.foldl Notes.step Notes.start = notes at shown
  have typed : { scgi with type := .build }.Shown notes :=
    ⟨⟨shown.stored.fits, shown.stored.size, shown.stored.offset, shown.stored.room,
      shown.stored.bytes⟩, shown.start, shown.front, shown.list, shown.index, shown.body⟩
  exact ⟨shown.sound, typed.contentLengthCheck.close rfl⟩

end Scgi
