import Webroar.Scgi.Basic

/-! # The entries of a header block

What a header block says is a list of entries, a name and a value each. On the wire an entry
is its name, a NUL, its value and a NUL; in an object it is a slot of offsets and lengths.
An object holds a list of entries when its slots are those of the list and its block has their
bytes. Builder and parser both establish this, so what is looked up in either is looked up in
the list.
-/

namespace Scgi

/-- A header as the bytes of its name and its value. -/
abbrev Entry := List UInt8 × List UInt8

/-- The bytes of an entry on the wire. -/
def encodeEntry (item : Entry) : List UInt8 := item.1 ++ 0 :: (item.2 ++ [0])

/-- The bytes of a list of entries on the wire. -/
def encode (items : List Entry) : List UInt8 := items.flatMap encodeEntry

/-- The slots of a list of entries laid out from `offset` on, in order. -/
def slots (offset : Nat) : List Entry → List ScgiHeader
  | [] => []
  | (name, value) :: rest =>
      ⟨offset, offset + name.length + 1, name.length, value.length⟩ ::
        slots (offset + (name.length + value.length + 2)) rest

/-- The value of the latest entry of a name. -/
def latest (items : List Entry) (name : List UInt8) : Option (List UInt8) :=
  (items.reverse.find? fun item => item.1 = name).map Prod.snd

@[simp] theorem length_encodeEntry (item : Entry) :
    (encodeEntry item).length = item.1.length + item.2.length + 2 := by
  simp only [encodeEntry, List.length_append, List.length_cons, List.length_nil]
  omega

theorem encodeEntry_ended (name value : List UInt8) :
    encodeEntry (name, value) = (name ++ 0 :: value) ++ [0] := by
  simp [encodeEntry]

@[simp] theorem encode_nil : encode [] = [] := rfl

theorem encode_cons (item : Entry) (rest : List Entry) :
    encode (item :: rest) = encodeEntry item ++ encode rest := rfl

@[simp] theorem encode_append (first second : List Entry) :
    encode (first ++ second) = encode first ++ encode second := by
  simp [encode]

@[simp] theorem encode_singleton (item : Entry) : encode [item] = encodeEntry item := by
  simp [encode]

/-- A byte other than NUL is in the bytes of some entries only when it is in one of them. -/
theorem not_mem_encode {byte : UInt8} {items : List Entry} (visible : byte ≠ 0)
    (absent : ∀ item ∈ items, byte ∉ item.1 ∧ byte ∉ item.2) : byte ∉ encode items := by
  intro member
  obtain ⟨item, listed, inside⟩ := List.mem_flatMap.mp member
  obtain ⟨notName, notValue⟩ := absent item listed
  rcases List.mem_append.mp inside with name | rest
  · exact notName name
  · rcases List.mem_cons.mp rest with nul | value
    · exact visible nul
    · rcases List.mem_append.mp value with here | last
      · exact notValue here
      · exact visible (List.mem_singleton.mp last)

theorem slots_append (offset : Nat) (first second : List Entry) :
    slots offset (first ++ second) =
      slots offset first ++ slots (offset + (encode first).length) second := by
  induction first generalizing offset with
  | nil => simp [slots]
  | cons item rest ih =>
      rw [List.cons_append, slots, slots, ih, List.cons_append, encode_cons, List.length_append,
        length_encodeEntry, Nat.add_assoc offset (_ + 2)]

/-- The bytes of an entry in a block, taken apart. -/
theorem slice_encodeEntry {block : Block UInt8} {offset : Nat} {name value : List UInt8}
    (bytes : block.slice offset (name.length + value.length + 2) = encodeEntry (name, value)) :
    block.slice offset name.length = name ∧
      block.slice (offset + name.length + 1) value.length = value ∧
      block.slice (offset + name.length + 1) (value.length + 1) = value ++ [0] := by
  have split : name.length + value.length + 2 = (name.length + 1) + (value.length + 1) := by
    omega
  rw [split] at bytes
  obtain ⟨front, ended⟩ := Block.slice_of_append (name ++ [0]) (value ++ [0])
    (by simpa [encodeEntry] using bytes) (by simp)
  have named := (Block.slice_of_append name [0] front rfl).1
  rw [← Nat.add_assoc] at ended
  have valued := (Block.slice_of_append value [0] ended rfl).1
  exact ⟨named, valued, ended⟩

/-- The name of an entry in a block, with the NUL behind it. -/
theorem slice_encodeEntry_name {block : Block UInt8} {offset : Nat} {name value : List UInt8}
    (bytes : block.slice offset (name.length + value.length + 2) = encodeEntry (name, value)) :
    block.slice offset name.length = name ∧
      block.slice offset (name.length + 1) = name ++ [0] := by
  have split : name.length + value.length + 2 = (name.length + 1) + (value.length + 1) := by
    omega
  rw [split] at bytes
  have front := (Block.slice_of_append (name ++ [0]) (value ++ [0])
    (by simpa [encodeEntry] using bytes) (by simp)).1
  exact ⟨(Block.slice_of_append name [0] front rfl).1, front⟩

/-- The slots of a list of entries in a block with their bytes read the entries back. -/
theorem slots_read (block : Block UInt8) (offset : Nat) (items : List Entry)
    (bytes : block.slice offset (encode items).length = encode items) :
    (slots offset items).map (fun header =>
      (block.slice header.fieldOffset header.fieldLength,
        block.slice header.valueOffset header.valueLength)) = items := by
  induction items generalizing offset with
  | nil => rfl
  | cons item rest ih =>
      obtain ⟨name, value⟩ := item
      rw [encode_cons, List.length_append, length_encodeEntry] at bytes
      obtain ⟨first, second⟩ := Block.slice_of_append _ _ bytes (length_encodeEntry _)
      obtain ⟨named, valued, -⟩ := slice_encodeEntry first
      rw [slots, List.map_cons, ih _ second]
      simp only [named, valued]

/-- An object holds a list of entries laid out from `offset` on. -/
structure Holds (scgi : Scgi) (offset : Nat) (items : List Entry) : Prop where
  list : scgi.headerList = (slots offset items).reverse
  bytes : scgi.header.slice offset (encode items).length = encode items
  room : offset + (encode items).length ≤ scgi.header.size

variable {scgi : Scgi} {offset : Nat} {items : List Entry}

theorem Holds.entries (holds : scgi.Holds offset items) : scgi.entries = items := by
  rw [Scgi.entries, holds.list, List.reverse_reverse]
  exact slots_read scgi.header offset items holds.bytes

/-- Each slot lies inside the bytes of the entries, with a NUL after its value. -/
theorem slots_inside (block : Block UInt8) (offset : Nat) (items : List Entry)
    (bytes : block.slice offset (encode items).length = encode items)
    (header : ScgiHeader) (member : header ∈ slots offset items) :
    header.valueOffset + header.valueLength + 1 ≤ offset + (encode items).length ∧
      block.slice header.valueOffset (header.valueLength + 1) =
        block.slice header.valueOffset header.valueLength ++ [0] := by
  induction items generalizing offset with
  | nil => cases member
  | cons item rest ih =>
      obtain ⟨name, value⟩ := item
      rw [encode_cons, List.length_append, length_encodeEntry] at bytes
      obtain ⟨first, second⟩ := Block.slice_of_append _ _ bytes (length_encodeEntry _)
      rw [encode_cons, List.length_append, length_encodeEntry]
      rw [slots] at member
      rcases List.mem_cons.mp member with rfl | later
      · obtain ⟨-, valued, ended⟩ := slice_encodeEntry first
        refine ⟨by simp only; omega, ?_⟩
        simp only [ended, valued]
      · obtain ⟨inside, ended⟩ := ih _ second later
        exact ⟨by simp only at inside ⊢; omega, ended⟩

/-- A name in a slot lies inside the bytes of the entries too, with a NUL behind it. -/
theorem slots_named (block : Block UInt8) (offset : Nat) (items : List Entry)
    (bytes : block.slice offset (encode items).length = encode items)
    (header : ScgiHeader) (member : header ∈ slots offset items) :
    header.fieldOffset + header.fieldLength + 1 ≤ offset + (encode items).length ∧
      block.slice header.fieldOffset (header.fieldLength + 1) =
        block.slice header.fieldOffset header.fieldLength ++ [0] := by
  induction items generalizing offset with
  | nil => cases member
  | cons item rest ih =>
      obtain ⟨name, value⟩ := item
      rw [encode_cons, List.length_append, length_encodeEntry] at bytes
      obtain ⟨first, second⟩ := Block.slice_of_append _ _ bytes (length_encodeEntry _)
      rw [encode_cons, List.length_append, length_encodeEntry]
      rw [slots] at member
      rcases List.mem_cons.mp member with rfl | later
      · obtain ⟨named, ended⟩ := slice_encodeEntry_name first
        refine ⟨by simp only; omega, ?_⟩
        simp only [ended, named]
      · obtain ⟨inside, ended⟩ := ih _ second later
        exact ⟨by simp only at inside ⊢; omega, ended⟩

/-- The text at some cells without a NUL that a NUL follows. -/
theorem textAt_of_slice {start length : Nat} (inside : start + length + 1 ≤ scgi.header.size)
    (ended : scgi.header.slice start (length + 1) = scgi.header.slice start length ++ [0])
    (plain : (0 : UInt8) ∉ scgi.header.slice start length) :
    scgi.textAt start = scgi.header.slice start length := by
  obtain ⟨rest, measured⟩ : ∃ rest, scgi.header.size - start = (length + 1) + rest :=
    ⟨scgi.header.size - start - (length + 1), by omega⟩
  rw [Scgi.textAt, measured, Block.slice_add, ended, List.append_assoc,
    List.takeWhile_append_of_pos fun byte inside' => by
      simp only [ne_eq, decide_not, Bool.not_eq_eq_eq_not, Bool.not_true, decide_eq_false_iff_not]
      rintro rfl
      exact plain inside']
  simp

/-- The texts at the name and the value of a slot that have no NUL are the name and the value. -/
theorem Holds.textAt (holds : scgi.Holds offset items) {header : ScgiHeader}
    (member : header ∈ slots offset items) :
    ((0 : UInt8) ∉ (scgi.entry header).1 →
      scgi.textAt header.fieldOffset = (scgi.entry header).1) ∧
    ((0 : UInt8) ∉ (scgi.entry header).2 →
      scgi.textAt header.valueOffset = (scgi.entry header).2) := by
  have room := holds.room
  obtain ⟨nameInside, nameEnded⟩ :=
    slots_named scgi.header offset items holds.bytes header member
  obtain ⟨valueInside, valueEnded⟩ :=
    slots_inside scgi.header offset items holds.bytes header member
  exact ⟨textAt_of_slice (nameInside.trans room) nameEnded,
    textAt_of_slice (valueInside.trans room) valueEnded⟩

/-- The latest header of a name is the latest header whose recorded name is that name. -/
theorem headerGet_eq (scgi : Scgi) (name : List UInt8) :
    scgi.headerGet name = scgi.headerList.find? fun header => (scgi.entry header).1 = name := by
  unfold headerGet
  congr 1
  funext header
  rw [Bool.eq_iff_iff, Bool.and_eq_true, decide_eq_true_eq, decide_eq_true_eq, decide_eq_true_eq]
  constructor
  · rintro ⟨length, same⟩
    rw [length] at same
    exact same
  · intro same
    have length : name.length = header.fieldLength := by
      rw [← same]
      simp [entry]
    exact ⟨length, by rw [length]; exact same⟩

/-- The entries read back from the slots. -/
theorem Holds.read (holds : scgi.Holds offset items) :
    (slots offset items).map scgi.entry = items :=
  slots_read scgi.header offset items holds.bytes

/-- The latest header of a name is the latest entry of the name. -/
theorem Holds.latest_eq (holds : scgi.Holds offset items) (name : List UInt8) :
    (scgi.headerGet name).map (fun header => (scgi.entry header).2) = latest items name := by
  rw [latest, headerGet_eq, holds.list]
  conv_rhs => rw [← holds.read, ← List.map_reverse, List.find?_map, Option.map_map]
  rfl

/-- Looking a name up in an object is looking it up in the entries it holds. -/
theorem Holds.headerValueGet (holds : scgi.Holds offset items)
    (plain : ∀ item ∈ items, (0 : UInt8) ∉ item.2) (name : List UInt8) :
    scgi.headerValueGet name = latest items name := by
  rw [← holds.latest_eq, Scgi.headerValueGet]
  cases found : scgi.headerGet name with
  | none => rfl
  | some header =>
      have listed : header ∈ scgi.headerList := by
        rw [headerGet_eq] at found
        exact List.mem_of_find?_eq_some found
      rw [holds.list, List.mem_reverse] at listed
      have item : scgi.entry header ∈ (slots offset items).map scgi.entry :=
        List.mem_map_of_mem listed
      rw [holds.read] at item
      rw [Option.map_some, Option.map_some, (holds.textAt listed).2 (plain _ item)]

end Scgi
