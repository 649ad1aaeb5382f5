import Mathlib
import Webroar.Scgi.Parser

/-! # What the parser accepts

An SCGI text is a numeral, a colon, as many bytes as it says, which are entries with names, a comma
and any body. The parser reads on to the first comma in a name, whatever the numeral was; the
name before that comma is forgotten, and so is a body of one byte.

A text the parser can read is split at that comma. The parser does with it what it should exactly
when the split is the one of the grammar and the body is not a single byte.
-/

namespace Scgi

/-- The grammar: a numeral, as many bytes of entries as it says, and a body. -/
structure Sentence (buffer digits : List UInt8) (items : List Entry) (body : List UInt8) :
    Prop where
  shape : buffer = digits ++ 58 :: (encode items ++ 44 :: body)
  number : digits ≠ []
  decimal : ∀ byte ∈ digits, Decimal.isDigit byte = true
  length : (encode items).length = Decimal.readDigits 0 digits
  named : ∀ item ∈ items, item.1 ≠ [] ∧ (0 : UInt8) ∉ item.1 ∧ (0 : UInt8) ∉ item.2

/-- A buffer that is split where the parser stops: at the first comma in a name, with `rest` before
it. -/
structure Split (buffer digits : List UInt8) (items : List Entry) (rest body : List UInt8) :
    Prop where
  shape : buffer = digits ++ 58 :: (encode items ++ (rest ++ 44 :: body))
  decimal : ∀ byte ∈ digits, Decimal.isDigit byte = true
  clean : Clean items
  plain : (0 : UInt8) ∉ rest ∧ (44 : UInt8) ∉ rest

/-- Where that comma is. -/
def commaAt (digits : List UInt8) (items : List Entry) (rest : List UInt8) : Nat :=
  digits.length + 1 + (encode items).length + rest.length

/-- The counter comes to the comma, and to the first byte of the body if there is one. -/
def Near (digits : List UInt8) (items : List Entry) (rest body : List UInt8) : Prop :=
  commaAt digits items rest + min 1 body.length < 2 ^ 31

/-- The numeral is there and right, every name is there, the comma ends no name, and the body is not a
single byte. -/
structure Regular (digits : List UInt8) (items : List Entry) (rest body : List UInt8) : Prop where
  number : digits ≠ []
  length : (encode items).length = Decimal.readDigits 0 digits
  named : ∀ item ∈ items, item.1 ≠ []
  ended : rest = []
  several : body.length ≠ 1

variable {buffer digits rest body : List UInt8} {items : List Entry}

/-! ### One split at most -/

/-- A text without a stop that is followed by a stop ends there. -/
theorem stop_unique {stop : UInt8 → Bool} {text other more less : List UInt8}
    {first second : UInt8} (same : text ++ first :: more = other ++ second :: less)
    (plain : ∀ byte ∈ text, stop byte = false) (plain' : ∀ byte ∈ other, stop byte = false)
    (ends : stop first = true) (ends' : stop second = true) :
    text = other ∧ first = second ∧ more = less := by
  have cut (text more : List UInt8) (first : UInt8) (plain : ∀ byte ∈ text, stop byte = false)
      (ends : stop first = true) : (text ++ first :: more).takeWhile (!stop ·) = text := by
    rw [List.takeWhile_append_of_pos fun byte member => by rw [plain byte member]; rfl,
      List.takeWhile_cons_of_neg (by rw [ends]; decide), List.append_nil]
  have front := congrArg (List.takeWhile (!stop ·)) same
  rw [cut _ _ _ plain ends, cut _ _ _ plain' ends'] at front
  subst front
  exact ⟨rfl, List.cons.inj (List.append_cancel_left same)⟩

/-- The colon behind a numeral is the first one. -/
theorem colon_unique {other more less : List UInt8}
    (same : digits ++ 58 :: more = other ++ 58 :: less)
    (decimal : ∀ byte ∈ digits, Decimal.isDigit byte = true)
    (decimal' : ∀ byte ∈ other, Decimal.isDigit byte = true) : digits = other ∧ more = less := by
  obtain ⟨digits, -, rest⟩ := @stop_unique (!Decimal.isDigit ·) _ _ _ _ _ _ same
    (fun byte member => by rw [decimal byte member]; rfl)
    (fun byte member => by rw [decimal' byte member]; rfl) rfl rfl
  exact ⟨digits, rest⟩

/-- A NUL or a comma. -/
def endsName (byte : UInt8) : Bool := byte = 0 || byte = 44

theorem endsName_of_plain {name : List UInt8} (plain : (0 : UInt8) ∉ name ∧ (44 : UInt8) ∉ name)
    (byte : UInt8) (member : byte ∈ name) : endsName byte = false := by
  have notNul : byte ≠ 0 := fun same => plain.1 (same ▸ member)
  have notComma : byte ≠ 44 := fun same => plain.2 (same ▸ member)
  simp [endsName, notNul, notComma]

theorem encodeEntry_append (item : Entry) (more : List UInt8) :
    encodeEntry item ++ more = item.1 ++ 0 :: (item.2 ++ 0 :: more) := by
  simp [encodeEntry]

theorem items_unique {items' : List Entry} {rest' body' : List UInt8}
    (same : encode items ++ (rest ++ 44 :: body) = encode items' ++ (rest' ++ 44 :: body'))
    (clean : Clean items) (clean' : Clean items')
    (plain : (0 : UInt8) ∉ rest ∧ (44 : UInt8) ∉ rest)
    (plain' : (0 : UInt8) ∉ rest' ∧ (44 : UInt8) ∉ rest') :
    items = items' ∧ rest = rest' ∧ body = body' := by
  induction items generalizing items' with
  | nil =>
      cases items' with
      | nil =>
          obtain ⟨rfl, -, rfl⟩ := stop_unique same (endsName_of_plain plain)
            (endsName_of_plain plain') rfl rfl
          exact ⟨rfl, rfl, rfl⟩
      | cons item items' =>
          rw [encode_cons, List.append_assoc, encodeEntry_append] at same
          obtain ⟨-, other, -⟩ := stop_unique same (endsName_of_plain plain)
            (endsName_of_plain (clean' item List.mem_cons_self).1) rfl rfl
          exact absurd other (by decide)
  | cons item items ih =>
      have cleaned := clean item List.mem_cons_self
      rw [encode_cons, List.append_assoc, encodeEntry_append] at same
      cases items' with
      | nil =>
          obtain ⟨-, other, -⟩ := stop_unique same (endsName_of_plain cleaned.1)
            (endsName_of_plain plain') rfl rfl
          exact absurd other (by decide)
      | cons item' items' =>
          have cleaned' := clean' item' List.mem_cons_self
          rw [encode_cons, List.append_assoc, encodeEntry_append] at same
          obtain ⟨names, -, more⟩ := stop_unique same
            (endsName_of_plain cleaned.1) (endsName_of_plain cleaned'.1) rfl rfl
          obtain ⟨values, -, later⟩ := @stop_unique (· = 0) _ _ _ _ _ _ more
            (fun byte member => decide_eq_false fun nul => cleaned.2 (nul ▸ member))
            (fun byte member => decide_eq_false fun nul => cleaned'.2 (nul ▸ member)) rfl rfl
          obtain ⟨rfl, rfl, rfl⟩ := ih later
            (fun other member => clean other (List.mem_cons_of_mem _ member))
            fun other member => clean' other (List.mem_cons_of_mem _ member)
          exact ⟨by rw [Prod.ext names values], rfl, rfl⟩

/-! ### A split buffer is parsed -/

/-- The bytes before the comma. -/
def before (digits : List UInt8) (items : List Entry) (rest : List UInt8) : List UInt8 :=
  digits ++ 58 :: (encode items ++ rest)

theorem length_before : (before digits items rest).length = commaAt digits items rest := by
  simp only [before, commaAt, List.length_append, List.length_cons]
  omega

theorem Split.shape_before (split : Split buffer digits items rest body) :
    buffer = before digits items rest ++ 44 :: body := by
  rw [split.shape, before, List.append_assoc, List.cons_append, List.append_assoc]

/-- The parser before the comma. -/
theorem Split.parseBytes (split : Split buffer digits items rest body) :
    ∃ parser, Scgi.parseBytes buffer 0 (before digits items rest) (parseStart buffer) = parser ∧
      parser.state = .header ∧
      parser.scgi = { (parseStart buffer).scgi with
        headerOffset := digits.length + 1
        headerList := (slots (digits.length + 1) items).reverse } := by
  refine ⟨_, rfl, ?_⟩
  rw [before, parseBytes_append, parseBytes_digits _ _ _ _ rfl split.decimal, Nat.zero_add,
    Scgi.parseBytes, parseBytes_append]
  have ready : Ready (parseByte buffer digits.length 58 (parseStart buffer))
      (digits.length + 1) := ⟨rfl, rfl, rfl, rfl⟩
  obtain ⟨stands, recorded⟩ := parseBytes_encode buffer _ items _ ready split.clean
  rw [parseBytes_name _ _ _ _ stands.state split.plain.1 split.plain.2]
  refine ⟨stands.state, recorded.trans ?_⟩
  simp only [parseByte, parseStart, ↓reduceIte, List.append_nil]

/-- A buffer whose comma the counter comes to is parsed. -/
theorem Split.parse (split : Split buffer digits items rest body)
    (near : Near digits items rest body) :
    ∃ scgi, Scgi.parse buffer = some scgi ∧ scgi.entries = items ∧
      scgi.headerLength = (encode items).length + rest.length ∧
      scgi.body = if 2 ≤ body.length then some body else none := by
  obtain ⟨parser, reached, state, recorded⟩ := split.parseBytes
  have shape := split.shape_before
  have place : (before digits items rest).length = commaAt digits items rest := length_before
  have total : buffer.length = commaAt digits items rest + 1 + body.length := by
    rw [shape, List.length_append, List.length_cons, place]
    omega
  have apart : commaAt digits items rest - (digits.length + 1) =
      (encode items).length + rest.length := by
    unfold commaAt
    omega
  unfold Near at near
  have taken : buffer.take (2 ^ 31) = before digits items rest ++
      44 :: body.take (2 ^ 31 - commaAt digits items rest - 1) := by
    obtain ⟨room, left⟩ : ∃ room, 2 ^ 31 - commaAt digits items rest = room + 1 :=
      ⟨2 ^ 31 - commaAt digits items rest - 1, by omega⟩
    rw [left, Nat.add_sub_cancel]
    conv_lhs => rw [shape]
    rw [List.take_append, List.take_of_length_le (by omega), place, left, List.take_succ_cons]
  have entries : ∀ scgi : Scgi, scgi.header = Block.ofList buffer 0 →
      scgi.headerList = (slots (digits.length + 1) items).reverse → scgi.entries = items := by
    intro scgi block list
    refine @Holds.entries scgi (digits.length + 1) items ⟨list, ?_, ?_⟩
    · rw [block, Block.slice_ofList _ _ _ _ (by rw [total]; unfold commaAt; omega), split.shape,
        List.drop_append, List.drop_of_length_le (Nat.le_succ _), Nat.add_sub_cancel_left]
      simp
    · rw [block, Block.size_ofList, total]
      unfold commaAt
      omega
  unfold Scgi.parse parseRun
  rw [if_neg (by omega), taken, parseBytes_append, reached, Nat.zero_add, place, Scgi.parseBytes]
  cases body with
  | nil =>
      rw [List.length_nil] at total
      obtain ⟨done, ended⟩ := parseByte_comma_last buffer (commaAt digits items rest) parser state
        (by omega)
      rw [List.take_nil, Scgi.parseBytes, if_pos done, ended, recorded]
      exact ⟨_, rfl, entries _ rfl rfl, apart, rfl⟩
  | cons byte more =>
      rw [List.length_cons] at total near
      obtain ⟨atBody, start, ended⟩ := parseByte_comma_more buffer (commaAt digits items rest) parser
        state (by omega)
      obtain ⟨done, kept⟩ := parseByte_body buffer (commaAt digits items rest + 1) byte _ atBody
      obtain ⟨room, left⟩ : ∃ room, 2 ^ 31 - commaAt digits items rest - 1 = room + 1 :=
        ⟨2 ^ 31 - commaAt digits items rest - 1 - 1, by omega⟩
      have behind : buffer.drop (commaAt digits items rest + 1) = byte :: more := by
        have skipped : (before digits items rest ++ [44]).length =
            commaAt digits items rest + 1 := by
          rw [List.length_append, place]
          rfl
        rw [shape, List.append_cons, ← skipped, List.drop_left]
      rw [left, List.take_succ_cons, Scgi.parseBytes, parseBytes_stopped _ _ _ _ (Or.inl done),
        if_pos done, kept, ended, start, recorded, behind]
      refine ⟨_, rfl, entries _ rfl rfl, apart, ?_⟩
      dsimp only [parseStart]
      by_cases single : more.length = 0
      · rw [if_pos (by omega), if_neg (by rw [List.length_cons]; omega)]
      · rw [if_neg (by omega), if_pos (by rw [List.length_cons]; omega)]

/-! ### What is parsed was split -/

/-- What the parser has read, by its state. -/
def Reading (buffer text : List UInt8) (parser : Parser) : Prop :=
  match parser.state with
  | .invalid => True
  | .headerLength => ∀ byte ∈ text, Decimal.isDigit byte = true
  | .header => ∃ digits items name, text = before digits items name ∧
      (∀ byte ∈ digits, Decimal.isDigit byte = true) ∧ Clean items ∧
      (0 : UInt8) ∉ name ∧ (44 : UInt8) ∉ name
  | .value => ∃ digits items name value, text = before digits items name ++ 0 :: value ∧
      (∀ byte ∈ digits, Decimal.isDigit byte = true) ∧ Clean items ∧
      ((0 : UInt8) ∉ name ∧ (44 : UInt8) ∉ name) ∧ (0 : UInt8) ∉ value
  | .body => ∃ digits items rest, Split text digits items rest []
  | .done => ∃ digits items rest body, Split text digits items rest body ∧
      (body = [] → text.length = buffer.length)

theorem isDigit_of_not_other {byte : UInt8}
    (digit : ¬ (decide (byte < 48) || decide (57 < byte)) = true) :
    Decimal.isDigit byte = true := by
  simp only [Bool.or_eq_true, decide_eq_true_eq, not_or, UInt8.not_lt] at digit
  simp only [Decimal.isDigit, Bool.and_eq_true, decide_eq_true_eq]
  exact ⟨digit.1, digit.2⟩

theorem Reading.parseByte {text : List UInt8} {parser : Parser} {byte : UInt8}
    (reading : Reading buffer text parser) (inside : text.length < buffer.length) :
    Reading buffer (text ++ [byte]) (Scgi.parseByte buffer text.length byte parser) := by
  unfold Reading at reading
  cases state : parser.state with
  | invalid =>
      simp only [Scgi.parseByte, state, Reading]
  | headerLength =>
      simp only [state] at reading
      simp only [Scgi.parseByte, state]
      split
      · next colon =>
          subst colon
          exact ⟨text, [], [], rfl, reading, List.forall_mem_nil _, List.not_mem_nil,
            List.not_mem_nil⟩
      · split
        · trivial
        · next digit =>
            simp only [Reading, state]
            intro other member
            rcases List.mem_append.mp member with earlier | last
            · exact reading other earlier
            · rw [List.mem_singleton.mp last]
              exact isDigit_of_not_other digit
  | header =>
      simp only [state] at reading
      obtain ⟨digits, items, name, rfl, decimal, clean, plain⟩ := reading
      simp only [Scgi.parseByte, state]
      by_cases nul : byte = 0
      · subst nul
        rw [if_pos rfl]
        exact ⟨digits, items, name, [], rfl, decimal, clean, plain, List.not_mem_nil⟩
      · rw [if_neg nul]
        by_cases comma : byte = 44
        · subst comma
          rw [if_pos rfl]
          have split : Split (before digits items name ++ [44]) digits items name [] :=
            ⟨by simp [before], decimal, clean, plain⟩
          split
          · next last =>
              refine ⟨digits, items, name, [], split, fun _ => ?_⟩
              rw [List.length_append, List.length_singleton]
              omega
          · exact ⟨digits, items, name, split⟩
        · rw [if_neg comma]
          simp only [Reading]
          refine ⟨digits, items, name ++ [byte], by simp [before], decimal, clean, ?_, ?_⟩
          · simp [plain.1, Ne.symm nul]
          · simp [plain.2, Ne.symm comma]
  | value =>
      simp only [state] at reading
      obtain ⟨digits, items, name, value, rfl, decimal, clean, plain, text⟩ := reading
      simp only [Scgi.parseByte, state]
      by_cases nul : byte = 0
      · subst nul
        rw [if_pos rfl]
        refine ⟨digits, items ++ [(name, value)], [], ?_, decimal, ?_, List.not_mem_nil,
          List.not_mem_nil⟩
        · simp [before, encodeEntry]
        · intro item member
          rcases List.mem_append.mp member with earlier | last
          · exact clean item earlier
          · rw [List.mem_singleton.mp last]
            exact ⟨plain, text⟩
      · rw [if_neg nul]
        simp only [Reading]
        refine ⟨digits, items, name, value ++ [byte], by simp, decimal, clean, plain, ?_⟩
        simp [text, Ne.symm nul]
  | body =>
      simp only [state] at reading
      obtain ⟨digits, items, rest, split⟩ := reading
      have longer : Split (text ++ [byte]) digits items rest [byte] :=
        ⟨by rw [split.shape]; simp, split.decimal, split.clean, split.plain⟩
      simp only [Scgi.parseByte, state]
      split
      · exact ⟨digits, items, rest, [byte], longer, by rintro ⟨⟩⟩
      · exact ⟨digits, items, rest, [byte], longer, by rintro ⟨⟩⟩
  | done =>
      simp only [state] at reading
      obtain ⟨digits, items, rest, body, split, ended⟩ := reading
      simp only [Scgi.parseByte, state, Reading]
      refine ⟨digits, items, rest, body ++ [byte], ⟨by rw [split.shape]; simp, split.decimal,
        split.clean, split.plain⟩, fun none => ?_⟩
      simp at none

/-- Entries with names and values without NUL are clean up to the first comma in a name. -/
theorem clean_or_comma (named : ∀ item ∈ items, item.1 ≠ [] ∧ (0 : UInt8) ∉ item.1 ∧
    (0 : UInt8) ∉ item.2) :
    Clean items ∨ ∃ first name more value last, items = first ++ (name ++ 44 :: more, value) :: last ∧
      Clean first ∧ (0 : UInt8) ∉ name ∧ (44 : UInt8) ∉ name := by
  induction items with
  | nil => exact .inl (List.forall_mem_nil _)
  | cons item items ih =>
      obtain ⟨-, plain, text⟩ := named item List.mem_cons_self
      by_cases comma : (44 : UInt8) ∈ item.1
      · obtain ⟨name, more, shape, absent⟩ := List.eq_append_cons_of_mem comma
        refine .inr ⟨[], name, more, item.2, items, ?_, List.forall_mem_nil _, ?_, absent⟩
        · rw [List.nil_append, ← shape]
        · exact fun nul => plain (shape ▸ List.mem_append_left _ nul)
      · have front : ((0 : UInt8) ∉ item.1 ∧ (44 : UInt8) ∉ item.1) ∧ (0 : UInt8) ∉ item.2 :=
          ⟨⟨plain, comma⟩, text⟩
        rcases ih fun other member => named other (List.mem_cons_of_mem _ member) with
          clean | ⟨first, name, more, value, last, rfl, clean, rest⟩
        · exact .inl (List.forall_mem_cons.mpr ⟨front, clean⟩)
        · exact .inr ⟨item :: first, name, more, value, last, rfl,
            List.forall_mem_cons.mpr ⟨front, clean⟩, rest⟩

/-- A sentence is split behind its entries, or in the middle of one of them. -/
theorem Sentence.split (sentence : Sentence buffer digits items body) :
    Split buffer digits items [] body ∨
      ∃ first rest more, (encode first).length < (encode items).length ∧
        Split buffer digits first rest more := by
  rcases clean_or_comma sentence.named with clean | ⟨first, name, more, value, last, rfl, clean, rest⟩
  · refine .inl ⟨?_, sentence.decimal, clean, List.not_mem_nil, List.not_mem_nil⟩
    rw [List.nil_append]
    exact sentence.shape
  · refine .inr ⟨first, name, more ++ 0 :: (value ++ 0 :: (encode last ++ 44 :: body)), ?_, ?_,
      sentence.decimal, clean, rest⟩
    · rw [encode_append, encode_cons, List.length_append, List.length_append, length_encodeEntry]
      omega
    · rw [sentence.shape, encode_append, encode_cons]
      simp [encodeEntry]

/-- Two splits of a buffer are the same. -/
theorem Split.unique {digits' rest' body' : List UInt8} {items' : List Entry}
    (split : Split buffer digits items rest body) (other : Split buffer digits' items' rest' body') :
    digits = digits' ∧ items = items' ∧ rest = rest' ∧ body = body' := by
  obtain ⟨numbers, same⟩ :=
    colon_unique (split.shape.symm.trans other.shape) split.decimal other.decimal
  exact ⟨numbers, items_unique same split.clean other.clean split.plain other.plain⟩

/-- A regular split is a sentence. -/
theorem Split.sentence (split : Split buffer digits items rest body)
    (regular : Regular digits items rest body) : Sentence buffer digits items body := by
  refine ⟨?_, regular.number, split.decimal, regular.length, fun item member =>
    ⟨regular.named item member, (split.clean item member).1.1, (split.clean item member).2⟩⟩
  rw [split.shape, regular.ended, List.nil_append]

end Scgi
