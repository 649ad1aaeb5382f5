import Webroar.Scgi.Build

/-! # Parsing SCGI objects

The parser of `wr_scgi.c` reads a buffer byte by byte through six states. It does not use the
declared block length: a block ends at the first comma outside a value. A parsed object points
into the buffer.

The loop counter is an `int`, so no byte from number `2 ^ 31` on is read. Where the source
leaves the loop early the state is one that reads nothing any more.
-/

/-- The states of the parser. -/
inductive ParseState where
  | invalid
  | headerLength
  | header
  | value
  | body
  | done
deriving DecidableEq, Repr

/-- The local variables of the parser. -/
structure Parser where
  state : ParseState
  fieldOffset : Nat
  valueOffset : Nat
  fieldLen : Nat
  valueLen : Nat
  /-- Where the body starts in the buffer. -/
  body : Nat
  scgi : Scgi

namespace Scgi

/-- The parser before the first byte of `buffer`. -/
def parseStart (buffer : List UInt8) : Parser where
  state := .headerLength
  fieldOffset := 0
  valueOffset := 0
  fieldLen := 0
  valueLen := 0
  body := 0
  scgi :=
    { header := Block.ofList buffer 0
      body := none
      headerSize := buffer.length
      headerLength := 0
      headerOffset := 0
      length := buffer.length
      startOffset := 0
      bytesSent := 0
      headerList := []
      index := -1
      type := .parse }

/-- Read the byte at position `i` of `buffer`. -/
def parseByte (buffer : List UInt8) (i : Nat) (byte : UInt8) (parser : Parser) : Parser :=
  match parser.state with
  | .headerLength =>
      if byte = 58 then
        { parser with
          scgi := { parser.scgi with headerOffset := i + 1 }
          state := .header
          fieldOffset := i + 1 }
      else if byte < 48 || 57 < byte then
        { parser with state := .invalid }
      else
        parser
  | .header =>
      let parser := { parser with fieldLen := parser.fieldLen + 1 }
      if byte = 0 then
        { parser with state := .value, valueOffset := i + 1 }
      else if byte = 44 then
        let scgi := { parser.scgi with
          headerLength := i - parser.scgi.headerOffset
          headerOffset := i }
        if i = buffer.length - 1 then
          { parser with scgi := scgi, state := .done }
        else
          { parser with scgi := scgi, state := .body, body := i + 1 }
      else
        parser
  | .value =>
      let parser := { parser with valueLen := parser.valueLen + 1 }
      if byte = 0 then
        { parser with
          scgi := { parser.scgi with
            headerList := ⟨parser.fieldOffset, parser.valueOffset, parser.fieldLen - 1,
              parser.valueLen - 1⟩ :: parser.scgi.headerList }
          state := .header
          fieldOffset := i + 1
          fieldLen := 0
          valueLen := 0 }
      else
        parser
  | .body =>
      -- The body is taken only when its first byte is not also its last one.
      if i ≠ buffer.length - 1 then
        { parser with
          scgi := { parser.scgi with body := some (buffer.drop parser.body) }
          state := .done }
      else
        { parser with state := .done }
  | .invalid => parser
  | .done => parser

/-- Read some bytes of `buffer`, the first of them at position `i`. -/
def parseBytes (buffer : List UInt8) (i : Nat) : List UInt8 → Parser → Parser
  | [], parser => parser
  | byte :: rest, parser => parseBytes buffer (i + 1) rest (parseByte buffer i byte parser)

/-- The parser after the bytes of `buffer` its counter can reach. -/
def parseRun (buffer : List UInt8) : Parser :=
  parseBytes buffer 0 (buffer.take (2 ^ 31)) (parseStart buffer)

/-- Parse a buffer; an empty or malformed one gives NULL. -/
def parse (buffer : List UInt8) : Option Scgi :=
  if buffer.length ≤ 0 then
    none
  else if (parseRun buffer).state = .done then
    some (parseRun buffer).scgi
  else
    none

theorem parseBytes_append (buffer : List UInt8) (i : Nat) (first second : List UInt8)
    (parser : Parser) :
    parseBytes buffer i (first ++ second) parser =
      parseBytes buffer (i + first.length) second (parseBytes buffer i first parser) := by
  induction first generalizing i parser with
  | nil => rfl
  | cons byte rest ih =>
      rw [List.cons_append, parseBytes, ih, parseBytes, List.length_cons,
        Nat.add_comm rest.length 1, ← Nat.add_assoc]

theorem parseBytes_singleton (buffer : List UInt8) (i : Nat) (byte : UInt8) (parser : Parser) :
    parseBytes buffer i [byte] parser = parseByte buffer i byte parser := rfl

/-- Digits in front of the colon change nothing. -/
theorem parseBytes_digits (buffer : List UInt8) (i : Nat) (digits : List UInt8)
    (parser : Parser) (state : parser.state = .headerLength)
    (all : ∀ byte ∈ digits, Decimal.isDigit byte = true) :
    parseBytes buffer i digits parser = parser := by
  induction digits generalizing i with
  | nil => rfl
  | cons byte rest ih =>
      have digit := all byte List.mem_cons_self
      simp only [Decimal.isDigit, Bool.and_eq_true, decide_eq_true_eq,
        UInt8.le_iff_toNat_le] at digit
      have lower : 48 ≤ byte.toNat := digit.1
      have upper : byte.toNat ≤ 57 := digit.2
      have notColon : ¬ byte = 58 := by
        rintro rfl
        exact absurd upper (by decide)
      have inside : ¬ (decide (byte < 48) || decide (57 < byte)) = true := by
        simp only [Bool.or_eq_true, decide_eq_true_eq, UInt8.lt_iff_toNat_lt, UInt8.toNat_ofNat]
        omega
      have kept : parseByte buffer i byte parser = parser := by
        simp only [parseByte, state, notColon, inside, ↓reduceIte, Bool.false_eq_true]
      rw [parseBytes, kept]
      exact ih (i + 1) fun other later => all other (List.mem_cons_of_mem byte later)

/-- A name without NUL and comma is counted. -/
theorem parseBytes_name (buffer : List UInt8) (i : Nat) (name : List UInt8) (parser : Parser)
    (state : parser.state = .header) (plain : (0 : UInt8) ∉ name) (whole : (44 : UInt8) ∉ name) :
    parseBytes buffer i name parser =
      { parser with fieldLen := parser.fieldLen + name.length } := by
  induction name generalizing i parser with
  | nil => rfl
  | cons byte rest ih =>
      have notNul : ¬ byte = 0 := by
        rintro rfl
        exact plain List.mem_cons_self
      have notComma : ¬ byte = 44 := by
        rintro rfl
        exact whole List.mem_cons_self
      have counted : parseByte buffer i byte parser =
          { parser with fieldLen := parser.fieldLen + 1 } := by
        simp only [parseByte, state, notNul, notComma, ↓reduceIte]
      rw [parseBytes, counted, ih (i + 1) { parser with fieldLen := parser.fieldLen + 1 } state
        (fun later => plain (List.mem_cons_of_mem byte later))
        (fun later => whole (List.mem_cons_of_mem byte later)), List.length_cons]
      simp only [Nat.add_assoc, Nat.add_comm 1]

/-- A value without NUL is counted. -/
theorem parseBytes_value (buffer : List UInt8) (i : Nat) (value : List UInt8) (parser : Parser)
    (state : parser.state = .value) (plain : (0 : UInt8) ∉ value) :
    parseBytes buffer i value parser =
      { parser with valueLen := parser.valueLen + value.length } := by
  induction value generalizing i parser with
  | nil => rfl
  | cons byte rest ih =>
      have notNul : ¬ byte = 0 := by
        rintro rfl
        exact plain List.mem_cons_self
      have counted : parseByte buffer i byte parser =
          { parser with valueLen := parser.valueLen + 1 } := by
        simp only [parseByte, state, notNul, ↓reduceIte]
      rw [parseBytes, counted, ih (i + 1) { parser with valueLen := parser.valueLen + 1 } state
        (fun later => plain (List.mem_cons_of_mem byte later)), List.length_cons]
      simp only [Nat.add_assoc, Nat.add_comm 1]

/-- The parser stands before a header, or before the comma, at position `i`. -/
structure Ready (parser : Parser) (i : Nat) : Prop where
  state : parser.state = .header
  fieldOffset : parser.fieldOffset = i
  fieldLen : parser.fieldLen = 0
  valueLen : parser.valueLen = 0

/-- A list of entries can be told apart on the wire. -/
def Clean (items : List Entry) : Prop :=
  ∀ item ∈ items, ((0 : UInt8) ∉ item.1 ∧ (44 : UInt8) ∉ item.1) ∧ (0 : UInt8) ∉ item.2

instance (items : List Entry) : Decidable (Clean items) :=
  inferInstanceAs (Decidable (∀ item ∈ items, _))

/-- An entry is recorded in its slot. -/
theorem parseBytes_entry (buffer : List UInt8) (i : Nat) (name value : List UInt8)
    (parser : Parser) (ready : Ready parser i)
    (plainName : (0 : UInt8) ∉ name) (whole : (44 : UInt8) ∉ name)
    (plainValue : (0 : UInt8) ∉ value) :
    Ready (parseBytes buffer i (encodeEntry (name, value)) parser)
        (i + (name.length + value.length + 2)) ∧
      (parseBytes buffer i (encodeEntry (name, value)) parser).scgi =
        { parser.scgi with
          headerList := ⟨i, i + name.length + 1, name.length, value.length⟩ ::
            parser.scgi.headerList } := by
  have state := ready.state
  rw [encodeEntry_eq, parseBytes_append, parseBytes_append, parseBytes_append,
    parseBytes_name buffer i name parser state plainName whole]
  have ended : parseBytes buffer (i + name.length) [0]
      { parser with fieldLen := parser.fieldLen + name.length } =
      { parser with
        state := .value
        fieldLen := parser.fieldLen + name.length + 1
        valueOffset := i + name.length + 1 } := by
    simp only [parseBytes, parseByte, state, ↓reduceIte]
  rw [ended, parseBytes_value buffer _ value _ rfl plainValue, parseBytes_singleton]
  have position : i + (name ++ [0] ++ value).length + 1 = i + (name.length + value.length + 2) := by
    simp only [List.length_append, List.length_cons, List.length_nil]
    omega
  simp only [parseByte, ↓reduceIte, position, ready.fieldOffset, ready.fieldLen, ready.valueLen,
    Nat.zero_add, Nat.add_sub_cancel]
  exact ⟨⟨rfl, rfl, rfl, rfl⟩, trivial⟩

/-- A list of entries is recorded in its slots. -/
theorem parseBytes_encode (buffer : List UInt8) (i : Nat) (items : List Entry) (parser : Parser)
    (ready : Ready parser i) (clean : Clean items) :
    Ready (parseBytes buffer i (encode items) parser) (i + (encode items).length) ∧
      (parseBytes buffer i (encode items) parser).scgi =
        { parser.scgi with
          headerList := (slots i items).reverse ++ parser.scgi.headerList } := by
  induction items generalizing i parser with
  | nil => exact ⟨ready, rfl⟩
  | cons item rest ih =>
      obtain ⟨name, value⟩ := item
      obtain ⟨⟨plainName, whole⟩, plainValue⟩ := clean _ List.mem_cons_self
      obtain ⟨nextReady, recorded⟩ :=
        parseBytes_entry buffer i name value parser ready plainName whole plainValue
      obtain ⟨lastReady, all⟩ := ih (i + (name.length + value.length + 2)) _ nextReady
        fun item later => clean item (List.mem_cons_of_mem _ later)
      rw [encode_cons, parseBytes_append, List.length_append, length_encodeEntry,
        ← Nat.add_assoc i (name.length + value.length + 2)]
      refine ⟨lastReady, all.trans ?_⟩
      rw [recorded, slots]
      simp only [List.reverse_cons, List.append_assoc, List.cons_append, List.nil_append]

/-- The parser before the comma of a frame whose length fits an `int`. -/
theorem parseBytes_frame (buffer : List UInt8) (items : List Entry) (clean : Clean items)
    (small : (encode items).length < 2 ^ 31) :
    ∃ number : Nat, number = (Decimal.format (encode items).length).length + 1 ∧
      Ready (parseBytes buffer 0 (Decimal.format (encode items).length ++ 58 :: encode items)
        (parseStart buffer)) (number + (encode items).length) ∧
      (parseBytes buffer 0 (Decimal.format (encode items).length ++ 58 :: encode items)
        (parseStart buffer)).scgi =
        { (parseStart buffer).scgi with
          headerOffset := number
          headerList := (slots number items).reverse } := by
  refine ⟨_, rfl, ?_⟩
  have digits : ∀ byte ∈ Decimal.format (encode items).length, Decimal.isDigit byte = true := by
    rw [Decimal.format_of_lt small]
    exact fun byte member => Decimal.isDigit_of_mem_ofNat member
  rw [parseBytes_append, parseBytes_digits _ _ _ _ rfl digits, parseBytes, Nat.zero_add]
  have ready : Ready (parseByte buffer (Decimal.format (encode items).length).length 58
      (parseStart buffer)) ((Decimal.format (encode items).length).length + 1) :=
    ⟨rfl, rfl, rfl, rfl⟩
  obtain ⟨lastReady, recorded⟩ := parseBytes_encode buffer _ items _ ready clean
  refine ⟨lastReady, recorded.trans ?_⟩
  simp only [parseByte, parseStart, ↓reduceIte, List.append_nil]

/-- States that never lead back to reading headers. -/
def ParseState.Past (state : ParseState) : Prop :=
  state = .invalid ∨ state = .body ∨ state = .done

theorem past_parseBytes (buffer : List UInt8) (i : Nat) (bytes : List UInt8) (parser : Parser)
    (past : ParseState.Past parser.state) :
    ParseState.Past (parseBytes buffer i bytes parser).state := by
  induction bytes generalizing i parser with
  | nil => exact past
  | cons byte rest ih =>
      apply ih
      rcases past with state | state | state
      · simp only [parseByte, state]
        exact Or.inl rfl
      · simp only [parseByte, state]
        split
        · exact Or.inr (Or.inr rfl)
        · exact Or.inr (Or.inr rfl)
      · simp only [parseByte, state]
        exact Or.inr (Or.inr rfl)

/-- A finished or failed parser reads nothing more. -/
theorem parseBytes_stopped (buffer : List UInt8) (i : Nat) (bytes : List UInt8) (parser : Parser)
    (stopped : parser.state = .done ∨ parser.state = .invalid) :
    parseBytes buffer i bytes parser = parser := by
  induction bytes generalizing i with
  | nil => rfl
  | cons byte rest ih =>
      have kept : parseByte buffer i byte parser = parser := by
        rcases stopped with state | state
        · simp only [parseByte, state]
        · simp only [parseByte, state]
      rw [parseBytes, kept]
      exact ih (i + 1)

/-- A comma that is the last byte ends the object. -/
theorem parseByte_comma_last (buffer : List UInt8) (i : Nat) (parser : Parser)
    (state : parser.state = .header) (last : i = buffer.length - 1) :
    (parseByte buffer i 44 parser).state = .done ∧
      (parseByte buffer i 44 parser).scgi =
        { parser.scgi with
          headerLength := i - parser.scgi.headerOffset
          headerOffset := i } := by
  have notNul : ¬ (44 : UInt8) = 0 := by decide
  simp only [parseByte, state, notNul, ← last, ↓reduceIte, and_self]

/-- After a comma with bytes behind it the body starts. -/
theorem parseByte_comma_more (buffer : List UInt8) (i : Nat) (parser : Parser)
    (state : parser.state = .header) (more : ¬ i = buffer.length - 1) :
    (parseByte buffer i 44 parser).state = .body ∧
      (parseByte buffer i 44 parser).body = i + 1 ∧
      (parseByte buffer i 44 parser).scgi =
        { parser.scgi with
          headerLength := i - parser.scgi.headerOffset
          headerOffset := i } := by
  have notNul : ¬ (44 : UInt8) = 0 := by decide
  simp only [parseByte, state, notNul, more, ↓reduceIte, and_self]

/-- The first byte of a body ends the object; the body is kept unless it is that byte. -/
theorem parseByte_body (buffer : List UInt8) (i : Nat) (byte : UInt8) (parser : Parser)
    (state : parser.state = .body) :
    (parseByte buffer i byte parser).state = .done ∧
      (parseByte buffer i byte parser).scgi =
        { parser.scgi with
          body := if i = buffer.length - 1 then parser.scgi.body
            else some (buffer.drop parser.body) } := by
  by_cases last : i = buffer.length - 1
  · simp only [parseByte, state, last, ne_eq, not_true_eq_false, ↓reduceIte, and_self]
  · simp only [parseByte, state, last, ne_eq, not_false_eq_true, ↓reduceIte, and_self]

theorem length_frame (items : List Entry) :
    (frame items).length =
      (Decimal.format (encode items).length).length + (encode items).length + 2 := by
  simp only [frame, List.length_append, List.length_cons, List.length_nil]
  omega

/-- What parsing a frame followed by `body` gives: the entries of the frame, and the body when
it has more than one byte. -/
structure Parsed (scgi : Scgi) (items : List Entry) (body : List UInt8) : Prop where
  holds : scgi.Holds ((Decimal.format (encode items).length).length + 1) items
  body : scgi.body = if 2 ≤ body.length then some body else none
  headerLength : scgi.headerLength = (encode items).length

/-- A frame that the loop counter can pass parses back to its entries. -/
theorem parse_frame (items : List Entry) (body : List UInt8) (clean : Clean items)
    (short : (frame items).length < 2 ^ 31) :
    ∃ scgi, parse (frame items ++ body) = some scgi ∧ scgi.Parsed items body := by
  have measured := length_frame items
  obtain ⟨number, counted, ready, recorded⟩ :=
    parseBytes_frame (frame items ++ body) items clean (by omega)
  have total : (frame items ++ body).length = number + (encode items).length + 1 + body.length := by
    rw [List.length_append]
    omega
  have before : (Decimal.format (encode items).length ++ 58 :: encode items).length =
      number + (encode items).length := by
    rw [List.length_append, List.length_cons]
    omega
  have shape : frame items =
      (Decimal.format (encode items).length ++ 58 :: encode items) ++ [44] := by
    rw [frame, List.append_assoc, List.cons_append]
  have reached : (frame items ++ body).take (2 ^ 31) =
      frame items ++ body.take (2 ^ 31 - (frame items).length) := by
    rw [List.take_append, List.take_of_length_le (by omega)]
  have sliced : (Block.ofList (frame items ++ body) 0).slice number (encode items).length =
      encode items := by
    rw [Block.slice_ofList _ _ _ _ (by omega), frame, List.append_assoc]
    have front : number = (Decimal.format (encode items).length).length + 1 := counted
    rw [front, List.drop_append, List.drop_of_length_le (by omega), Nat.add_sub_cancel_left]
    simp
  have closed : parseBytes (frame items ++ body) 0 (frame items)
      (parseStart (frame items ++ body)) =
      parseByte (frame items ++ body) (number + (encode items).length) 44
        (parseBytes (frame items ++ body) 0
          (Decimal.format (encode items).length ++ 58 :: encode items)
          (parseStart (frame items ++ body))) := by
    have last := parseBytes_append (frame items ++ body) 0
      (Decimal.format (encode items).length ++ 58 :: encode items) [44]
      (parseStart (frame items ++ body))
    rwa [← shape, before, Nat.zero_add, parseBytes_singleton] at last
  generalize parseBytes (frame items ++ body) 0
    (Decimal.format (encode items).length ++ 58 :: encode items)
    (parseStart (frame items ++ body)) = parser at ready recorded closed
  have nonempty : ¬ (frame items ++ body).length ≤ 0 := by omega
  have room : number + (encode items).length ≤ (frame items ++ body).length := by omega
  have held : ∀ scgi : Scgi, scgi.headerList = (slots number items).reverse →
      scgi.header = Block.ofList (frame items ++ body) 0 →
      scgi.Holds ((Decimal.format (encode items).length).length + 1) items := by
    intro scgi list block
    refine ⟨by rw [← counted, list], by rw [block, ← counted]; exact sliced, by rw [block, Block.size_ofList, ← counted]; exact room⟩
  unfold parse parseRun
  rw [if_neg nonempty, reached, parseBytes_append, closed, Nat.zero_add]
  cases body with
  | nil =>
      have last : number + (encode items).length = (frame items ++ []).length - 1 := by
        rw [List.length_nil] at total
        omega
      obtain ⟨done, ended⟩ := parseByte_comma_last _ _ parser ready.state last
      rw [List.take_nil, parseBytes, if_pos done, ended, recorded]
      refine ⟨_, rfl, held _ rfl rfl, ?_, ?_⟩
      · have short : ¬ 2 ≤ ([] : List UInt8).length := by decide
        rw [if_neg short]
        rfl
      · simp only [Nat.add_sub_cancel_left]
  | cons byte rest =>
      obtain ⟨extra, allowed⟩ : ∃ extra, 2 ^ 31 - (frame items).length = extra + 1 :=
        ⟨2 ^ 31 - (frame items).length - 1, by omega⟩
      rw [List.length_cons] at total
      have more : ¬ number + (encode items).length = (frame items ++ byte :: rest).length - 1 := by
        omega
      obtain ⟨atBody, place, ended⟩ := parseByte_comma_more _ _ parser ready.state more
      obtain ⟨done, taken⟩ :=
        parseByte_body (frame items ++ byte :: rest) (frame items).length byte _ atBody
      have exact : number + (encode items).length + 1 = (frame items).length := by omega
      rw [allowed, List.take_succ_cons, parseBytes, parseBytes_stopped _ _ _ _ (Or.inl done), if_pos done,
        taken, ended, place, recorded, exact, List.drop_left]
      refine ⟨_, rfl, held _ rfl rfl, ?_, ?_⟩
      · simp only [parseStart]
        by_cases single : rest.length = 0
        · rw [if_pos (by omega), if_neg (by rw [List.length_cons]; omega)]
        · rw [if_neg (by omega), if_pos (by rw [List.length_cons]; omega)]
      · simp only [Nat.add_sub_cancel_left]

/-- The body of an object, taken or to be taken, starts behind some comma of the buffer. -/
def BehindComma (buffer : List UInt8) (parser : Parser) : Prop :=
  match parser.state with
  | .body => parser.scgi.body = none ∧ ∃ comma, buffer[comma]? = some 44 ∧ parser.body = comma + 1
  | .done => ∃ comma, buffer[comma]? = some 44 ∧
      parser.scgi.bodyLength + (comma + 1) ≤ buffer.length
  | _ => parser.scgi.body = none

theorem behindComma_parseByte (buffer : List UInt8) (i : Nat) (byte : UInt8) (parser : Parser)
    (here : buffer[i]? = some byte) (behind : BehindComma buffer parser) :
    BehindComma buffer (parseByte buffer i byte parser) := by
  have inside : i < buffer.length := (List.getElem?_eq_some_iff.mp here).1
  unfold BehindComma at behind
  cases state : parser.state with
  | invalid =>
      simp only [parseByte, state] at behind ⊢
      simpa only [BehindComma, state] using behind
  | headerLength =>
      simp only [state] at behind
      simp only [parseByte, state]
      split
      · simpa only [BehindComma] using behind
      · split
        · simpa only [BehindComma] using behind
        · simpa only [BehindComma, state] using behind
  | header =>
      simp only [state] at behind
      by_cases comma : byte = 44
      · subst comma
        by_cases last : i = buffer.length - 1
        · obtain ⟨done, ended⟩ := parseByte_comma_last buffer i parser state last
          simp only [BehindComma, done, ended]
          refine ⟨i, here, ?_⟩
          simp only [bodyLength, behind, Option.getD_none, List.length_nil]
          omega
        · obtain ⟨atBody, place, ended⟩ := parseByte_comma_more buffer i parser state last
          simp only [BehindComma, atBody, place, ended]
          exact ⟨behind, i, here, rfl⟩
      · simp only [parseByte, state, comma, ↓reduceIte]
        split
        · simpa only [BehindComma] using behind
        · simpa only [BehindComma, state] using behind
  | value =>
      simp only [state] at behind
      simp only [parseByte, state]
      split
      · simpa only [BehindComma] using behind
      · simpa only [BehindComma, state] using behind
  | body =>
      simp only [state] at behind
      obtain ⟨absent, comma, found, place⟩ := behind
      obtain ⟨done, taken⟩ := parseByte_body buffer i byte parser state
      have bound : comma < buffer.length := (List.getElem?_eq_some_iff.mp found).1
      simp only [BehindComma, done, taken]
      refine ⟨comma, found, ?_⟩
      split
      · simp only [bodyLength, absent, Option.getD_none, List.length_nil]
        omega
      · simp only [bodyLength, Option.getD_some, List.length_drop, place]
        omega
  | done =>
      simp only [parseByte, state] at behind ⊢
      simpa only [BehindComma, state] using behind

/-- What holds of the parser at the start and is kept by every byte holds when it is done. -/
theorem parse_invariant {buffer : List UInt8} {scgi : Scgi} (Inv : Nat → Parser → Prop)
    (begins : Inv 0 (parseStart buffer))
    (kept : ∀ i byte parser, buffer[i]? = some byte → Inv i parser →
      Inv (i + 1) (parseByte buffer i byte parser))
    (parsed : parse buffer = some scgi) :
    ∃ count parser, Inv count parser ∧ parser.state = .done ∧ parser.scgi = scgi := by
  have run : ∀ (bytes : List UInt8) (i : Nat) (parser : Parser),
      (∀ k byte, bytes[k]? = some byte → buffer[i + k]? = some byte) →
      Inv i parser → Inv (i + bytes.length) (parseBytes buffer i bytes parser) := by
    intro bytes
    induction bytes with
    | nil => exact fun _ _ _ holds => holds
    | cons byte rest ih =>
        intro i parser placed holds
        have next := ih (i + 1) _ (fun k other found => by
          have shifted := placed (k + 1) other (by simpa using found)
          rwa [Nat.add_assoc, Nat.add_comm 1 k])
          (kept i byte parser (placed 0 byte rfl) holds)
        rwa [List.length_cons, Nat.add_comm rest.length 1, ← Nat.add_assoc]
  have holds := run (buffer.take (2 ^ 31)) 0 (parseStart buffer)
    (fun k byte found => by
      rw [Nat.zero_add]
      rw [List.getElem?_take] at found
      split at found
      · exact found
      · cases found) begins
  unfold parse at parsed
  split at parsed
  · cases parsed
  · split at parsed
    · next done =>
        obtain rfl := Option.some.inj parsed
        exact ⟨_, _, holds, done, rfl⟩
    · cases parsed

/-- What parses has a comma with its body behind it. -/
theorem parse_comma {buffer : List UInt8} {scgi : Scgi} (parsed : parse buffer = some scgi) :
    ∃ comma, buffer[comma]? = some 44 ∧ scgi.bodyLength + (comma + 1) ≤ buffer.length := by
  obtain ⟨count, parser, behind, done, rfl⟩ := parse_invariant (fun _ => BehindComma buffer) rfl
    (fun i byte parser here behind => behindComma_parseByte buffer i byte parser here behind)
    parsed
  simpa only [BehindComma, done] using behind

/-- The values recorded so far, and the one being read, have no NUL. -/
structure PlainValues (buffer : List UInt8) (i : Nat) (parser : Parser) : Prop where
  block : parser.scgi.header = Block.ofList buffer 0
  recorded : ∀ header ∈ parser.scgi.headerList, ∀ k < header.valueLength,
    ∃ byte, buffer[header.valueOffset + k]? = some byte ∧ byte ≠ 0
  reading : parser.state = .value → parser.valueOffset + parser.valueLen = i ∧
    ∀ k < parser.valueLen, ∃ byte, buffer[parser.valueOffset + k]? = some byte ∧ byte ≠ 0
  idle : parser.state ≠ .value → parser.valueLen = 0

/-- Outside a value nothing is being read. -/
theorem PlainValues.outside {buffer : List UInt8} {i : Nat} {parser : Parser}
    (block : parser.scgi.header = Block.ofList buffer 0)
    (recorded : ∀ header ∈ parser.scgi.headerList, ∀ k < header.valueLength,
      ∃ byte, buffer[header.valueOffset + k]? = some byte ∧ byte ≠ 0)
    (state : parser.state ≠ .value) (none : parser.valueLen = 0) : PlainValues buffer i parser :=
  ⟨block, recorded, fun value => absurd value state, fun _ => none⟩

theorem plainValues_parseByte (buffer : List UInt8) (i : Nat) (byte : UInt8) (parser : Parser)
    (here : buffer[i]? = some byte) (plain : PlainValues buffer i parser) :
    PlainValues buffer (i + 1) (parseByte buffer i byte parser) := by
  obtain ⟨block, recorded, reading, idle⟩ := plain
  by_cases value : parser.state = .value
  · obtain ⟨place, plain⟩ := reading value
    simp only [parseByte, value]
    split
    · refine .outside block (fun header member k less => ?_) nofun rfl
      rcases List.mem_cons.mp member with rfl | earlier
      · exact plain k less
      · exact recorded header earlier k less
    · next visible =>
        refine ⟨block, recorded, fun _ => ⟨by simp only; omega, fun k less => ?_⟩,
          fun other => absurd rfl other⟩
        simp only at less ⊢
        by_cases last : k = parser.valueLen
        · subst last
          rw [place]
          exact ⟨byte, here, visible⟩
        · exact plain k (by omega)
  · have none := idle value
    cases state : parser.state with
    | value => exact absurd state value
    | invalid =>
        simp only [parseByte, state]
        exact .outside block recorded value none
    | done =>
        simp only [parseByte, state]
        exact .outside block recorded value none
    | headerLength =>
        simp only [parseByte, state]
        split
        · exact .outside block recorded nofun none
        · split
          · exact .outside block recorded nofun none
          · exact .outside block recorded value none
    | header =>
        simp only [parseByte, state]
        split
        · refine ⟨block, recorded, fun _ => ⟨by simp only [none, Nat.add_zero], fun k less => ?_⟩,
            fun other => absurd rfl other⟩
          simp only [none] at less
          exact absurd less (Nat.not_lt_zero k)
        · split
          · split
            · exact .outside block recorded nofun none
            · exact .outside block recorded nofun none
          · exact .outside block recorded nofun none
    | body =>
        simp only [parseByte, state]
        split
        · exact .outside block recorded nofun none
        · exact .outside block recorded nofun none

/-- No value of a parsed object has a NUL. -/
theorem parse_plain {buffer : List UInt8} {scgi : Scgi} (parsed : parse buffer = some scgi)
    {item : Entry} (member : item ∈ scgi.entries) : (0 : UInt8) ∉ item.2 := by
  have begins : PlainValues buffer 0 (parseStart buffer) :=
    .outside rfl (fun _ listed => (List.not_mem_nil listed).elim) nofun rfl
  obtain ⟨count, parser, plain, -, rfl⟩ := parse_invariant (PlainValues buffer) begins
    (fun i byte parser here plain => plainValues_parseByte buffer i byte parser here plain)
    parsed
  obtain ⟨header, listed, rfl⟩ := List.mem_map.mp member
  intro nul
  obtain ⟨k, inside, zero⟩ := List.mem_map.mp nul
  obtain ⟨byte, found, visible⟩ :=
    plain.recorded header (List.mem_reverse.mp listed) k (List.mem_range.mp inside)
  rw [plain.block, Block.ofList] at zero
  simp only [found, Option.getD_some] at zero
  exact visible zero

end Scgi
