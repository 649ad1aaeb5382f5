import Webroar.Head.Forgery

/-! # Headers in pieces

libebb passes the name and the value of a header in pieces, and every piece is checked against the
limits on its own. The length of a name, that of a value, and the number of headers are counted as a
whole. The size of all headers is not: it counts the NUL behind a value once a further piece comes,
and does not count it for the first one.
-/

namespace Request

open Scgi (Entry Draft Current Shows Layout scgiEntry encode encodeEntry envByte startOffsetInit
  contents)

variable {head : Head} {req last : Request} {before middle after : Draft}

theorem run_append (callbacks rest : List Callback) :
    run head req (callbacks ++ rest) =
      (run head req callbacks).bind fun next => run head next rest := List.foldlM_append

/-- A request that is rejected stays as it is. -/
theorem run_rejected {callbacks : List Callback} (rejected : req.rejected.isSome = true) :
    run head req callbacks = some req := by
  induction callbacks with
  | nil => rfl
  | cons callback rest ih =>
      rw [run_cons, step_rejected rejected]
      exact ih

/-! ### Pieces that fit -/

/-- Some callbacks take down what they say when it fits, and reject the request otherwise. -/
structure Takes (head : Head) (callbacks : List Callback) (before after : Draft) (Room : Prop) :
    Prop where
  accepted : Room → ∀ req : Request, req.rejected = none → req.scgi.Shows [] before →
    ∃ scgi : Scgi, run head req callbacks = some { req with scgi := scgi } ∧ scgi.Shows [] after
  refused : ¬ Room → ∀ req : Request, req.rejected = none → req.scgi.Shows [] before →
    ∃ last text, run head req callbacks = some last ∧ last.rejected = some (413, text)

variable {callbacks rest : List Callback} {Room Follow : Prop}

theorem Takes.nil : Takes head [] before before True where
  accepted _ req _ shown := ⟨req.scgi, rfl, shown⟩
  refused no := absurd trivial no

theorem Takes.congr (takes : Takes head callbacks before after Room) (same : Room ↔ Follow) :
    Takes head callbacks before after Follow where
  accepted room := takes.accepted (same.mpr room)
  refused long := takes.refused fun room => long (same.mp room)

/-- Callbacks one after the other fit when the first ones do and then the others. -/
theorem Takes.append (first : Takes head callbacks before middle Room)
    (second : Room → Takes head rest middle after Follow) :
    Takes head (callbacks ++ rest) before after (Room ∧ Follow) where
  accepted := by
    rintro ⟨room, follow⟩ req kept shown
    obtain ⟨scgi, ran, shows⟩ := first.accepted room req kept shown
    obtain ⟨final, later, shows⟩ :=
      (second room).accepted follow { req with scgi := scgi } kept shows
    refine ⟨final, ?_, shows⟩
    rw [run_append, ran]
    exact later
  refused := by
    intro long req kept shown
    rw [run_append]
    by_cases room : Room
    · obtain ⟨scgi, ran, shows⟩ := first.accepted room req kept shown
      rw [ran]
      exact (second room).refused (fun follow => long ⟨room, follow⟩) { req with scgi := scgi }
        kept shows
    · obtain ⟨last, text, ran, rejected⟩ := first.refused room req kept shown
      refine ⟨last, text, ?_, rejected⟩
      rw [ran, Option.bind_some]
      exact run_rejected (by rw [rejected]; rfl)

/-- One callback takes down what it says when it fits. -/
theorem Takes.one {callback : Callback}
    (accepted : Room → ∀ req : Request, req.rejected = none → req.scgi.Shows [] before →
      ∃ scgi : Scgi, step head req callback = some { req with scgi := scgi } ∧
        scgi.Shows [] after)
    (refused : ¬ Room → ∀ req : Request, req.rejected = none → req.scgi.Shows [] before →
      ∃ last text, step head req callback = some last ∧ last.rejected = some (413, text)) :
    Takes head [callback] before after Room where
  accepted room req kept shown := by
    obtain ⟨scgi, stepped, shows⟩ := accepted room req kept shown
    refine ⟨scgi, ?_, shows⟩
    rw [run_cons, stepped]
    rfl
  refused long req kept shown := by
    obtain ⟨last, text, stepped, rejected⟩ := refused long req kept shown
    refine ⟨last, text, ?_, rejected⟩
    rw [run_cons, stepped]
    rfl

/-! ### Where the headers end -/

/-- Where the headers that a draft shows end. -/
def endOf (draft : Draft) : Nat :=
  startOffsetInit + (contents [] draft.all draft.opened).length

theorem headerOffset_eq {scgi : Scgi} {draft : Draft} (shown : scgi.Shows [] draft) :
    scgi.headerOffset = endOf draft := by
  have start : scgi.startOffset = startOffsetInit := shown.layout.start
  rw [shown.layout.offset, start, endOf]

variable {items : List Entry} {name value : List UInt8} {index : Nat}

theorem endOf_name (index : Int) :
    endOf ⟨items, .name name, index⟩ =
      startOffsetInit + (encode items).length + name.length + 1 := by
  simp only [endOf, Draft.all, Draft.opened, Scgi.contents_some, List.length_append,
    List.length_nil, List.length_cons]
  omega

theorem endOf_entry (index : Int) :
    endOf ⟨items, .entry name value, index⟩ =
      startOffsetInit + (encode items).length + name.length + 1 + value.length + 1 := by
  simp only [endOf, Draft.all, Draft.opened, Scgi.contents_none, Scgi.encode_append,
    List.length_append, List.length_nil]
  rw [Scgi.encode_cons, List.length_append, Scgi.length_encodeEntry]
  simp only [encode, List.flatMap_nil, List.length_nil]
  omega

/-! ### A piece -/

/-- The length that is recorded for the name that is being taken down. -/
def recordedField (scgi : Scgi) : Nat := (scgi.headerList.head?.map ScgiHeader.fieldLength).getD 0

/-- The length that is recorded for the value that is being taken down. -/
def recordedValue (scgi : Scgi) : Nat := (scgi.headerList.head?.map ScgiHeader.valueLength).getD 0

theorem recordedField_name {scgi : Scgi} {number : Int}
    (shown : scgi.Shows [] ⟨items, .name name, number⟩) : recordedField scgi = name.length := by
  rw [recordedField, shown.layout.list]
  rfl

theorem recordedValue_name {scgi : Scgi} {number : Int}
    (shown : scgi.Shows [] ⟨items, .name name, number⟩) : recordedValue scgi = 0 := by
  rw [recordedValue, shown.layout.list]
  rfl

theorem recordedValue_entry {scgi : Scgi} {number : Int}
    (shown : scgi.Shows [] ⟨items, .entry name value, number⟩) :
    recordedValue scgi = value.length := by
  rw [recordedValue, shown.layout.list]
  simp [Draft.opened, Draft.all, Scgi.openSlot, Scgi.slots_append, Scgi.slots]

/-- The check of a further piece of a name. -/
theorem headerLengthCheck_more {length : Nat} (numbered : req.scgi.index = index) :
    (index < Config.maxHeaderCount ∧ recordedField req.scgi + length ≤ Config.maxFieldSize ∧
        req.scgi.headerOffset + length ≤ Config.maxHeaderSize →
      req.headerLengthCheck length index = req) ∧
    (¬ (index < Config.maxHeaderCount ∧ recordedField req.scgi + length ≤ Config.maxFieldSize ∧
        req.scgi.headerOffset + length ≤ Config.maxHeaderSize) →
      ∃ text, (req.headerLengthCheck length index).rejected = some (413, text)) := by
  unfold headerLengthCheck recordedField
  simp only [numbered, ne_eq, not_true_eq_false, false_and, ↓reduceIte, true_and]
  split_ifs with counted named sized
  · exact ⟨fun room => absurd room.1 (Nat.not_lt_of_le counted), fun _ => ⟨_, rfl⟩⟩
  · exact ⟨fun room => absurd room.2.1 (Nat.not_le_of_lt named), fun _ => ⟨_, rfl⟩⟩
  · exact ⟨fun room => absurd room.2.2 (Nat.not_le_of_lt sized), fun _ => ⟨_, rfl⟩⟩
  · exact ⟨fun _ => rfl, fun long => absurd ⟨Nat.lt_of_not_le counted, Nat.le_of_not_lt named,
      Nat.le_of_not_lt sized⟩ long⟩

/-- The check of the first piece of a name, which takes the prefix down. -/
theorem headerLengthCheck_first {length : Nat} (fresh : req.scgi.index ≠ index) :
    (index < Config.maxHeaderCount ∧ length + 5 ≤ Config.maxFieldSize ∧
        (req.scgi.call (.headerFieldAdd httpPrefix index)).headerOffset + length ≤
          Config.maxHeaderSize →
      req.headerLengthCheck length index =
        { req with scgi := req.scgi.call (.headerFieldAdd httpPrefix index) }) ∧
    (¬ (index < Config.maxHeaderCount ∧ length + 5 ≤ Config.maxFieldSize ∧
        (req.scgi.call (.headerFieldAdd httpPrefix index)).headerOffset + length ≤
          Config.maxHeaderSize) →
      ∃ text, (req.headerLengthCheck length index).rejected = some (413, text)) := by
  unfold headerLengthCheck
  simp only [fresh, ne_eq, not_false_eq_true, false_and, ↓reduceIte, true_and]
  split_ifs with counted named sized
  · exact ⟨fun room => absurd room.1 (Nat.not_lt_of_le counted), fun _ => ⟨_, rfl⟩⟩
  · exact ⟨fun room => absurd room.2.1 (Nat.not_le_of_lt named), fun _ => ⟨_, rfl⟩⟩
  · exact ⟨fun room => absurd room.2.2 (Nat.not_le_of_lt sized), fun _ => ⟨_, rfl⟩⟩
  · exact ⟨fun _ => rfl, fun long => absurd ⟨Nat.lt_of_not_le counted, Nat.le_of_not_lt named,
      Nat.le_of_not_lt sized⟩ long⟩

/-- The check of a piece of a value. -/
theorem headerValueCheck_spec {length : Nat} (numbered : req.scgi.index = index) :
    (recordedValue req.scgi + length ≤ Config.maxValueSize ∧
        req.scgi.headerOffset + length ≤ Config.maxHeaderSize →
      req.headerValueCheck length index = req) ∧
    (¬ (recordedValue req.scgi + length ≤ Config.maxValueSize ∧
        req.scgi.headerOffset + length ≤ Config.maxHeaderSize) →
      ∃ text, (req.headerValueCheck length index).rejected = some (413, text)) := by
  unfold headerValueCheck recordedValue
  simp only [numbered, ne_eq, not_true_eq_false, false_and, ↓reduceIte, true_and]
  split_ifs with valued sized
  · exact ⟨fun room => absurd room.1 (Nat.not_le_of_lt valued), fun _ => ⟨_, rfl⟩⟩
  · exact ⟨fun room => absurd room.2 (Nat.not_le_of_lt sized), fun _ => ⟨_, rfl⟩⟩
  · exact ⟨fun _ => rfl, fun long => absurd ⟨Nat.le_of_not_lt valued,
      Nat.le_of_not_lt sized⟩ long⟩

/-- A piece of a name is taken down as its check leaves the request. -/
theorem step_headerField {text : Token} (kept : req.rejected = none) :
    (∀ scgi : Scgi, req.headerLengthCheck text.1.length index = { req with scgi := scgi } →
      step head req (.headerField text index) =
        some { req with scgi := scgi.call (.headerFieldAdd text.1 index) }) ∧
    (∀ message, (req.headerLengthCheck text.1.length index).rejected = some message →
      ∃ last, step head req (.headerField text index) = some last ∧
        last.rejected = some message) := by
  have listening : ¬ req.rejected.isSome = true := by rw [kept]; decide
  constructor
  · intro scgi checked
    rw [step, if_neg listening, headerFieldCb, checked, if_neg listening]
  · intro message checked
    refine ⟨_, if_neg listening, ?_⟩
    rw [headerFieldCb, if_pos (by rw [checked]; rfl)]
    exact checked

/-- A piece of a value is taken down when its check leaves the request as it is. -/
theorem step_headerValue {text : FieldValue} (kept : req.rejected = none) :
    (req.headerValueCheck text.1.length index = req →
      step head req (.headerValue text index) =
        some { req with scgi := req.scgi.call (.headerValueAdd text.1 index) }) ∧
    (∀ message, (req.headerValueCheck text.1.length index).rejected = some message →
      ∃ last, step head req (.headerValue text index) = some last ∧
        last.rejected = some message) := by
  have listening : ¬ req.rejected.isSome = true := by rw [kept]; decide
  constructor
  · intro checked
    rw [step, if_neg listening, headerValueCb, checked, if_neg listening]
  · intro message checked
    refine ⟨_, if_neg listening, ?_⟩
    rw [headerValueCb, if_pos (by rw [checked]; rfl)]
    exact checked

/-- A further piece of a name fits when the name so far and the headers have room for it. -/
theorem takes_fieldMore (head : Head) (items : List Entry) (name : List UInt8) (text : Token) :
    Takes head [.headerField text index] ⟨items, .name name, index⟩
      ⟨items, .name (name ++ text.1.map envByte), index⟩
      (index < Config.maxHeaderCount ∧ name.length + text.1.length ≤ Config.maxFieldSize ∧
        endOf ⟨items, .name name, index⟩ + text.1.length ≤ Config.maxHeaderSize) := by
  apply Takes.one
  · intro room req kept shown
    rw [← recordedField_name shown, ← headerOffset_eq shown] at room
    exact ⟨_, (step_headerField kept).1 req.scgi ((headerLengthCheck_more shown.index).1 room),
      shown.call (.headerFieldAdd text.1 index) (by simp [Draft.step])⟩
  · intro long req kept shown
    rw [← recordedField_name shown, ← headerOffset_eq shown] at long
    obtain ⟨message, checked⟩ := (headerLengthCheck_more shown.index).2 long
    obtain ⟨last, stepped, rejected⟩ := (step_headerField kept).2 _ checked
    exact ⟨last, message, stepped, rejected⟩

/-- The first piece of a name fits when the name and the headers have room for it and the prefix. -/
theorem takes_fieldFirst (head : Head) (text : Token) {draft : Draft} (closed : draft.opened = none)
    (fresh : draft.index < index) :
    Takes head [.headerField text index] draft
      ⟨draft.all, .name ((httpPrefix ++ text.1).map envByte), index⟩
      (index < Config.maxHeaderCount ∧ text.1.length + 5 ≤ Config.maxFieldSize ∧
        endOf ⟨draft.all, .name (httpPrefix.map envByte), index⟩ + text.1.length ≤
          Config.maxHeaderSize) := by
  have opens : draft.step (.headerFieldAdd httpPrefix index) =
      some ⟨draft.all, .name (httpPrefix.map envByte), index⟩ := by
    obtain ⟨items, current, number⟩ := draft
    cases current with
    | name name => cases closed
    | none => exact if_pos fresh
    | entry name value => exact if_pos fresh
  have other {req : Request} (shown : req.scgi.Shows [] draft) : req.scgi.index ≠ index :=
    Int.ne_of_lt (shown.index ▸ fresh)
  apply Takes.one
  · intro room req kept shown
    have opened := shown.call _ opens
    rw [← headerOffset_eq opened] at room
    refine ⟨_, (step_headerField kept).1 _ ((headerLengthCheck_first (other shown)).1 room),
      opened.call (.headerFieldAdd text.1 index) ?_⟩
    simp [Draft.step]
  · intro long req kept shown
    have opened := shown.call _ opens
    rw [← headerOffset_eq opened] at long
    obtain ⟨message, checked⟩ := (headerLengthCheck_first (other shown)).2 long
    obtain ⟨last, stepped, rejected⟩ := (step_headerField kept).2 _ checked
    exact ⟨last, message, stepped, rejected⟩

/-- A piece of a value fits when the value so far and the headers have room for it. -/
theorem takes_value (text : FieldValue) {recorded : Nat} (numbered : before.index = index)
    (valued : ∀ scgi : Scgi, scgi.Shows [] before → recordedValue scgi = recorded)
    (taken : before.step (.headerValueAdd text.1 index) = some after) :
    Takes head [.headerValue text index] before after
      (recorded + text.1.length ≤ Config.maxValueSize ∧
        endOf before + text.1.length ≤ Config.maxHeaderSize) := by
  apply Takes.one
  · intro room req kept shown
    rw [← valued _ shown, ← headerOffset_eq shown] at room
    have checked := (headerValueCheck_spec (shown.index.trans numbered)).1 room
    exact ⟨_, (step_headerValue kept).1 checked, shown.call _ taken⟩
  · intro long req kept shown
    rw [← valued _ shown, ← headerOffset_eq shown] at long
    obtain ⟨message, checked⟩ := (headerValueCheck_spec (shown.index.trans numbered)).2 long
    obtain ⟨last, stepped, rejected⟩ := (step_headerValue kept).2 _ checked
    exact ⟨last, message, stepped, rejected⟩

/-! ### A header -/

/-- Further pieces of a name fit when the name and the headers have room for them all. -/
theorem takes_fields {fields : List Token} (counted : index < Config.maxHeaderCount)
    (named : name.length ≤ Config.maxFieldSize)
    (sized : endOf ⟨items, .name name, index⟩ ≤ Config.maxHeaderSize) :
    Takes head (fields.map (Callback.headerField · index)) ⟨items, .name name, index⟩
      ⟨items, .name (name ++ (fields.map (·.1)).flatten.map envByte), index⟩
      (name.length + (fields.map (·.1)).flatten.length ≤ Config.maxFieldSize ∧
        endOf ⟨items, .name name, index⟩ + (fields.map (·.1)).flatten.length ≤
          Config.maxHeaderSize) := by
  induction fields generalizing name with
  | nil =>
      refine Takes.congr (by simpa using Takes.nil) ?_
      simp [named, sized]
  | cons field fields ih =>
      have lengths : (name ++ field.1.map envByte).length = name.length + field.1.length := by
        rw [List.length_append, List.length_map]
      have ends : endOf ⟨items, .name (name ++ field.1.map envByte), index⟩ =
          endOf ⟨items, .name name, index⟩ + field.1.length := by
        rw [endOf_name, endOf_name, lengths]
        omega
      have all := Takes.append (takes_fieldMore head items name field) fun room =>
        @ih (name ++ field.1.map envByte) (by rw [lengths]; exact room.2.1)
          (by rw [ends]; exact room.2.2)
      rw [lengths, ends, List.append_assoc, ← List.map_append] at all
      refine Takes.congr all ?_
      rw [List.map_cons, List.flatten_cons, List.length_append]
      omega

/-- Further pieces of a value fit when the value and the headers have room for them all. -/
theorem takes_values {values : List FieldValue} (valued : value.length ≤ Config.maxValueSize) :
    Takes head (values.map (Callback.headerValue · index)) ⟨items, .entry name value, index⟩
      ⟨items, .entry name (value ++ (values.map (·.1)).flatten), index⟩
      (values = [] ∨ value.length + (values.map (·.1)).flatten.length ≤ Config.maxValueSize ∧
        endOf ⟨items, .entry name value, index⟩ + (values.map (·.1)).flatten.length ≤
          Config.maxHeaderSize) := by
  induction values generalizing value with
  | nil =>
      refine Takes.congr (by simpa using Takes.nil) ?_
      simp
  | cons piece values ih =>
      have ends : endOf ⟨items, .entry name (value ++ piece.1), index⟩ =
          endOf ⟨items, .entry name value, index⟩ + piece.1.length := by
        rw [endOf_entry, endOf_entry, List.length_append]
        omega
      have first : Takes head [.headerValue piece index] ⟨items, .entry name value, index⟩
          ⟨items, .entry name (value ++ piece.1), index⟩ _ :=
        takes_value piece rfl (fun _ shown => recordedValue_entry shown) (by simp [Draft.step])
      have all := Takes.append first fun room =>
        @ih (value ++ piece.1) (by rw [List.length_append]; exact room.1)
      rw [List.length_append, ends, List.append_assoc] at all
      refine Takes.congr all ?_
      rw [List.map_cons, List.flatten_cons, List.length_append]
      cases values with
      | nil => simp
      | cons second values =>
          simp only [List.cons_ne_nil, false_or]
          omega

/-- A header fits when there are not too many, neither its name nor its value is too long, and it
does not end too late, where the NUL of a value in one piece is not counted. -/
def ClientHeader.Fits (header : ClientHeader) (index offset : Nat) : Prop :=
  index < Config.maxHeaderCount ∧ header.entry.1.length ≤ Config.maxFieldSize ∧
    header.entry.2.length ≤ Config.maxValueSize ∧
    offset + header.entry.1.length + 1 + header.entry.2.length +
      (if header.values = [] then 0 else 1) ≤ Config.maxHeaderSize

theorem endOf_closed {draft : Draft} (closed : draft.opened = none) :
    endOf draft = startOffsetInit + (encode draft.all).length := by
  rw [endOf, closed, Scgi.contents_none, List.nil_append]

/-- A header is taken down when it fits, and else the request is rejected. -/
theorem takes_header (header : ClientHeader) {draft : Draft} (closed : draft.opened = none)
    (fresh : draft.index < index) :
    Takes head (header.callbacks index) draft
      ⟨draft.all, .entry header.entry.1 header.entry.2, index⟩
      (header.Fits index (endOf draft)) := by
  have prefixLength : (httpPrefix.map envByte).length = 5 := by decide
  have place := endOf_closed closed
  have callbacks : header.callbacks index = [.headerField header.field index] ++
      (header.fields.map (Callback.headerField · index) ++
        ([.headerValue header.value index] ++
          header.values.map (Callback.headerValue · index))) := by
    simp [ClientHeader.callbacks]
  have entry : header.entry = ((httpPrefix ++ header.field.1).map envByte ++
      (header.fields.map (·.1)).flatten.map envByte,
        header.value.1 ++ (header.values.map (·.1)).flatten) := by
    simp [ClientHeader.entry, ClientHeader.group, Scgi.Group.entry]
  have named : ((httpPrefix ++ header.field.1).map envByte).length = 5 + header.field.1.length := by
    rw [List.map_append, List.length_append, prefixLength, List.length_map]
  rw [callbacks, entry]
  have first := takes_fieldFirst head header.field closed fresh
  refine Takes.congr (Takes.append first fun fits => Takes.append (takes_fields fits.1 ?_ ?_)
    fun _ => Takes.append (takes_value header.value rfl (fun _ shown => recordedValue_name shown)
      (if_pos rfl)) fun fits => takes_values (by omega)) ?_
  · rw [named]
    omega
  · have sized := fits.2.2
    rw [endOf_name] at sized ⊢
    rw [named]
    omega
  · unfold ClientHeader.Fits
    rw [entry, place]
    simp only [endOf_name, endOf_entry, named, prefixLength, List.length_append, List.length_map]
    by_cases whole : header.values = []
    · simp only [whole, List.map_nil, List.flatten_nil, List.length_nil, true_or, and_true,
        ↓reduceIte]
      omega
    · simp only [whole, false_or, ↓reduceIte]
      omega

/-! ### The headers -/

namespace ClientHeader

/-- Headers fit one behind the other. -/
def AllFit (index offset : Nat) : List ClientHeader → Prop
  | [] => True
  | header :: rest => header.Fits index offset ∧
      AllFit (index + 1) (offset + header.entry.1.length + 1 + header.entry.2.length + 1) rest

/-- Does the last value come in one piece? -/
def wholeLast (headers : List ClientHeader) : Bool :=
  (headers.getLast?.map fun header => header.values.isEmpty).getD false

end ClientHeader

/-- The headers are taken down when they fit, and else the request is rejected. -/
theorem takes_headers (head : Head) (headers : List ClientHeader) {draft : Draft} (closed : draft.opened = none)
    (fresh : draft.index < index) :
    ∃ after, Takes head (headerCallbacks index headers) draft after
        (ClientHeader.AllFit index (endOf draft) headers) ∧
      after.all = draft.all ++ headers.map ClientHeader.entry ∧ after.opened = none := by
  induction headers generalizing draft index with
  | nil => exact ⟨draft, Takes.nil, by simp, closed⟩
  | cons header headers ih =>
      obtain ⟨after, takes, all, ended⟩ :=
        @ih (index + 1) ⟨draft.all, .entry header.entry.1 header.entry.2, index⟩ rfl
          (Int.ofNat_lt.mpr (Nat.lt_succ_self index))
      have place : endOf ⟨draft.all, .entry header.entry.1 header.entry.2, index⟩ =
          endOf draft + header.entry.1.length + 1 + header.entry.2.length + 1 := by
        rw [endOf_entry, endOf_closed closed]
      rw [place] at takes
      refine ⟨after, Takes.append (takes_header header closed fresh) fun _ => takes, ?_, ended⟩
      rw [all, Draft.all, List.map_cons, List.append_assoc]
      rfl

/-- Whether headers fit depends on their texts, and on whether the last value comes in one piece. -/
theorem ClientHeader.allFit_iff {header : ClientHeader} {headers : List ClientHeader}
    {offset : Nat} :
    ClientHeader.AllFit index offset (header :: headers) ↔
      index + (header :: headers).length ≤ Config.maxHeaderCount ∧
      (∀ entry ∈ (header :: headers).map ClientHeader.entry,
        entry.1.length ≤ Config.maxFieldSize ∧ entry.2.length ≤ Config.maxValueSize) ∧
      offset + (encode ((header :: headers).map ClientHeader.entry)).length ≤
        Config.maxHeaderSize + (ClientHeader.wholeLast (header :: headers)).toNat := by
  induction headers generalizing index offset header with
  | nil =>
      have whole : (ClientHeader.wholeLast [header]).toNat = if header.values = [] then 1 else 0 := by
        cases given : header.values with
        | nil => simp [wholeLast, given]
        | cons => simp [wholeLast, given]
      simp only [AllFit, Fits, and_true, List.map_cons, List.map_nil, List.mem_singleton,
        forall_eq, Scgi.encode_singleton, Scgi.length_encodeEntry, whole, List.length_cons,
        List.length_nil]
      split
      · omega
      · omega
  | cons second headers ih =>
      have last : ClientHeader.wholeLast (header :: second :: headers) =
          ClientHeader.wholeLast (second :: headers) := by
        rw [wholeLast, wholeLast, List.getLast?_cons_cons]
      have some : 2 ≤ (encode ((second :: headers).map ClientHeader.entry)).length := by
        rw [List.map_cons, Scgi.encode_cons, List.length_append, Scgi.length_encodeEntry]
        omega
      have total : (encode ((header :: second :: headers).map ClientHeader.entry)).length =
          header.entry.1.length + header.entry.2.length + 2 +
            (encode ((second :: headers).map ClientHeader.entry)).length := by
        rw [List.map_cons, Scgi.encode_cons, List.length_append, Scgi.length_encodeEntry]
      have count : (header :: second :: headers).length = (second :: headers).length + 1 := rfl
      have bound : (ClientHeader.wholeLast (second :: headers)).toNat ≤ 1 := Bool.toNat_le _
      have piece : (if header.values = [] then 0 else 1) ≤ 1 := by split <;> decide
      have short : (∀ entry ∈ (header :: second :: headers).map ClientHeader.entry,
          entry.1.length ≤ Config.maxFieldSize ∧ entry.2.length ≤ Config.maxValueSize) ↔
            (header.entry.1.length ≤ Config.maxFieldSize ∧
              header.entry.2.length ≤ Config.maxValueSize) ∧
            ∀ entry ∈ (second :: headers).map ClientHeader.entry,
              entry.1.length ≤ Config.maxFieldSize ∧ entry.2.length ≤ Config.maxValueSize :=
        List.forall_mem_cons
      rw [AllFit, ih, last, total, count, short, Fits]
      -- a header before the last one ends early enough when the last one does
      constructor
      · rintro ⟨⟨counted, named, valued, sized⟩, all, each, limit⟩
        exact ⟨by omega, ⟨⟨named, valued⟩, each⟩, by omega⟩
      · rintro ⟨counted, ⟨⟨named, valued⟩, each⟩, limit⟩
        exact ⟨⟨by omega, named, valued, by omega⟩, by omega, each, by omega⟩

/-! ### The rest of a request -/

/-- A request after the pieces of its line. -/
def begun (head : Head) (pieces : List LinePiece) : Request :=
  pieces.foldl (fun req piece => if req.rejected.isSome then req else req.lineCb piece) (new head)

/-- What comes of a request: the status it is rejected with, or its block and its body. -/
inductive Outcome where
  | rejected (status : Nat)
  | taken (block body : List UInt8) (file : Option (List UInt8))

def outcome (req : Request) : Outcome :=
  match req.rejected with
  | some rejection => .rejected rejection.1
  | none => .taken req.scgi.block (req.scgi.body.getD []) req.uploadFile

/-- What comes of a request as libebb passes it on; none where the source reads outside the URI. -/
def Incoming.outcome (head : Head) (incoming : Incoming) : Option Outcome :=
  (run head (new head) incoming.callbacks).map Request.outcome

/-- Is the URI of a request refused, as one whose query string or path is too long? -/
def Line.Refused (line : Line) : Prop :=
  line.path.len = 0 ∧ line.uriLen ≠ 0 ∧ ∃ rejection, line.absolute = .error rejection

theorem run_pieces (pieces : List LinePiece) :
    run head (new head) (pieces.map .line) = some (begun head pieces) ∧
      (begun head pieces).scgi = Scgi.new head.junk := by
  have all (req : Request) : run head req (pieces.map .line) = some (pieces.foldl
      (fun req piece => if req.rejected.isSome then req else req.lineCb piece) req) ∧
      (pieces.foldl (fun req piece => if req.rejected.isSome then req else req.lineCb piece)
        req).scgi = req.scgi := by
    induction pieces generalizing req with
    | nil => exact ⟨rfl, rfl⟩
    | cons piece pieces ih =>
        rw [List.map_cons, run_cons, step, List.foldl_cons]
        split
        · exact ih req
        · obtain ⟨ran, same⟩ := ih (req.lineCb piece)
          exact ⟨ran, same.trans (lineCb_frame req piece).1⟩
  exact all (new head)

theorem absolute_error {line : Line} {rejection : Rejection}
    (found : line.absolute = .error rejection) : rejection.1 = 413 := by
  unfold Line.absolute at found
  dsimp only at found
  -- with and without a query string
  split at found
  all_goals
    split at found
    · obtain rfl := Except.error.inj found
      rfl
    · split at found
      · cases found
      · split at found
        · split at found
          · obtain rfl := Except.error.inj found
            rfl
          · cases found
        · cases found

variable {scgi scgi' : Scgi}

/-- Objects with the same headers have the same host, or none. -/
theorem headerValueGet_none_iff (layout : scgi.Layout [] items none)
    (layout' : scgi'.Layout [] items none) (name : List UInt8) :
    scgi.headerValueGet name = none ↔ scgi'.headerValueGet name = none := by
  have same := layout.holds.latest_eq name
  rw [← layout'.holds.latest_eq name] at same
  rw [Scgi.headerValueGet, Scgi.headerValueGet, Option.map_eq_none_iff, Option.map_eq_none_iff,
    ← Option.map_eq_none_iff, same, Option.map_eq_none_iff]

/-- Setting the path of requests that differ in what their objects hold, but not in the headers. -/
theorem pathSet_alike (req : Request) (layout : scgi.Layout [] items none) (layout' : scgi'.Layout [] items none) :
    ({ req with scgi := scgi }.pathSet).rejected = ({ req with scgi := scgi' }.pathSet).rejected ∧
      ({ req with scgi := scgi }.pathSet).line = ({ req with scgi := scgi' }.pathSet).line := by
  have same := headerValueGet_none_iff layout layout' hostName
  unfold pathSet
  dsimp only
  simp only [same]
  split
  · split
    · exact ⟨rfl, rfl⟩
    · exact ⟨rfl, rfl⟩
  · split
    · split
      · exact ⟨rfl, rfl⟩
      · exact ⟨rfl, rfl⟩
      · exact ⟨rfl, rfl⟩
    · exact ⟨rfl, rfl⟩

/-- Whether the end of the headers rejects a request does not depend on anything else. -/
theorem headersCompleteCb_alike (head : Head) (req : Request) (request : EbbRequest)
    (layout : scgi.Layout [] items none)
    (layout' : scgi'.Layout [] items none) :
    (headersCompleteCb head request { req with scgi := scgi }).map (·.rejected) =
      (headersCompleteCb head request { req with scgi := scgi' }).map (·.rejected) := by
  obtain ⟨rejected, line⟩ := pathSet_alike req layout layout'
  unfold headersCompleteCb
  dsimp only
  rw [rejected, line]
  split
  · exact congrArg some rejected
  · rw [Option.map_map, Option.map_map]
    congr 1
    funext headers
    simp only [Function.comp_apply]
    cases request.method.text with
    | none => rfl
    | some method => simp only [resolveHttpReq]

/-- Setting the path rejects a request with 413 just for its URI. -/
theorem pathSet_413 (kept : req.rejected = none) :
    (∃ text, req.pathSet.rejected = some (413, text)) ↔ req.line.Refused := by
  unfold pathSet Line.Refused
  dsimp only
  by_cases path : req.line.path.len = 0
  · rw [if_neg (not_not.mpr path)]
    by_cases uri : req.line.uriLen = 0
    · rw [if_neg (not_not.mpr uri), kept]
      refine iff_of_false ?_ fun refused => refused.2.1 uri
      rintro ⟨text, same⟩
      cases same
    · rw [if_pos uri]
      cases found : req.line.absolute with
      | error rejection =>
          refine iff_of_true ⟨rejection.2, ?_⟩ ⟨path, uri, rejection, rfl⟩
          rw [← absolute_error found]
          rfl
      | ok result =>
          obtain ⟨line, host⟩ := result
          refine iff_of_false ?_ ?_
          · rintro ⟨text, same⟩
            cases host with
            | none => exact Option.some_ne_none _ (same.symm.trans kept)
            | some host => exact Option.some_ne_none _ (same.symm.trans kept)
          · rintro ⟨-, -, rejection, other⟩
            cases other
  · rw [if_pos path]
    refine iff_of_false ?_ fun refused => path refused.1
    rintro ⟨text, same⟩
    split at same
    · cases same
    · exact Option.some_ne_none _ (same.symm.trans kept)

/-- The end of the headers rejects a request with 413 just for its URI. -/
theorem headersCompleteCb_413 {request : EbbRequest} (kept : req.rejected = none) :
    (∃ next text, headersCompleteCb head request req = some next ∧
      next.rejected = some (413, text)) ↔ req.line.Refused := by
  rw [← pathSet_413 kept]
  unfold headersCompleteCb
  dsimp only
  by_cases rejected : req.pathSet.rejected.isSome = true
  · rw [if_pos rejected]
    constructor
    · rintro ⟨next, text, same, status⟩
      obtain rfl := Option.some.inj same
      exact ⟨text, status⟩
    · rintro ⟨text, status⟩
      exact ⟨_, text, rfl, status⟩
  · rw [if_neg rejected]
    refine iff_of_false ?_ ?_
    · rintro ⟨next, text, made, status⟩
      obtain ⟨headers, -, rfl⟩ := Option.map_eq_some_iff.mp made
      cases named : request.method.text with
      | none =>
          simp only [named] at status
          cases status
      | some method =>
          simp only [named] at status
          exact rejected (Option.isSome_iff_exists.mpr ⟨_, status⟩)
    · rintro ⟨text, status⟩
      exact rejected (Option.isSome_iff_exists.mpr ⟨_, status⟩)

/-- The body and the end of a request reject nothing. -/
theorem run_end (head : Head) (bodies : List (List UInt8)) (kept : req.rejected = none) :
    ∃ last, run head req (bodies.map .body ++ [.complete]) = some last ∧ last.rejected = none := by
  have listening (req : Request) (kept : req.rejected = none) : ¬ req.rejected.isSome = true := by
    rw [kept]
    decide
  induction bodies generalizing req with
  | nil =>
      refine ⟨req.completeCb, ?_, kept⟩
      rw [List.map_nil, List.nil_append, run_cons, step, if_neg (listening req kept)]
      rfl
  | cons body bodies ih =>
      have same : (req.bodyCb body).rejected = none := by
        unfold bodyCb
        split
        · split
          · exact kept
          · exact kept
        · exact kept
      rw [List.map_cons, List.cons_append, run_cons, step, if_neg (listening req kept)]
      exact ih same

namespace Incoming

variable {incoming : Incoming}

/-- The callbacks behind the headers. -/
def lastCallbacks (incoming : Incoming) : List Callback :=
  .headersComplete incoming.request :: (incoming.body.map .body ++ [.complete])

/-- Do the headers of a request fit? -/
def Fit (incoming : Incoming) : Prop :=
  ClientHeader.AllFit 0 (startOffsetInit + (encode [scgiEntry]).length) incoming.headers

theorem run_eq (incoming : Incoming) :
    run head (new head) incoming.callbacks =
      (run head (begun head incoming.line) (headerCallbacks 0 incoming.headers)).bind
        fun next => run head next incoming.lastCallbacks := by
  rw [callbacks, run_append, (run_pieces incoming.line).1, Option.bind_some, run_append]
  rfl

theorem shows_begun (pieces : List LinePiece) :
    (begun head pieces).scgi.Shows [] ⟨[scgiEntry], .none, -1⟩ := by
  rw [(run_pieces pieces).2]
  exact Shows.new head.junk

/-- The headers of a request are taken down behind the `SCGI` header when they fit. -/
theorem takes_all (head : Head) (incoming : Incoming) :
    ∃ after, Takes head (headerCallbacks 0 incoming.headers) ⟨[scgiEntry], .none, -1⟩ after
        incoming.Fit ∧
      after.all = scgiEntry :: incoming.clientEntries ∧ after.opened = none := by
  have fresh : (⟨[scgiEntry], .none, -1⟩ : Draft).index < (0 : Nat) := by decide
  exact takes_headers head incoming.headers rfl fresh

/-- Headers that fit are taken down before the rest of the request. -/
theorem run_of_fit (kept : (begun head incoming.line).rejected = none) (fit : incoming.Fit) :
    ∃ scgi : Scgi, scgi.Layout [] (scgiEntry :: incoming.clientEntries) none ∧
      run head (new head) incoming.callbacks =
        run head { begun head incoming.line with scgi := scgi } incoming.lastCallbacks := by
  obtain ⟨after, takes, all, closed⟩ := takes_all head incoming
  obtain ⟨scgi, ran, shown⟩ := takes.accepted fit _ kept (shows_begun incoming.line)
  refine ⟨scgi, ?_, ?_⟩
  · have layout := shown.layout
    rw [all, closed] at layout
    exact layout
  · rw [run_eq, ran]
    rfl

/-- Headers that do not fit are refused. -/
theorem outcome_of_not_fit (kept : (begun head incoming.line).rejected = none)
    (long : ¬ incoming.Fit) : incoming.outcome head = some (.rejected 413) := by
  obtain ⟨after, takes, -⟩ := takes_all head incoming
  obtain ⟨last, text, ran, rejected⟩ := takes.refused long _ kept (shows_begun incoming.line)
  rw [outcome, run_eq, ran, Option.bind_some, run_rejected (by rw [rejected]; rfl),
    Option.map_some, Request.outcome, rejected]

/-- A request whose line is rejected comes out with the status of the line. -/
theorem outcome_of_line {rejection : Rejection}
    (rejected : (begun head incoming.line).rejected = some rejection) :
    incoming.outcome head = some (.rejected rejection.1) := by
  have stays : (begun head incoming.line).rejected.isSome = true := by
    rw [rejected]
    rfl
  rw [outcome, run_eq, run_rejected stays, Option.bind_some, run_rejected stays, Option.map_some,
    Request.outcome, rejected]

/-- A request whose headers fit is refused with 413 just for its URI. -/
theorem outcome_413_iff (kept : (begun head incoming.line).rejected = none)
    (fit : incoming.Fit) :
    incoming.outcome head = some (.rejected 413) ↔ (begun head incoming.line).line.Refused := by
  obtain ⟨scgi, -, ran⟩ := run_of_fit kept fit
  have same := @headersCompleteCb_413 head { begun head incoming.line with scgi := scgi }
    incoming.request kept
  have listening : ¬ (begun head incoming.line).rejected.isSome = true := by
    rw [kept]
    decide
  rw [← same, outcome, ran, lastCallbacks, run_cons, step, if_neg listening]
  cases called : headersCompleteCb head incoming.request
      { begun head incoming.line with scgi := scgi } with
  | none => simp
  | some next =>
      rw [Option.bind_some]
      cases rejected : next.rejected with
      | some rejection =>
          rw [run_rejected (by rw [rejected]; rfl), Option.map_some, Request.outcome, rejected]
          simp [rejected, Prod.ext_iff]
      | none =>
          obtain ⟨last, done, accepted⟩ := run_end head incoming.body rejected
          rw [done, Option.map_some, Request.outcome, accepted]
          simp [rejected]

end Incoming

/-! ### Two ways of splitting -/

namespace ClientHeader

/-- The name and the value of a header, put together from their pieces. -/
def text (header : ClientHeader) : List UInt8 × List UInt8 :=
  (((header.field :: header.fields).map (·.1)).flatten,
    ((header.value :: header.values).map (·.1)).flatten)

theorem entry_eq (header : ClientHeader) :
    header.entry = ((httpPrefix ++ header.text.1).map envByte, header.text.2) := by
  simp [entry, group, Scgi.Group.entry, text]

end ClientHeader

namespace Incoming

/-- Requests that are the same when the pieces of their headers are put together. -/
structure Alike (first second : Incoming) : Prop where
  line : first.line = second.line
  headers : first.headers.map ClientHeader.text = second.headers.map ClientHeader.text
  request : first.request = second.request
  body : first.body = second.body

variable {first second : Incoming}

theorem Alike.symm (alike : first.Alike second) : second.Alike first :=
  ⟨alike.line.symm, alike.headers.symm, alike.request.symm, alike.body.symm⟩

theorem Alike.clientEntries (alike : first.Alike second) :
    first.clientEntries = second.clientEntries := by
  have entries (headers : List ClientHeader) : headers.map ClientHeader.entry =
      (headers.map ClientHeader.text).map fun text =>
        ((httpPrefix ++ text.1).map envByte, text.2) := by
    rw [List.map_map]
    exact List.map_congr_left fun header _ => header.entry_eq
  rw [Incoming.clientEntries, Incoming.clientEntries, entries, entries, alike.headers]

/-- Accepted requests that are alike have the same block, body and upload file. -/
theorem Alike.outcome_accepted (alike : first.Alike second) {req last : Request}
    (accepted : Accepted head first req) (other : Accepted head second last) :
    Request.outcome req = Request.outcome last := by
  have received := accepted.received
  have again := other.received
  have entries : first.entries head = second.entries head := by
    rw [Incoming.entries, Incoming.entries, added, added, requestLine, requestLine,
      alike.clientEntries, alike.line, alike.request]
  rw [Request.outcome, Request.outcome, accepted.kept, other.kept]
  dsimp only
  rw [received.built.block, again.built.block, entries, received.body, again.body, received.file,
    again.file, alike.request, alike.body]

/-- Requests that are alike and whose headers fit come out the same. -/
theorem Alike.outcome_of_fit (alike : first.Alike second)
    (kept : (begun head first.line).rejected = none) (fit : first.Fit) (fit' : second.Fit) :
    first.outcome head = second.outcome head := by
  obtain ⟨scgi, layout, ran⟩ := run_of_fit kept fit
  obtain ⟨scgi', layout', ran'⟩ := run_of_fit (alike.line ▸ kept) fit'
  rw [← alike.clientEntries] at layout'
  have listening : ¬ (begun head first.line).rejected.isSome = true := by
    rw [kept]
    decide
  have rejections :=
    headersCompleteCb_alike head (begun head first.line) first.request layout layout'
  rw [lastCallbacks, run_cons, step, if_neg listening] at ran
  rw [← alike.line, lastCallbacks, run_cons, step, if_neg listening, ← alike.request,
    ← alike.body] at ran'
  cases called : headersCompleteCb head first.request { begun head first.line with scgi := scgi }
    with
  | none =>
      rw [called, Option.map_none] at rejections
      rw [called] at ran
      rw [Option.map_eq_none_iff.mp rejections.symm] at ran'
      rw [outcome, outcome, ran, ran']
  | some next =>
      rw [called, Option.map_some] at rejections
      obtain ⟨next', called', same⟩ := Option.map_eq_some_iff.mp rejections.symm
      rw [called, Option.bind_some] at ran
      rw [called', Option.bind_some] at ran'
      cases rejected : next.rejected with
      | some rejection =>
          have stays : next.rejected.isSome = true := by rw [rejected]; rfl
          have stays' : next'.rejected.isSome = true := by rw [same]; exact stays
          rw [run_rejected stays] at ran
          rw [run_rejected stays'] at ran'
          rw [outcome, outcome, ran, ran', Option.map_some, Option.map_some, Request.outcome,
            Request.outcome, same, rejected]
      | none =>
          obtain ⟨last, done, accepted⟩ := run_end head first.body rejected
          obtain ⟨last', done', accepted'⟩ :=
            run_end head first.body (same.trans rejected)
          rw [outcome, outcome, ran, ran', done, done', Option.map_some, Option.map_some,
            alike.outcome_accepted ⟨ran.trans done, accepted⟩ ⟨ran'.trans done', accepted'⟩]

/-- The headers end one byte behind the limit, which is seen just when the last value comes in more
than one piece. -/
structure AtLimit (head : Head) (first second : Incoming) : Prop where
  line : (begun head first.line).rejected = none
  uri : ¬ (begun head first.line).line.Refused
  count : first.headers.length ≤ Config.maxHeaderCount
  short : ∀ entry ∈ first.clientEntries,
    entry.1.length ≤ Config.maxFieldSize ∧ entry.2.length ≤ Config.maxValueSize
  full : startOffsetInit + (encode (scgiEntry :: first.clientEntries)).length =
    Config.maxHeaderSize + 1
  pieces : ClientHeader.wholeLast first.headers ≠ ClientHeader.wholeLast second.headers

/-- When the headers fit. -/
theorem fit_iff {incoming : Incoming} (some : incoming.headers ≠ []) :
    incoming.Fit ↔
      incoming.headers.length ≤ Config.maxHeaderCount ∧
      (∀ entry ∈ incoming.clientEntries,
        entry.1.length ≤ Config.maxFieldSize ∧ entry.2.length ≤ Config.maxValueSize) ∧
      startOffsetInit + (encode (scgiEntry :: incoming.clientEntries)).length ≤
        Config.maxHeaderSize + (ClientHeader.wholeLast incoming.headers).toNat := by
  have total : (encode (scgiEntry :: incoming.clientEntries)).length =
      (encode [scgiEntry]).length + (encode incoming.clientEntries).length := by
    rw [Scgi.encode_cons, List.length_append, Scgi.encode_singleton]
  rw [Fit, total, clientEntries, ← Nat.add_assoc]
  cases given : incoming.headers with
  | nil => exact absurd given some
  | cons header headers => rw [ClientHeader.allFit_iff, Nat.zero_add]

/-- Of requests that are alike just the first one fits when its headers end one byte behind the
limit and just its last value comes in one piece. -/
theorem Alike.fit_only (alike : first.Alike second) :
    first.Fit ∧ ¬ second.Fit ↔
      first.headers.length ≤ Config.maxHeaderCount ∧
      (∀ entry ∈ first.clientEntries,
        entry.1.length ≤ Config.maxFieldSize ∧ entry.2.length ≤ Config.maxValueSize) ∧
      startOffsetInit + (encode (scgiEntry :: first.clientEntries)).length =
        Config.maxHeaderSize + 1 ∧
      ClientHeader.wholeLast first.headers = true ∧
      ClientHeader.wholeLast second.headers = false := by
  have lengths : first.headers.length = second.headers.length := by
    simpa using congrArg List.length alike.headers
  by_cases empty : first.headers = []
  · have empty' : second.headers = [] := by
      rw [empty] at lengths
      exact List.eq_nil_of_length_eq_zero lengths.symm
    refine iff_of_false ?_ ?_
    · rintro ⟨-, long⟩
      refine long ?_
      rw [Fit, empty']
      trivial
    · rintro ⟨-, -, -, whole, -⟩
      rw [empty] at whole
      cases whole
  · have some : second.headers ≠ [] := by
      intro empty'
      rw [empty'] at lengths
      exact empty (List.eq_nil_of_length_eq_zero lengths)
    rw [fit_iff empty, fit_iff some, ← alike.clientEntries, ← lengths]
    cases whole : ClientHeader.wholeLast first.headers with
    | true =>
        cases whole' : ClientHeader.wholeLast second.headers with
        | true => simp
        | false =>
            simp only [Bool.toNat_true, Bool.toNat_false, and_true]
            constructor
            · rintro ⟨⟨count, short, limit⟩, long⟩
              exact ⟨count, short, by by_contra other; exact long ⟨count, short, by omega⟩⟩
            · rintro ⟨count, short, limit⟩
              exact ⟨⟨count, short, by omega⟩, fun fit => by omega⟩
    | false =>
        cases whole' : ClientHeader.wholeLast second.headers with
        | true =>
            refine iff_of_false ?_ (by simp)
            rintro ⟨⟨count, short, limit⟩, long⟩
            exact long ⟨count, short, Nat.le_succ_of_le limit⟩
        | false => simp

theorem Alike.atLimit_symm (alike : first.Alike second) :
    AtLimit head first second ↔ AtLimit head second first := by
  have lengths : first.headers.length = second.headers.length := by
    simpa using congrArg List.length alike.headers
  constructor
  · rintro ⟨line, uri, count, short, full, pieces⟩
    exact ⟨alike.line ▸ line, alike.line ▸ uri, lengths ▸ count, alike.clientEntries ▸ short,
      alike.clientEntries ▸ full, pieces.symm⟩
  · rintro ⟨line, uri, count, short, full, pieces⟩
    exact ⟨alike.line ▸ line, alike.line ▸ uri, lengths ▸ count, alike.clientEntries ▸ short,
      alike.clientEntries ▸ full, pieces.symm⟩

/-- When just the first of two requests fits they come out the same only if the URI is refused. -/
theorem Alike.outcome_iff_of_fit_only (alike : first.Alike second)
    (kept : (begun head first.line).rejected = none) (only : first.Fit ∧ ¬ second.Fit) :
    first.outcome head = second.outcome head ↔ ¬ AtLimit head first second := by
  rw [outcome_of_not_fit (alike.line ▸ kept) only.2, outcome_413_iff kept only.1]
  obtain ⟨count, short, full, whole, pieces⟩ := alike.fit_only.mp only
  constructor
  · intro refused limit
    exact limit.uri refused
  · intro elsewhere
    by_contra uri
    exact elsewhere ⟨kept, uri, count, short, full, by rw [whole, pieces]; decide⟩

/-- At the limit just one of two requests fits. -/
theorem AtLimit.fit_only (alike : first.Alike second) (limit : AtLimit head first second) :
    first.Fit ∧ ¬ second.Fit ∨ second.Fit ∧ ¬ first.Fit := by
  have pieces := limit.pieces
  cases whole : ClientHeader.wholeLast first.headers with
  | true =>
      rw [whole] at pieces
      refine .inl (alike.fit_only.mpr ⟨limit.count, limit.short, limit.full, whole, ?_⟩)
      exact Bool.eq_false_iff.mpr pieces.symm
  | false =>
      have other := alike.atLimit_symm.mp limit
      rw [whole] at pieces
      refine .inr (alike.symm.fit_only.mpr ⟨other.count, other.short, other.full, ?_, whole⟩)
      exact Bool.of_not_eq_false pieces.symm

/-- Requests that are alike come out the same unless their headers end one byte behind the limit. -/
theorem chunking_iff (alike : first.Alike second) :
    first.outcome head = second.outcome head ↔ ¬ AtLimit head first second := by
  cases kept : (begun head first.line).rejected with
  | some rejection =>
      refine iff_of_true ?_ fun limit => ?_
      · rw [outcome_of_line kept, outcome_of_line (alike.line ▸ kept)]
      · exact Option.some_ne_none _ (kept.symm.trans limit.line)
  | none =>
      by_cases fit : first.Fit
      · by_cases fit' : second.Fit
        · refine iff_of_true (alike.outcome_of_fit kept fit fit') fun limit => ?_
          rcases limit.fit_only alike with only | only
          · exact only.2 fit'
          · exact only.2 fit
        · exact alike.outcome_iff_of_fit_only kept ⟨fit, fit'⟩
      · by_cases fit' : second.Fit
        · rw [eq_comm, alike.atLimit_symm]
          exact alike.symm.outcome_iff_of_fit_only (alike.line ▸ kept) ⟨fit', fit⟩
        · refine iff_of_true ?_ fun limit => ?_
          · rw [outcome_of_not_fit kept fit, outcome_of_not_fit (alike.line ▸ kept) fit']
          · rcases limit.fit_only alike with only | only
            · exact fit only.1
            · exact fit' only.1

end Incoming

/-! ### A value in two pieces -/

/-- A value of many letters. -/
def longValue (count : Nat) : FieldValue :=
  ⟨List.replicate count 97, fun member => absurd (List.eq_of_mem_replicate member) (by decide)⟩

theorem length_longValue (count : Nat) : (longValue count).1.length = count :=
  List.length_replicate

/-- A request for `/a` with three headers, of which the last value comes in pieces. -/
def threeHeaders (first second : FieldValue) (values : List FieldValue) : Incoming where
  line := [.uri ⟨ascii "/a", noNul_path⟩, .path 2]
  headers :=
    [⟨tokenOf "Host" visible_host, [], ⟨ascii "h", oneLine_h⟩, []⟩,
      ⟨tokenOf "A" (by decide +kernel), [], first, []⟩,
      ⟨tokenOf "B" (by decide +kernel), [], second, values⟩]
  request := ⟨.get, .identity, 1, 1, 0⟩
  body := []

theorem clientEntries_threeHeaders (first second : FieldValue) :
    (threeHeaders first second []).clientEntries =
      [((httpPrefix ++ ascii "Host").map envByte, ascii "h"),
        ((httpPrefix ++ ascii "A").map envByte, first.1),
        ((httpPrefix ++ ascii "B").map envByte, second.1)] := by
  simp [Incoming.clientEntries, threeHeaders, ClientHeader.entry_eq, ClientHeader.text, tokenOf]

/-- The headers end one byte behind the limit. -/
def fullIncoming (values : List FieldValue) : Incoming :=
  threeHeaders (longValue 81920) (longValue 30646) values

theorem alike_fullIncoming : (fullIncoming []).Alike (fullIncoming [⟨[], List.not_mem_nil⟩]) := by
  have pieces (first second : FieldValue) :
      (threeHeaders first second []).Alike (threeHeaders first second [⟨[], List.not_mem_nil⟩]) :=
    ⟨rfl, by simp [threeHeaders, ClientHeader.text], rfl, rfl⟩
  exact pieces _ _

/-- The request for `/a` with the name of its host header in pieces. -/
def splitIncoming : Incoming where
  line := [.uri ⟨ascii "/a", noNul_path⟩, .path 2]
  headers :=
    [⟨tokenOf "Ho" (by decide +kernel), [tokenOf "" (by decide +kernel), tokenOf "st" (by decide +kernel)],
        ⟨ascii "h", oneLine_h⟩, []⟩,
      ⟨tokenOf "X" visible_x, [], ⟨ascii "a", by decide⟩, []⟩]
  request := ⟨.get, .identity, 1, 1, 0⟩
  body := []

theorem chunking_iff_sample :
    splitIncoming.outcome sampleHead =
      (sampleIncoming ⟨ascii "a", by decide⟩).outcome sampleHead := by
  have alike : splitIncoming.Alike (sampleIncoming ⟨ascii "a", by decide⟩) :=
    ⟨rfl, by decide +kernel, rfl, rfl⟩
  refine (Incoming.chunking_iff alike).mpr fun limit => limit.pieces ?_
  decide +kernel

theorem length_encode (items : List Entry) :
    (encode items).length = (items.map fun item => item.1.length + item.2.length + 2).sum := by
  induction items with
  | nil => rfl
  | cons item items ih =>
      rw [Scgi.encode_cons, List.length_append, Scgi.length_encodeEntry, ih, List.map_cons,
        List.sum_cons]

theorem length_threeHeaders (first second : FieldValue) :
    (encode (scgiEntry :: (threeHeaders first second []).clientEntries)).length =
      first.1.length + second.1.length + 35 := by
  have host : (httpPrefix ++ ascii "Host").length = 9 := by decide
  have named : (httpPrefix ++ ascii "A").length = 6 := by decide
  have named' : (httpPrefix ++ ascii "B").length = 6 := by decide
  have letter : (ascii "h").length = 1 := by decide
  have own : scgiEntry.1.length + scgiEntry.2.length + 2 = 7 := by decide
  rw [length_encode, clientEntries_threeHeaders]
  simp only [List.map_cons, List.map_nil, List.sum_cons, List.sum_nil, List.length_map, host,
    named, named', letter, own]
  omega

/-- The last value is accepted in one piece, and refused when an empty piece follows. -/
theorem not_chunking :
    (fullIncoming []).outcome sampleHead ≠
      (fullIncoming [⟨[], List.not_mem_nil⟩]).outcome sampleHead := by
  have kept : (begun sampleHead (fullIncoming []).line).rejected = none := by decide +kernel
  have host : (httpPrefix ++ ascii "Host").length = 9 := by decide
  have first : (httpPrefix ++ ascii "A").length = 6 := by decide
  have second : (httpPrefix ++ ascii "B").length = 6 := by decide
  have letter : (ascii "h").length = 1 := by decide
  have entries := clientEntries_threeHeaders (longValue 81920) (longValue 30646)
  have limit : Incoming.AtLimit sampleHead (fullIncoming [])
      (fullIncoming [⟨[], List.not_mem_nil⟩]) := by
    refine ⟨kept, ?_, by decide +kernel, ?_, ?_, by decide +kernel⟩
    · rintro ⟨path, -⟩
      exact absurd path (by decide +kernel)
    · rw [fullIncoming, entries]
      simp only [List.forall_mem_cons, List.length_map, host, first, second, letter,
        length_longValue, Config.maxFieldSize, Config.maxValueSize]
      exact ⟨by decide, by decide, by decide, fun _ member => absurd member List.not_mem_nil⟩
    · rw [fullIncoming, length_threeHeaders, length_longValue, length_longValue]
      rfl
  intro same
  rcases limit.fit_only alike_fullIncoming with only | only
  · exact (alike_fullIncoming.outcome_iff_of_fit_only kept only).mp same limit
  · exact (alike_fullIncoming.symm.outcome_iff_of_fit_only kept only).mp same.symm
      (alike_fullIncoming.atLimit_symm.mp limit)

end Request
