import Webroar.Scgi.Draft
import Webroar.Scgi.Parser

/-! # What is built is parsed back

The pieces of a client header come as one group of calls, numbered above the client headers
before it; whole headers are groups of one call, and body bytes may come at any time. After a
build the wire bytes parse back to the content length, the `SCGI` header and the added entries
in order.

The content length is written in front of the recorded headers, so the builder itself does not
find it unless a header of that name was added. A body of one byte is outside the main result,
and so is a header block that the `int` counter of the parser cannot pass.
-/

namespace Scgi

/-- The calls that make one header. -/
inductive Group where
  /-- A header added whole. -/
  | special (field value : List UInt8)
  /-- A client header: the pieces of its name, then the pieces of its value. -/
  | client (index : Int) (field : List UInt8) (fields : List (List UInt8))
      (value : List UInt8) (values : List (List UInt8))

namespace Group

def calls : Group → List Call
  | special field value => [.headerAdd field value]
  | client index field fields value values =>
      (field :: fields).map (Call.headerFieldAdd · index) ++
        (value :: values).map (Call.headerValueAdd · index)

/-- The name as it was passed in. -/
def name : Group → List UInt8
  | special field _ => field
  | client _ field fields _ _ => (field :: fields).flatten

def value : Group → List UInt8
  | special _ value => value
  | client _ _ _ value values => (value :: values).flatten

/-- The entry a group adds: a client header's name in upper case with underscores. -/
def entry : Group → Entry
  | special field value => (field, value)
  | client _ field fields value values =>
      ((field :: fields).flatten.map envByte, (value :: values).flatten)

def index? : Group → Option Int
  | special _ _ => none
  | client index _ _ _ _ => some index

/-- The name has neither NUL nor comma and the value has no NUL. -/
def Clean (group : Group) : Prop :=
  ((0 : UInt8) ∉ group.name ∧ (44 : UInt8) ∉ group.name) ∧ (0 : UInt8) ∉ group.value

end Group

/-- The header calls are those of the groups, in order, and client headers are numbered
upwards from zero. -/
structure Issued (calls : List Call) (groups : List Group) : Prop where
  headers : calls.filter Call.isHeader = groups.flatMap Group.calls
  increasing : List.Pairwise (· < ·) (-1 :: groups.filterMap Group.index?)

/-- A new object on which some calls were made. -/
def drafted (junk : Nat → UInt8) (calls : List Call) : Scgi := (Scgi.new junk).run calls

/-- The object that some calls and a build made. -/
def built (junk : Nat → UInt8) (calls : List Call) : Scgi := (drafted junk calls).build

/-- The first entry of every object. -/
def scgiEntry : Entry := (ascii "SCGI", ascii "1")

theorem envByte_ne {byte : UInt8} (plain : byte ≠ 0) (whole : byte ≠ 44) :
    envByte byte ≠ 0 ∧ envByte byte ≠ 44 := by
  have all : ∀ n < 256, UInt8.ofNat n ≠ 0 → UInt8.ofNat n ≠ 44 →
      envByte (UInt8.ofNat n) ≠ 0 ∧ envByte (UInt8.ofNat n) ≠ 44 := by decide +kernel
  have named : UInt8.ofNat byte.toNat = byte := UInt8.ofNat_toNat
  rw [← named] at plain whole ⊢
  exact all byte.toNat byte.toNat_lt plain whole

/-- A group of clean calls adds a clean entry. -/
theorem Group.Clean.entry {group : Group} (clean : group.Clean) :
    ((0 : UInt8) ∉ group.entry.1 ∧ (44 : UInt8) ∉ group.entry.1) ∧ (0 : UInt8) ∉ group.entry.2 := by
  obtain ⟨⟨plain, whole⟩, plainValue⟩ := clean
  cases group with
  | special field value => exact ⟨⟨plain, whole⟩, plainValue⟩
  | client index field fields value values =>
      have mapped : ∀ byte ∈ (field :: fields).flatten,
          envByte byte ≠ 0 ∧ envByte byte ≠ 44 := by
        intro byte member
        refine envByte_ne ?_ ?_
        · rintro rfl
          exact plain member
        · rintro rfl
          exact whole member
      refine ⟨⟨?_, ?_⟩, plainValue⟩
      · intro member
        obtain ⟨byte, inside, equal⟩ := List.mem_map.mp member
        exact (mapped byte inside).1 equal
      · intro member
        obtain ⟨byte, inside, equal⟩ := List.mem_map.mp member
        exact (mapped byte inside).2 equal

/-- Further pieces of a name extend it. -/
theorem Draft.run_fields (items : List Entry) (index : Int) (name : List UInt8)
    (fields : List (List UInt8)) :
    (Draft.mk items (.name name) index).run (fields.map (Call.headerFieldAdd · index)) =
      some ⟨items, .name (name ++ fields.flatten.map envByte), index⟩ := by
  induction fields generalizing name with
  | nil => simp [Draft.run]
  | cons field rest ih =>
      rw [List.map_cons, Draft.run, Draft.step]
      simp only [↓reduceIte, Option.bind_some]
      rw [ih, List.flatten_cons, List.map_append, List.append_assoc]

/-- Further pieces of a value extend it. -/
theorem Draft.run_values (items : List Entry) (index : Int) (name value : List UInt8)
    (values : List (List UInt8)) :
    (Draft.mk items (.entry name value) index).run (values.map (Call.headerValueAdd · index)) =
      some ⟨items, .entry name (value ++ values.flatten), index⟩ := by
  induction values generalizing value with
  | nil => simp [Draft.run]
  | cons piece rest ih =>
      rw [List.map_cons, Draft.run, Draft.step]
      simp only [↓reduceIte, Option.bind_some]
      rw [ih, List.flatten_cons, List.append_assoc]

/-- A group of calls writes its entry down. -/
theorem Draft.run_group (draft : Draft) (group : Group) (closed : draft.opened = none)
    (later : ∀ index ∈ group.index?, draft.index < index) :
    ∃ after, draft.run group.calls = some after ∧ after.all = draft.all ++ [group.entry] ∧
      after.opened = none ∧ after.index = group.index?.getD draft.index := by
  obtain ⟨items, current, number⟩ := draft
  cases group with
  | special field value =>
      cases current with
      | name name => cases closed
      | none => exact ⟨_, rfl, rfl, rfl, rfl⟩
      | entry name text => exact ⟨_, rfl, rfl, rfl, rfl⟩
  | client index field fields value values =>
      have above : number < index := later index rfl
      have first : (Draft.mk items current number).step (.headerFieldAdd field index) =
          some ⟨(Draft.mk items current number).all, .name (field.map envByte), index⟩ := by
        cases current with
        | name name => cases closed
        | none => simp only [Draft.step, above, ↓reduceIte]
        | entry name text => simp only [Draft.step, above, ↓reduceIte]
      refine ⟨⟨(Draft.mk items current number).all,
        .entry (field.map envByte ++ fields.flatten.map envByte) (value ++ values.flatten), index⟩,
        ?_, ?_, rfl, rfl⟩
      · rw [Group.calls, List.map_cons, List.map_cons, List.cons_append, Draft.run, first,
          Option.bind_some, Draft.run_append, Draft.run_fields, Option.bind_some, Draft.run,
          Draft.step]
        simp only [↓reduceIte, Option.bind_some]
        exact Draft.run_values ..
      · simp only [Draft.all, Group.entry, List.flatten_cons, List.map_append]

/-- Groups of calls write their entries down in order. -/
theorem Draft.run_groups (draft : Draft) (groups : List Group) (closed : draft.opened = none)
    (increasing : List.Pairwise (· < ·) (draft.index :: groups.filterMap Group.index?)) :
    ∃ after, draft.run (groups.flatMap Group.calls) = some after ∧
      after.all = draft.all ++ groups.map Group.entry ∧ after.opened = none := by
  induction groups generalizing draft with
  | nil => exact ⟨draft, rfl, by simp, closed⟩
  | cons group rest ih =>
      have later : ∀ index ∈ group.index?, draft.index < index := by
        intro index member
        refine (List.pairwise_cons.mp increasing).1 index ?_
        exact List.mem_filterMap.mpr ⟨group, List.mem_cons_self, member⟩
      obtain ⟨middle, first, added, stillClosed, numbered⟩ := draft.run_group group closed later
      have rising : List.Pairwise (· < ·) (middle.index :: rest.filterMap Group.index?) := by
        rw [numbered]
        cases number : group.index? with
        | none =>
            rw [List.filterMap_cons_none number] at increasing
            exact increasing
        | some index =>
            rw [List.filterMap_cons_some number] at increasing
            exact (List.pairwise_cons.mp increasing).2
      obtain ⟨after, last, all, ended⟩ := ih middle stillClosed rising
      refine ⟨after, ?_, ?_, ended⟩
      · rw [List.flatMap_cons, Draft.run_append, first, Option.bind_some, last]
      · rw [all, added, List.map_cons, List.append_assoc, List.cons_append, List.nil_append]

/-- What issued calls leave in the builder, before and after the build. -/
theorem built_of_issued (junk : Nat → UInt8) {calls : List Call} {groups : List Group}
    (issued : Issued calls groups) :
    (built junk calls).Built
      (contentLengthEntry (bodyOf calls).length :: scgiEntry :: groups.map Group.entry)
      (scgiEntry :: groups.map Group.entry) ∧
      (built junk calls).body.getD [] = bodyOf calls := by
  obtain ⟨after, accepted, all, closed⟩ :=
    Draft.run_groups ⟨[scgiEntry], .none, -1⟩ groups rfl issued.increasing
  rw [← issued.headers, Draft.run_filter] at accepted
  have shown := (Shows.new junk).run calls accepted
  have layout := shown.layout
  rw [all, closed] at layout
  have body : (drafted junk calls).body.getD [] = bodyOf calls := by
    rw [drafted, body_run]
    have empty : (Scgi.new junk).body.getD [] = [] := by
      rw [Scgi.new]
      exact (body_call _ (.headerAdd _ _)).trans rfl
    rw [empty, List.nil_append]
  refine ⟨?_, by rw [built, body_build, body]⟩
  have finished := layout.build_of_start
  rw [bodyLength, show ((Scgi.new junk).run calls).body.getD [] = bodyOf calls from body]
    at finished
  exact finished

/-- An entry in front of a list is found only when the list has no entry of its name. -/
theorem latest_cons (item : Entry) (items : List Entry) (name : List UInt8)
    (other : name ≠ item.1 ∨ name ∈ items.map Prod.fst) :
    latest (item :: items) name = latest items name := by
  rw [latest, latest, List.reverse_cons, List.find?_append]
  cases found : items.reverse.find? fun item => item.1 = name with
  | some later => rfl
  | none =>
      have absent : name ∉ items.map Prod.fst := by
        intro member
        obtain ⟨later, inside, named⟩ := List.mem_map.mp member
        have differs := List.find?_eq_none.mp found later (List.mem_reverse.mpr inside)
        exact differs (by simpa using named)
      have differs : ¬ item.1 = name := by
        rcases other with different | present
        · exact fun same => different same.symm
        · exact absurd present absent
      simp [differs]

theorem clean_scgiEntry : Clean [scgiEntry] := by decide

theorem clean_contentLengthEntry (length : Nat) : Clean [contentLengthEntry length] := by
  intro item member
  obtain rfl := List.mem_singleton.mp member
  have named : (0 : UInt8) ∉ contentLengthName ∧ (44 : UInt8) ∉ contentLengthName := by decide
  refine ⟨named, fun member => ?_⟩
  simp only [contentLengthEntry] at member
  rcases Decimal.mem_format member with digit | minus
  · exact absurd digit (by decide)
  · exact absurd minus (by decide)

theorem Clean.append {first second : List Entry} (left : Clean first) (right : Clean second) :
    Clean (first ++ second) := fun item member =>
  (List.mem_append.mp member).elim (left item) (right item)

/-- All entries of the frame that clean calls build are clean. -/
theorem clean_entries {groups : List Group} (clean : ∀ group ∈ groups, group.Clean)
    (length : Nat) :
    Clean (contentLengthEntry length :: scgiEntry :: groups.map Group.entry) := by
  have added : Clean (groups.map Group.entry) := by
    intro item member
    obtain ⟨group, inside, rfl⟩ := List.mem_map.mp member
    exact (clean group inside).entry
  exact (clean_contentLengthEntry length).append (clean_scgiEntry.append added)

/-- After one build the wire bytes parse to the content length, the `SCGI` header and exactly
the added entries in order. Every name but the content length is looked up alike on both sides,
and so is the content length when a header of that name was added. The body comes back byte for
byte unless it is a single byte. -/
theorem round_trip (junk : Nat → UInt8) {calls : List Call} {groups : List Group}
    (issued : Issued calls groups) (clean : ∀ group ∈ groups, group.Clean)
    (short : (built junk calls).block.length < 2 ^ 31) :
    ∃ parsed, parse (built junk calls).wire = some parsed ∧
      parsed.entries =
        contentLengthEntry (bodyOf calls).length :: scgiEntry :: groups.map Group.entry ∧
      (∀ name, name ≠ contentLengthName ∨ name ∈ groups.map (fun group => group.entry.1) →
        parsed.headerValueGet name = (built junk calls).headerValueGet name) ∧
      ((bodyOf calls).length ≠ 1 → parsed.body.getD [] = bodyOf calls) := by
  obtain ⟨made, body⟩ := built_of_issued junk issued
  have cleaned := clean_entries clean (bodyOf calls).length
  rw [made.block] at short
  obtain ⟨parsed, found, back⟩ := parse_frame _ (bodyOf calls) cleaned short
  refine ⟨parsed, ?_, back.holds.entries, ?_, ?_⟩
  · rw [wire, made.block, body]
    exact found
  · intro name known
    rw [back.holds.headerValueGet fun item member => (cleaned item member).2,
      made.holds.headerValueGet fun item member =>
        (cleaned item (List.mem_cons_of_mem _ member)).2]
    refine latest_cons _ _ _ (known.imp_right fun added => ?_)
    rw [List.map_cons, List.map_map]
    exact List.mem_cons_of_mem _ added
  · intro several
    rw [back.body]
    by_cases long : 2 ≤ (bodyOf calls).length
    · rw [if_pos long, Option.getD_some]
    · have empty : bodyOf calls = [] := List.eq_nil_of_length_eq_zero (by omega)
      rw [if_neg long, empty, Option.getD_none]

/-- A client header, a body byte, a whole header and another body byte. -/
def sampleCalls : List Call :=
  [.headerFieldAdd (ascii "Ho") 0, .headerFieldAdd (ascii "st") 0,
    .headerValueAdd (ascii "a") 0, .bodyAdd (ascii "x"),
    .headerAdd (ascii "REQUEST_METHOD") (ascii "PUT"), .bodyAdd (ascii "y")]

def sampleGroups : List Group :=
  [.client 0 (ascii "Ho") [ascii "st"] (ascii "a") [],
    .special (ascii "REQUEST_METHOD") (ascii "PUT")]

theorem round_trip_sample :
    ∃ parsed, parse (built (fun _ => 7) sampleCalls).wire = some parsed ∧
      parsed.entries =
        contentLengthEntry (bodyOf sampleCalls).length :: scgiEntry ::
          sampleGroups.map Group.entry ∧
      (∀ name, name ≠ contentLengthName ∨
          name ∈ sampleGroups.map (fun group => group.entry.1) →
        parsed.headerValueGet name = (built (fun _ => 7) sampleCalls).headerValueGet name) ∧
      ((bodyOf sampleCalls).length ≠ 1 → parsed.body.getD [] = bodyOf sampleCalls) := by
  have issued : Issued sampleCalls sampleGroups := ⟨rfl, by decide⟩
  have clean : ∀ group ∈ sampleGroups, group.Clean := by
    simp only [Group.Clean]
    decide
  exact round_trip (fun _ => 7) issued clean (by decide +kernel)

/-- The bytes of a frame whose length has the sign bit of an `int` set are not parsed. -/
theorem parse_frame_negative (items : List Entry) (body : List UInt8)
    (signed : 2 ^ 31 ≤ (encode items).length % 2 ^ 32) : parse (frame items ++ body) = none := by
  obtain ⟨digits, negative⟩ := Decimal.format_negative signed
  have shape : frame items ++ body = 45 :: (digits ++ 58 :: (encode items ++ [44]) ++ body) := by
    rw [frame, negative, List.cons_append, List.cons_append]
  rw [parse, parseRun, shape]
  generalize digits ++ 58 :: (encode items ++ [44]) ++ body = rest
  have positive : (2 : Nat) ^ 31 = (2 ^ 31 - 1) + 1 := by decide
  have minus : (parseByte (45 :: rest) 0 45 (parseStart (45 :: rest))).state = .invalid := rfl
  split
  · rfl
  · rw [positive, List.take_succ_cons, parseBytes, parseBytes_stopped _ _ _ _ (Or.inr minus), minus]
    rfl

/-- A header value of `2 ^ 31` bytes makes the wire bytes unreadable. -/
theorem parse_long_value (junk : Nat → UInt8) (value : List UInt8)
    (sized : value.length = 2 ^ 31) :
    parse (built junk [.headerAdd (ascii "A") value]).wire = none := by
  have issued : Issued [.headerAdd (ascii "A") value] [.special (ascii "A") value] :=
    ⟨rfl, List.pairwise_singleton _ _⟩
  obtain ⟨made, -⟩ : (built junk [.headerAdd (ascii "A") value]).Built
      [contentLengthEntry 0, scgiEntry, (ascii "A", value)] [scgiEntry, (ascii "A", value)] ∧ _ :=
    built_of_issued junk issued
  have total : (encode [contentLengthEntry 0, scgiEntry, (ascii "A", value)]).length =
      2 ^ 31 + 27 := by
    have front : (encodeEntry (contentLengthEntry 0)).length = 17 := by decide
    have second : (encodeEntry scgiEntry).length = 7 := by decide
    have named : (ascii "A").length = 1 := by decide
    rw [encode_cons, encode_cons, encode_singleton, List.length_append, List.length_append,
      front, second, length_encodeEntry, named, sized]
    omega
  rw [wire, made.block]
  exact parse_frame_negative _ _ (by rw [total]; decide)

/-- Without any call the builder does not find the content length its wire bytes carry; a body
of one byte is lost; and a header value can be too long for the `int` arithmetic of the block
length. -/
theorem round_trip_limits :
    ((parse (built (fun _ => 0) []).wire).map fun parsed =>
        parsed.headerValueGet contentLengthName) = some (some (ascii "0")) ∧
      (built (fun _ => 0) []).headerValueGet contentLengthName = none ∧
      (parse (built (fun _ => 0) [.bodyAdd [65]]).wire).map Scgi.body = some none ∧
      parse (built (fun _ => 0)
        [.headerAdd (ascii "A") (List.replicate (2 ^ 31) 97)]).wire = none := by
  have nothing : Issued [] [] := ⟨rfl, by decide⟩
  have oneByte : Issued [.bodyAdd [65]] [] := ⟨rfl, by decide⟩
  have clean (length : Nat) : Clean [contentLengthEntry length, scgiEntry] :=
    (clean_contentLengthEntry length).append clean_scgiEntry
  refine ⟨?_, ?_, ?_, ?_⟩
  · obtain ⟨made, body⟩ : (built (fun _ => 0) []).Built [contentLengthEntry 0, scgiEntry]
        [scgiEntry] ∧ (built (fun _ => 0) []).body.getD [] = [] :=
      built_of_issued (fun _ => 0) nothing
    obtain ⟨parsed, found, back⟩ := parse_frame _ [] (clean 0) (by decide)
    rw [wire, made.block, body]
    change parse (frame [contentLengthEntry 0, scgiEntry] ++ []) = _ at found
    rw [found, Option.map_some, back.holds.headerValueGet fun item member =>
      (clean 0 item member).2]
    rfl
  · obtain ⟨made, -⟩ := built_of_issued (fun _ => 0) nothing
    rw [made.holds.headerValueGet fun item member => (clean_scgiEntry item member).2]
    rfl
  · obtain ⟨made, body⟩ : (built (fun _ => 0) [.bodyAdd [65]]).Built
        [contentLengthEntry 1, scgiEntry] [scgiEntry] ∧
          (built (fun _ => 0) [.bodyAdd [65]]).body.getD [] = [65] :=
      built_of_issued (fun _ => 0) oneByte
    obtain ⟨parsed, found, back⟩ := parse_frame _ [65] (clean 1) (by decide)
    change parse (frame [contentLengthEntry 1, scgiEntry] ++ [65]) = _ at found
    rw [wire, made.block, body, found, Option.map_some, back.body]
    rfl
  · exact parse_long_value _ _ List.length_replicate

end Scgi
