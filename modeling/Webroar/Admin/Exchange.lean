import Mathlib.Data.List.Nodup
import Webroar.Admin.Codec
import Webroar.Library.Transition
import Webroar.Worker.Environment

/-! # The panel and the head read each other

A response of the head comes to the panel in chunks. Whatever they are, the panel has read it
when its last byte has come and not before, and has got the headers and the body that were
built. A request of the panel has no body, and the parser of the head gets all its headers.
-/

open Scgi (Entry Clean encode encodeEntry frame latest contentLengthName)

namespace RubyScgi

/-! ### Reading headers -/

theorem parse_digits (scgi : RubyScgi) (digits rest : List UInt8)
    (state : scgi.currState = .none) (all : ∀ byte ∈ digits, Decimal.isDigit byte = true) :
    scgi.parse (digits ++ 58 :: rest) =
      parse { scgi with
        tmpHeadersLength := scgi.tmpHeadersLength ++ digits
        headersLength := toI (scgi.tmpHeadersLength ++ digits)
        currState := .headerKey } rest := by
  induction digits generalizing scgi with
  | nil => simp [parse, parseChar, state]
  | cons digit later ih =>
      have first := all digit List.mem_cons_self
      simp only [Decimal.isDigit, Bool.and_eq_true, decide_eq_true_eq] at first
      have notColon : digit ≠ 58 := by
        rintro rfl
        exact absurd first.2 (by decide)
      have inside : (digit < 48 || 57 < digit) = false := by
        simp only [Bool.or_eq_false_iff, decide_eq_false_iff_not, UInt8.not_lt]
        exact first
      have read : scgi.parseChar digit (later ++ 58 :: rest) =
          ({ scgi with tmpHeadersLength := scgi.tmpHeadersLength ++ [digit] }, false) := by
        simp [parseChar, state, notColon, inside]
      rw [List.cons_append, parse, read]
      have next := ih { scgi with tmpHeadersLength := scgi.tmpHeadersLength ++ [digit] } state
        fun byte member => all byte (List.mem_cons_of_mem _ member)
      simp only [List.append_assoc, List.cons_append, List.nil_append] at next
      simpa using next

theorem parse_name (scgi : RubyScgi) (name rest : List UInt8)
    (state : scgi.currState = .headerKey) (plain : (0 : UInt8) ∉ name)
    (whole : (44 : UInt8) ∉ name) :
    scgi.parse (name ++ 0 :: rest) =
      parse { scgi with currKey := scgi.currKey ++ name, currState := .headerVal } rest := by
  induction name generalizing scgi with
  | nil => simp [parse, parseChar, state]
  | cons byte later ih =>
      rw [List.mem_cons, not_or] at plain whole
      have read : scgi.parseChar byte (later ++ 0 :: rest) =
          ({ scgi with currKey := scgi.currKey ++ [byte] }, false) := by
        simp [parseChar, state, Ne.symm plain.1, Ne.symm whole.1]
      rw [List.cons_append, parse, read]
      have next := ih { scgi with currKey := scgi.currKey ++ [byte] } state plain.2 whole.2
      simpa using next

theorem parse_value (scgi : RubyScgi) (value rest : List UInt8)
    (state : scgi.currState = .headerVal) (plain : (0 : UInt8) ∉ value) :
    scgi.parse (value ++ 0 :: rest) =
      parse { scgi.headerAdd scgi.currKey (scgi.currValue ++ value) with
        currKey := []
        currValue := []
        currState := .headerKey } rest := by
  induction value generalizing scgi with
  | nil => simp [parse, parseChar, state]
  | cons byte later ih =>
      rw [List.mem_cons, not_or] at plain
      have read : scgi.parseChar byte (later ++ 0 :: rest) =
          ({ scgi with currValue := scgi.currValue ++ [byte] }, false) := by
        simp [parseChar, state, Ne.symm plain.1]
      rw [List.cons_append, parse, read]
      have next := ih { scgi with currValue := scgi.currValue ++ [byte] } state plain.2
      simpa [headerAdd] using next

/-- The headers `items` have been read, and the next one may come. -/
structure Ready (scgi : RubyScgi) (items : List Entry) : Prop where
  state : scgi.currState = .headerKey
  key : scgi.currKey = []
  value : scgi.currValue = []
  hash : scgi.hash = items
  body : scgi.body = []
  done : scgi.done = false

theorem store_new {key value : List UInt8} {items : List Entry}
    (absent : key ∉ items.map Prod.fst) : store key value items = items ++ [(key, value)] := by
  induction items with
  | nil => rfl
  | cons item rest ih =>
      rw [List.map_cons, List.mem_cons, not_or] at absent
      rw [store, if_neg (Ne.symm absent.1), ih absent.2, List.cons_append]

/-- Headers of different upper-case names are all kept, in order. -/
theorem Ready.parse_encode {scgi : RubyScgi} {known : List Entry} (ready : scgi.Ready known)
    (items : List Entry) (clean : Clean items)
    (distinct : ((known ++ items).map Prod.fst).Nodup)
    (upper : ∀ item ∈ items, upcase item.1 = item.1) :
    ∃ next : RubyScgi, next.Ready (known ++ items) ∧
      ∀ rest, scgi.parse (encode items ++ rest) = next.parse rest := by
  induction items generalizing scgi known with
  | nil => exact ⟨scgi, by rw [List.append_nil]; exact ready, fun _ => rfl⟩
  | cons item later ih =>
      obtain ⟨name, value⟩ := item
      obtain ⟨⟨plain, whole⟩, plainValue⟩ := clean _ List.mem_cons_self
      have named : upcase name = name := upper _ List.mem_cons_self
      have absent : name ∉ known.map Prod.fst := by
        rw [List.map_append, List.nodup_append] at distinct
        exact fun member => distinct.2.2 name member name List.mem_cons_self rfl
      have extended : (known ++ [(name, value)]) ++ later = known ++ (name, value) :: later := by
        rw [List.append_assoc, List.cons_append, List.nil_append]
      obtain ⟨next, nextReady, read⟩ := @ih
        { scgi.headerAdd name value with currKey := [], currValue := [], currState := .headerKey }
        (known ++ [(name, value)])
        ⟨rfl, rfl, rfl, by rw [headerAdd, named, ready.hash, store_new absent], ready.body,
          ready.done⟩
        (fun item member => clean item (List.mem_cons_of_mem _ member))
        (by rw [extended]; exact distinct)
        (fun item member => upper item (List.mem_cons_of_mem _ member))
      rw [extended] at nextReady
      refine ⟨next, nextReady, fun rest => ?_⟩
      have shape : encode ((name, value) :: later) ++ rest =
          name ++ 0 :: (value ++ 0 :: (encode later ++ rest)) := by
        simp [Scgi.encode_cons, encodeEntry]
      rw [shape, parse_name scgi name _ ready.state plain whole, ready.key, parse_value _ _ _ rfl
        plainValue, ready.value]
      exact read rest

/-- The bytes of a block before its comma. -/
def front (items : List Entry) : List UInt8 :=
  Decimal.format (encode items).length ++ 58 :: encode items

theorem frame_eq (items : List Entry) : frame items = front items ++ [44] := by
  rw [frame, front, List.append_assoc, List.cons_append]

/-- Headers that the panel can read: they have different names in upper case. -/
structure Headers (items : List Entry) : Prop where
  clean : Clean items
  distinct : (items.map Prod.fst).Nodup
  upper : ∀ item ∈ items, upcase item.1 = item.1
  short : (encode items).length < 2 ^ 31

/-- A reply of the head: the first header is the length of the body. -/
structure Reply (items : List Entry) (body : List UInt8) : Prop extends Headers items where
  announced : ∃ others, items = (contentLengthName, Decimal.ofNat body.length) :: others

variable {items : List Entry} {body : List UInt8}

theorem Headers.parse_front (reply : Headers items) :
    ∃ ready : RubyScgi, ready.Ready items ∧
      ∀ rest, new.parse (front items ++ rest) = ready.parse rest := by
  have digits : ∀ byte ∈ Decimal.format (encode items).length, Decimal.isDigit byte = true := by
    rw [Decimal.format_of_lt reply.short]
    exact fun byte member => Decimal.isDigit_of_mem_ofNat member
  have begun : Ready { new with
      tmpHeadersLength := [] ++ Decimal.format (encode items).length
      headersLength := toI ([] ++ Decimal.format (encode items).length)
      currState := .headerKey } [] := ⟨rfl, rfl, rfl, rfl, rfl, rfl⟩
  obtain ⟨ready, holds, read⟩ := begun.parse_encode items reply.clean reply.distinct reply.upper
  refine ⟨ready, holds, fun rest => ?_⟩
  rw [front, List.append_assoc, List.cons_append, parse_digits new _ _ rfl digits]
  exact read rest

/-- The length of the body is known behind the headers. -/
theorem Reply.contentLength (reply : Reply items body) {scgi : RubyScgi}
    (hash : scgi.hash = items) : scgi.contentLength = body.length := by
  have named : upcase contentLengthName = contentLengthName := by decide
  have found : (items.find? fun item => item.1 = contentLengthName) =
      some (contentLengthName, Decimal.ofNat body.length) := by
    obtain ⟨others, shape⟩ := reply.announced
    rw [shape]
    exact List.find?_cons_of_pos (decide_eq_true rfl)
  rw [RubyScgi.contentLength, header, hash, named, found, Option.map_some, Option.map_some,
    Option.getD_some, toI_ofNat]

/-! ### Chunks -/

/-- What the panel has after `count` bytes of a reply. -/
structure Fed (items : List Entry) (body : List UInt8) (count : Nat) (scgi : RubyScgi) :
    Prop where
  early : count < (frame items).length → scgi = new.parse ((frame items).take count)
  hash : (frame items).length ≤ count → scgi.hash = items
  content : (frame items).length ≤ count →
    scgi.body = body.take (count - (frame items).length)
  waits : (frame items).length ≤ count → count < (frame items).length + body.length →
    scgi.currState = .body ∧ scgi.done = false
  ends : (frame items).length + body.length ≤ count → scgi.currState = .done ∧ scgi.done = true

/-- The bytes before the comma do not complete the headers. -/
theorem Headers.early (reply : Headers items) {count : Nat}
    (missing : count < (frame items).length) :
    ¬ Past (new.parse ((frame items).take count)).currState := by
  obtain ⟨ready, holds, read⟩ := reply.parse_front
  have inside : count ≤ (front items).length := by
    rw [frame_eq, List.length_append, List.length_cons, List.length_nil] at missing
    omega
  have all : new.parse (front items) = ready := by
    have whole := read []
    rw [List.append_nil] at whole
    exact whole
  rw [frame_eq, List.take_append_of_le_length inside]
  intro past
  have later := past_append new _ ((front items).drop count) past
  rw [List.take_append_drop, all, holds.state] at later
  rcases later with state | state
  · cases state
  · cases state

/-- Nothing is done before the comma. -/
theorem Headers.not_done (reply : Headers items) {count : Nat}
    (missing : count < (frame items).length) :
    (new.parse ((frame items).take count)).done = false := by
  rw [Bool.eq_false_iff]
  intro done
  have never : new.done = true → new.currState = .done := fun done => absurd done (by decide)
  exact reply.early missing (Or.inr (done_parse new _ never done))

/-- With `count` bytes of the body the panel waits for more or is done. -/
theorem Fed.behind {count : Nat} {scgi : RubyScgi} (hash : scgi.hash = items)
    (content : scgi.body = body.take count)
    (state : if ((body.take count).length : Int) = body.length then
        scgi.currState = .done ∧ scgi.done = true
      else
        scgi.currState = .body ∧ scgi.done = false) :
    Fed items body ((frame items).length + count) scgi := by
  have taken : (body.take count).length = min count body.length := List.length_take
  refine ⟨fun early => absurd early (by omega), fun _ => hash, fun _ => ?_, fun _ partly => ?_,
    fun whole => ?_⟩
  · rw [Nat.add_sub_cancel_left]
    exact content
  · rw [if_neg (by omega)] at state
    exact state
  · rw [if_pos (by omega)] at state
    exact state

/-- The comma, with a piece of the body behind it. -/
theorem Reply.parse_frame (reply : Reply items body) (count : Nat) :
    Fed items body ((frame items).length + count)
      (new.parse (frame items ++ body.take count)) := by
  obtain ⟨ready, holds, read⟩ := reply.parse_front
  have length := reply.contentLength holds.hash
  have comma : new.parse (frame items ++ body.take count) =
      ready.parse (44 :: body.take count) := by
    rw [frame_eq, List.append_assoc]
    exact read _
  have notNul : ¬ (44 : UInt8) = 0 := by decide
  rw [comma, parse]
  by_cases none : ready.contentLength = 0
  · obtain rfl : body = [] := List.eq_nil_of_length_eq_zero (by omega)
    rw [List.take_nil]
    simp only [parseChar, holds.state, notNul, none, ↓reduceIte, parse, Bool.false_eq_true]
    apply Fed.behind
    · exact holds.hash
    · rw [List.take_nil]
      exact holds.body
    · rw [List.take_nil, if_pos rfl]
      exact ⟨rfl, rfl⟩
  · have same : ({ ready with currState := RubyState.body }.bodyAdd
        (body.take count)).contentLength = (body.length : Int) := length
    have content : ready.body ++ body.take count = body.take count := by
      rw [holds.body, List.nil_append]
    simp only [parseChar, holds.state, notNul, none, ↓reduceIte, same]
    simp only [bodyAdd, content]
    by_cases whole : ((body.take count).length : Int) = body.length
    · simp only [whole, ↓reduceIte]
      apply Fed.behind
      · exact holds.hash
      · rfl
      · rw [if_pos whole]
        exact ⟨rfl, rfl⟩
    · simp only [whole, ↓reduceIte]
      apply Fed.behind
      · exact holds.hash
      · rfl
      · rw [if_neg whole]
        exact ⟨rfl, holds.done⟩

/-- The next chunk. -/
theorem Fed.next (reply : Reply items body) {count : Nat} {scgi : RubyScgi}
    (fed : Fed items body count scgi) {chunk more : List UInt8}
    (next : (frame items ++ body).drop count = chunk ++ more) :
    Fed items body (count + chunk.length) (scgi.parse chunk) := by
  have total : (frame items ++ body).length = (frame items).length + body.length :=
    List.length_append
  have piece := Stream.take_piece next
  have left := congrArg List.length next
  rw [List.length_drop, List.length_append, List.length_append] at left
  rcases lt_or_ge count (frame items).length with early | behind
  · have start := fed.early early
    have inside : (frame items ++ body).take count = (frame items).take count :=
      List.take_append_of_le_length (Nat.le_of_lt early)
    have joined :
        scgi.parse chunk = new.parse ((frame items ++ body).take (count + chunk.length)) := by
      rw [piece, inside, parse_append new _ _ (reply.early early), start]
    rw [joined]
    rcases lt_or_ge (count + chunk.length) (frame items).length with still | reached
    · rw [List.take_append_of_le_length (Nat.le_of_lt still)]
      exact ⟨fun _ => rfl, fun late => absurd late (by omega), fun late => absurd late (by omega),
        fun late => absurd late (by omega), fun late => absurd late (by omega)⟩
    · obtain ⟨extra, exact⟩ := Nat.exists_eq_add_of_le reached
      rw [exact, List.take_length_add_append]
      exact reply.parse_frame extra
  · obtain ⟨extra, rfl⟩ := Nat.exists_eq_add_of_le behind
    cases chunk with
    | nil =>
        rw [List.length_nil, Nat.add_zero, RubyScgi.parse]
        exact fed
    | cons byte rest =>
        rw [List.length_cons] at left
        obtain ⟨state, open'⟩ := fed.waits behind (by omega)
        have content := fed.content behind
        rw [Nat.add_sub_cancel_left] at content
        have length : (scgi.bodyAdd (byte :: rest)).contentLength = body.length :=
          reply.contentLength (fed.hash behind)
        have bytes : scgi.body ++ byte :: rest = body.take (extra + (byte :: rest).length) := by
          rw [List.drop_append, List.drop_of_length_le (by omega), List.nil_append,
            Nat.add_sub_cancel_left] at next
          rw [content, Stream.take_piece next]
        rw [parse, Nat.add_assoc]
        simp only [parseChar, state, length]
        simp only [bodyAdd, bytes]
        by_cases whole : ((body.take (extra + (byte :: rest).length)).length : Int) = body.length
        · simp only [whole, ↓reduceIte]
          apply Fed.behind
          · exact fed.hash behind
          · rfl
          · rw [if_pos whole]
            exact ⟨rfl, rfl⟩
        · simp only [whole, ↓reduceIte]
          apply Fed.behind
          · exact fed.hash behind
          · rfl
          · rw [if_neg whole]
            exact ⟨state, open'⟩

/-- Chunk after chunk. -/
theorem Fed.feed (reply : Reply items body) {count : Nat} {scgi : RubyScgi}
    (fed : Fed items body count scgi) (chunks : List (List UInt8)) {more : List UInt8}
    (next : (frame items ++ body).drop count = chunks.flatten ++ more) :
    Fed items body (count + chunks.flatten.length) (scgi.feed chunks) := by
  induction chunks generalizing count scgi with
  | nil =>
      rw [List.flatten_nil, List.length_nil, Nat.add_zero]
      exact fed
  | cons chunk later ih =>
      rw [List.flatten_cons, List.append_assoc] at next
      have behind := congrArg (List.drop chunk.length) next
      rw [List.drop_drop, List.drop_left] at behind
      have last := ih (fed.next reply next) behind
      rw [List.flatten_cons, List.length_append, ← Nat.add_assoc]
      exact last

/-- Some chunks of a reply are all of it exactly when `parsing_done?` says so, and then the
headers and the body are those of the reply. -/
theorem Reply.feed (reply : Reply items body) (chunks : List (List UInt8)) {more : List UInt8}
    (cut : frame items ++ body = chunks.flatten ++ more) :
    ((new.feed chunks).parsingDone = true ↔ more = []) ∧
      (more = [] → (new.feed chunks).hash = items ∧ (new.feed chunks).body = body) := by
  have positive : 0 < (frame items).length := by
    rw [Scgi.length_frame]
    omega
  have start : Fed items body 0 new :=
    ⟨fun _ => rfl, fun late => absurd late (by omega), fun late => absurd late (by omega),
      fun late => absurd late (by omega), fun late => absurd late (by omega)⟩
  have fed := start.feed reply chunks cut
  rw [Nat.zero_add] at fed
  have total := congrArg List.length cut
  rw [List.length_append, List.length_append] at total
  cases more with
  | nil =>
      rw [List.length_nil, Nat.add_zero] at total
      have behind : (frame items).length ≤ chunks.flatten.length := by omega
      refine ⟨iff_of_true (fed.ends (Nat.le_of_eq total)).2 rfl, fun _ => ⟨fed.hash behind, ?_⟩⟩
      rw [fed.content behind, List.take_of_length_le]
      omega
  | cons byte rest =>
      rw [List.length_cons] at total
      refine ⟨iff_of_false ?_ (List.cons_ne_nil _ _), fun none => absurd none (List.cons_ne_nil _ _)⟩
      rw [Bool.not_eq_true]
      rcases lt_or_ge chunks.flatten.length (frame items).length with early | behind
      · have there := fed.early early
        rw [parsingDone, there]
        exact reply.not_done early
      · exact (fed.waits behind (by omega)).2

/-! ### Requests of the panel -/

theorem foldl_encode (items : List Entry) (text : List UInt8) :
    items.foldl (fun request item => request ++ encodeEntry item) text = text ++ encode items := by
  induction items generalizing text with
  | nil => rw [List.foldl_nil, Scgi.encode_nil, List.append_nil]
  | cons item rest ih => rw [List.foldl_cons, ih, Scgi.encode_cons, List.append_assoc]

/-- What `build` makes of an object without a body; a block whose length fits an `int` looks like
one that the head has built. -/
theorem build_request {scgi : RubyScgi} {request : List UInt8} (empty : scgi.body = [])
    (made : scgi.build.request = some request) (short : request.length < 2 ^ 31) :
    request = frame ((contentLengthName, ascii "0") :: (ascii "SCGI", ascii "0") :: scgi.hash) := by
  have text : encodeEntry (contentLengthName, ascii "0") ++ encodeEntry (ascii "SCGI", ascii "0") ++
      encode scgi.hash =
        encode ((contentLengthName, ascii "0") :: (ascii "SCGI", ascii "0") :: scgi.hash) := by
    rw [Scgi.encode_cons, Scgi.encode_cons, List.append_assoc]
  unfold build at made
  simp only [empty, ↓reduceIte, foldl_encode, text, Option.some.injEq] at made
  have counted := congrArg List.length made
  rw [List.length_append, List.length_append, List.length_cons] at counted
  rw [← made, frame, Decimal.format_of_lt (by omega), List.append_assoc, List.cons_append]

theorem toUpper_ne {byte : UInt8} (plain : byte ≠ 0) (whole : byte ≠ 44) :
    Scgi.toUpper byte ≠ 0 ∧ Scgi.toUpper byte ≠ 44 := by
  have all : ∀ n < 256, UInt8.ofNat n ≠ 0 → UInt8.ofNat n ≠ 44 →
      Scgi.toUpper (UInt8.ofNat n) ≠ 0 ∧ Scgi.toUpper (UInt8.ofNat n) ≠ 44 := by decide +kernel
  have named : UInt8.ofNat byte.toNat = byte := UInt8.ofNat_toNat
  rw [← named] at plain whole ⊢
  exact all byte.toNat byte.toNat_lt plain whole

theorem upcase_plain {name : List UInt8} (plain : (0 : UInt8) ∉ name) (whole : (44 : UInt8) ∉ name) :
    (0 : UInt8) ∉ upcase name ∧ (44 : UInt8) ∉ upcase name := by
  have mapped : ∀ byte ∈ name, Scgi.toUpper byte ≠ 0 ∧ Scgi.toUpper byte ≠ 44 := by
    intro byte member
    apply toUpper_ne
    · rintro rfl
      exact plain member
    · rintro rfl
      exact whole member
  constructor
  · intro member
    obtain ⟨byte, inside, equal⟩ := List.mem_map.mp member
    exact (mapped byte inside).1 equal
  · intro member
    obtain ⟨byte, inside, equal⟩ := List.mem_map.mp member
    exact (mapped byte inside).2 equal

theorem mem_store {key value : List UInt8} {items : List Entry} {item : Entry}
    (member : item ∈ store key value items) : item = (key, value) ∨ item ∈ items := by
  induction items with
  | nil => exact Or.inl (List.mem_singleton.mp member)
  | cons first rest ih =>
      rw [store] at member
      split at member
      · rcases List.mem_cons.mp member with same | later
        · exact Or.inl same
        · exact Or.inr (List.mem_cons_of_mem _ later)
      · rcases List.mem_cons.mp member with same | later
        · exact Or.inr (List.mem_cons.mpr (Or.inl same))
        · exact (ih later).imp_right (List.mem_cons_of_mem _)

theorem nodup_store {key value : List UInt8} {items : List Entry}
    (distinct : (items.map Prod.fst).Nodup) :
    ((store key value items).map Prod.fst).Nodup := by
  induction items with
  | nil => exact List.nodup_cons.mpr ⟨List.not_mem_nil, List.nodup_nil⟩
  | cons first rest ih =>
      rw [List.map_cons, List.nodup_cons] at distinct
      rw [store]
      split
      · next same =>
          rw [List.map_cons, List.nodup_cons]
          subst same
          exact distinct
      · next other =>
          rw [List.map_cons, List.nodup_cons]
          refine ⟨fun member => ?_, ih distinct.2⟩
          obtain ⟨item, inside, equal⟩ := List.mem_map.mp member
          rcases mem_store inside with rfl | old
          · exact other equal.symm
          · exact distinct.1 (List.mem_map.mpr ⟨item, old, equal⟩)

/-- The object after some headers were added. -/
def added (adds : List Entry) : RubyScgi :=
  adds.foldl (fun scgi item => scgi.headerAdd item.1 item.2) new

/-- The keys of a hash are different, and what was added clean is clean. -/
theorem added_spec {adds : List Entry} (clean : Clean adds) :
    (added adds).body = [] ∧ Clean (added adds).hash ∧
      ((added adds).hash.map Prod.fst).Nodup := by
  unfold added
  have all : ∀ scgi : RubyScgi, scgi.body = [] ∧ Clean scgi.hash ∧ (scgi.hash.map Prod.fst).Nodup →
      (adds.foldl (fun scgi item => scgi.headerAdd item.1 item.2) scgi).body = [] ∧
        Clean (adds.foldl (fun scgi item => scgi.headerAdd item.1 item.2) scgi).hash ∧
        ((adds.foldl (fun scgi item => scgi.headerAdd item.1 item.2) scgi).hash.map
          Prod.fst).Nodup := by
    induction adds with
    | nil => exact fun scgi holds => holds
    | cons item rest ih =>
        intro scgi ⟨empty, cleaned, distinct⟩
        obtain ⟨⟨plain, whole⟩, plainValue⟩ := clean _ List.mem_cons_self
        apply ih (fun later member => clean later (List.mem_cons_of_mem _ member))
        refine ⟨empty, fun stored member => ?_, nodup_store distinct⟩
        rcases mem_store member with rfl | old
        · exact ⟨upcase_plain plain whole, plainValue⟩
        · exact cleaned stored old
  exact all new ⟨rfl, fun _ member => absurd member List.not_mem_nil, List.nodup_nil⟩

/-- The parser of the head reads a request of the panel. -/
theorem request_parsed {adds : List Entry} (clean : Clean adds) {request : List UInt8}
    (made : (added adds).build.request = some request) (short : request.length < 2 ^ 31) :
    ∃ parsed, Scgi.parse request = some parsed ∧
      parsed.entries =
        (contentLengthName, ascii "0") :: (ascii "SCGI", ascii "0") :: (added adds).hash ∧
      ∀ name value, (added adds).header name = some value →
        parsed.headerValueGet (upcase name) = some value := by
  obtain ⟨empty, cleaned, distinct⟩ := added_spec clean
  have front : Clean [(contentLengthName, ascii "0"), (ascii "SCGI", ascii "0")] := by decide
  have all : Clean ((contentLengthName, ascii "0") :: (ascii "SCGI", ascii "0") ::
      (added adds).hash) := front.append cleaned
  have shape := build_request empty made short
  generalize whole : (contentLengthName, ascii "0") :: (ascii "SCGI", ascii "0") ::
    (added adds).hash = items at shape all ⊢
  rw [shape] at short ⊢
  obtain ⟨parsed, read, held⟩ := Scgi.parse_frame items [] all short
  rw [List.append_nil] at read
  refine ⟨parsed, read, held.holds.entries, ?_⟩
  intro name value found
  rw [held.holds.headerValueGet fun item member => (all item member).2, ← whole]
  have once : ((added adds).hash.map Prod.fst).count (upcase name) ≤ 1 :=
    List.nodup_iff_count_le_one.mp distinct _
  have stored : upcase name ∈ (added adds).hash.map Prod.fst := by
    by_contra absent
    have missing := Scgi.earliest_of_not_mem absent
    exact absurd (missing.symm.trans found) (by simp)
  rw [Scgi.latest_cons _ _ _ (Or.inr (List.mem_cons_of_mem _ stored)),
    Scgi.latest_cons _ _ _ (Or.inr stored), ← Scgi.earliest_eq_latest once]
  exact found

/-- What the head gets when the panel asks it to add, restart or delete an application. -/
theorem control_parsed {name method request : List UInt8} (plainName : (0 : UInt8) ∉ name)
    (plainMethod : (0 : UInt8) ∉ method)
    (made : (sendControl (control name) method).request = some request)
    (short : request.length < 2 ^ 31) :
    ∃ parsed, Scgi.parse request = some parsed ∧
      parsed.entries = [(contentLengthName, ascii "0"), (ascii "SCGI", ascii "0"),
        (ascii "COMPONENT", ascii "APPLICATION"), (ascii "APP_NAME", name),
        (ascii "METHOD", method)] := by
  have clean : Clean [(ascii "component", ascii "APPLICATION"), (ascii "app_name", name),
      (ascii "method", method)] := by
    have first : Clean [(ascii "component", ascii "APPLICATION")] := by decide
    have names : ((0 : UInt8) ∉ ascii "app_name" ∧ (44 : UInt8) ∉ ascii "app_name") ∧
        (0 : UInt8) ∉ ascii "method" ∧ (44 : UInt8) ∉ ascii "method" := by decide
    apply first.append
    intro item member
    rcases List.mem_cons.mp member with rfl | last
    · exact ⟨names.1, plainName⟩
    · obtain rfl := List.mem_singleton.mp last
      exact ⟨names.2, plainMethod⟩
  obtain ⟨parsed, read, entries, -⟩ := request_parsed clean made short
  exact ⟨parsed, read, entries⟩

/-! ### Both directions -/

/-- The panel has read a reply of the head when its last byte has come and not before, whatever
the chunks, and the head reads the requests of the panel, as long as the lengths can be printed
and counted with an `int`. -/
theorem codecs_agree (junk : Nat → UInt8) :
    (∀ (calls : List Scgi.Call) (groups : List Scgi.Group), Scgi.Issued calls groups →
      (∀ group ∈ groups, group.Clean) →
      ((Scgi.contentLengthEntry (Scgi.bodyOf calls).length :: Scgi.scgiEntry ::
        groups.map Scgi.Group.entry).map Prod.fst).Nodup →
      (∀ group ∈ groups, upcase group.entry.1 = group.entry.1) →
      (Scgi.built junk calls).block.length < 2 ^ 31 → (Scgi.bodyOf calls).length < 2 ^ 31 →
      ∀ (chunks : List (List UInt8)) (more : List UInt8),
        (Scgi.built junk calls).wire = chunks.flatten ++ more →
        ((new.feed chunks).parsingDone = true ↔ more = []) ∧
          (more = [] →
            (new.feed chunks).hash = Scgi.contentLengthEntry (Scgi.bodyOf calls).length ::
              Scgi.scgiEntry :: groups.map Scgi.Group.entry ∧
            (new.feed chunks).body = Scgi.bodyOf calls)) ∧
    (∀ (adds : List Entry) (request : List UInt8), Clean adds →
      (added adds).build.request = some request → request.length < 2 ^ 31 →
      ∃ parsed, Scgi.parse request = some parsed ∧
        parsed.entries =
          (contentLengthName, ascii "0") :: (ascii "SCGI", ascii "0") :: (added adds).hash ∧
        ∀ name value, (added adds).header name = some value →
          parsed.headerValueGet (upcase name) = some value) ∧
    ∀ name method request : List UInt8, (0 : UInt8) ∉ name → (0 : UInt8) ∉ method →
      (sendControl (control name) method).request = some request → request.length < 2 ^ 31 →
      ∃ parsed, Scgi.parse request = some parsed ∧
        parsed.entries = [(contentLengthName, ascii "0"), (ascii "SCGI", ascii "0"),
          (ascii "COMPONENT", ascii "APPLICATION"), (ascii "APP_NAME", name),
          (ascii "METHOD", method)] := by
  refine ⟨?_, fun adds request clean made short => request_parsed clean made short,
    fun name method request plain plainMethod made short =>
      control_parsed plain plainMethod made short⟩
  intro calls groups issued clean distinct upper block body chunks more cut
  obtain ⟨made, whole⟩ := Scgi.built_of_issued junk issued
  have measured := Scgi.length_frame (Scgi.contentLengthEntry (Scgi.bodyOf calls).length ::
    Scgi.scgiEntry :: groups.map Scgi.Group.entry)
  rw [made.block] at block
  have reply : Reply (Scgi.contentLengthEntry (Scgi.bodyOf calls).length :: Scgi.scgiEntry ::
      groups.map Scgi.Group.entry) (Scgi.bodyOf calls) :=
    { clean := Scgi.clean_entries clean _
      distinct := distinct
      upper := by
        intro item member
        rcases List.mem_cons.mp member with rfl | member
        · exact (by decide : upcase contentLengthName = contentLengthName)
        · rcases List.mem_cons.mp member with rfl | member
          · decide
          · obtain ⟨group, inside, rfl⟩ := List.mem_map.mp member
            exact upper group inside
      short := by omega
      announced := ⟨_, by rw [Scgi.contentLengthEntry, Decimal.format_of_lt body]⟩ }
  apply reply.feed chunks
  rw [← cut, Scgi.wire, made.block, whole]

/-- A reply with a header and a body. -/
def sampleReply : List Scgi.Call :=
  [.headerAdd (ascii "STATUS") (ascii "ERROR"), .bodyAdd (ascii "no")]

theorem codecs_agree_sample :
    (new.feed [(Scgi.built (fun _ => 7) sampleReply).wire]).parsingDone = true ∧
      ∃ request parsed, (sendControl (control (ascii "a")) (ascii "ADD")).request = some request ∧
        Scgi.parse request = some parsed ∧
        parsed.entries = [(contentLengthName, ascii "0"), (ascii "SCGI", ascii "0"),
          (ascii "COMPONENT", ascii "APPLICATION"), (ascii "APP_NAME", ascii "a"),
          (ascii "METHOD", ascii "ADD")] := by
  obtain ⟨replies, -, controls⟩ := codecs_agree fun _ => 7
  have issued : Scgi.Issued sampleReply [.special (ascii "STATUS") (ascii "ERROR")] :=
    ⟨rfl, by decide⟩
  have clean : ∀ group ∈ [Scgi.Group.special (ascii "STATUS") (ascii "ERROR")], group.Clean := by
    simp only [Scgi.Group.Clean]
    decide
  have cut : (Scgi.built (fun _ => 7) sampleReply).wire =
      [(Scgi.built (fun _ => 7) sampleReply).wire].flatten ++ [] := by
    rw [List.flatten_singleton, List.append_nil]
  obtain ⟨parsed, read, entries⟩ :=
    controls (ascii "a") (ascii "ADD") _ (by decide) (by decide) rfl (by decide +kernel)
  refine ⟨?_, _, parsed, rfl, read, entries⟩
  exact (replies sampleReply _ issued clean (by decide) (by decide) (by decide +kernel)
    (by decide) _ _ cut).1.mpr rfl

/-- A negative length is never reached. -/
theorem Headers.never_done (reply : Headers items) {value : List UInt8} {others : List Entry}
    (announced : items = (contentLengthName, value) :: others) (negative : toI value < 0)
    (text : List UInt8) : (new.parse (frame items ++ text)).done = false := by
  obtain ⟨ready, holds, read⟩ := reply.parse_front
  have comma : new.parse (frame items ++ text) = ready.parse (44 :: text) := by
    rw [frame_eq, List.append_assoc]
    exact read _
  have named : upcase contentLengthName = contentLengthName := by decide
  have found : (items.find? fun item => item.1 = contentLengthName) =
      some (contentLengthName, value) := by
    rw [announced]
    exact List.find?_cons_of_pos (decide_eq_true rfl)
  have length : ready.contentLength = toI value := by
    rw [contentLength, header, holds.hash, named, found, Option.map_some, Option.map_some,
      Option.getD_some]
  have same : ({ ready with currState := RubyState.body }.bodyAdd text).contentLength =
      toI value := length
  have notNul : ¬ (44 : UInt8) = 0 := by decide
  have some : ¬ toI value = 0 := by omega
  have less : ¬ (({ ready with currState := RubyState.body }.bodyAdd text).body.length : Int) =
      toI value := by omega
  rw [comma, parse]
  simp only [parseChar, holds.state, notNul, length, some, less, ↓reduceIte, same]
  exact holds.done

/-- The length of a body of `2 ^ 31` bytes is printed as a negative number. -/
theorem long_body (junk : Nat → UInt8) {body : List UInt8} (sized : body.length = 2 ^ 31) :
    (new.feed [(Scgi.built junk [.bodyAdd body]).wire]).parsingDone = false := by
  have issued : Scgi.Issued [.bodyAdd body] [] := ⟨rfl, List.pairwise_singleton _ _⟩
  obtain ⟨made, whole⟩ := Scgi.built_of_issued junk issued
  have bytes : Scgi.bodyOf [.bodyAdd body] = body := by
    rw [Scgi.bodyOf, List.flatMap_singleton, Scgi.Call.body]
  have printed : Decimal.format (2 ^ 31) = ascii "-2147483648" := by decide +kernel
  have front : (encode [(contentLengthName, ascii "-2147483648"), Scgi.scgiEntry]).length = 34 := by
    decide
  rw [bytes, sized, Scgi.contentLengthEntry, printed] at made
  have reply : Headers [(contentLengthName, ascii "-2147483648"), Scgi.scgiEntry] :=
    ⟨by decide, by decide, by decide, by rw [front]; decide⟩
  have never := reply.never_done rfl (by decide) body
  rw [feed, List.foldl_cons, List.foldl_nil, Scgi.wire, made.block, whole, bytes]
  exact never

/-- All of a reply with a body of `2 ^ 31` bytes has come, and the panel still waits. -/
theorem codecs_disagree :
    (new.feed [(Scgi.built (fun _ => 0)
      [.bodyAdd (List.replicate (2 ^ 31) 97)]).wire]).parsingDone = false :=
  long_body _ List.length_replicate

end RubyScgi
