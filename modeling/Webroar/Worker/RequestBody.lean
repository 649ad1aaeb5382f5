import Webroar.Library.StringIo
import Webroar.Worker.Input

/-! # The body as the application reads it

`RequestBody` is the input stream an application is given. It reads on from where the request is
until a line is asked for; then it takes what is left of the body into a `StringIO` and passes
every later call to that. Before, a rewind does nothing, and afterwards it goes back to where the
`StringIO` starts. So it is the stream over the whole body as long as no rewind is to bring back
bytes that were taken from the request itself.

Ruby's own part is that of its documentation: a length that is no `int` is refused by the
conversion, a new string buffer has room for 128 bytes or what was asked for, and `gets` reads up
to a newline.
-/

open HttpReq (Readable httpReqBodyRead)

/-- The object an application reads the body from. -/
structure RequestBody where
  client : HttpReq.Input
  io : Option StringIo

namespace RequestBody

/-- Whether Ruby converts a length to an `int`. -/
def IsInt (size : Int) : Prop := -2 ^ 31 ≤ size ∧ size < 2 ^ 31

instance (size : Int) : Decidable (IsInt size) := inferInstanceAs (Decidable (_ ∧ _))

/-- Read a piece of the body from the request. Nothing is answered when the piece does not fit
into the string it is written to. -/
def readRequest (client : HttpReq.Input) (size : Int) : Option StreamAnswer × HttpReq.Input :=
  if IsInt size then
    let (string, client) := httpReqBodyRead (Decimal.toSize size) client
    if max 128 size.toNat < string.length then (none, client)
    else if string = [] then (some .nil, client)
    else (some (.string string), client)
  else
    (some .raised, client)

/-- Read chunks until there is none, `fuel` at most. -/
def readChunks : Nat → HttpReq.Input → Option (List UInt8 × HttpReq.Input)
  | 0, _ => none
  | fuel + 1, client =>
      match readRequest client (10 * 1024) with
      | (some (.string chunk), client) =>
          (readChunks fuel client).map fun (rest, client) => (chunk ++ rest, client)
      | (some _, client) => some ([], client)
      | (none, _) => none

/-- All that is left of the body; each chunk has a byte of it. -/
def readRest (client : HttpReq.Input) : Option (List UInt8 × HttpReq.Input) :=
  readChunks (client.req.reqLen + 1) client

/-- The `StringIO` over what is left of the body when it is first asked for. -/
def openIo (body : RequestBody) : Option (StringIo × HttpReq.Input) :=
  match body.io with
  | some io => some (io, body.client)
  | none => (readRest body.client).map fun (rest, client) => (⟨rest, 0⟩, client)

/-- Pass a call to the `StringIO`. -/
def callIo (body : RequestBody) (next : StreamCall) : Option StreamAnswer × RequestBody :=
  match body.openIo with
  | some (io, client) => (some (io.call next).1, ⟨client, some (io.call next).2⟩)
  | none => (none, body)

/-- A call on the body. -/
def call (body : RequestBody) : StreamCall → Option StreamAnswer × RequestBody
  | .read len =>
      match body.io, len with
      | some _, len => body.callIo (.read len)
      | none, none =>
          match readRest body.client with
          | some (rest, client) => (some (.string rest), ⟨client, none⟩)
          | none => (none, body)
      | none, some len =>
          let (answer, client) := readRequest body.client len
          (answer, ⟨client, none⟩)
  | .gets => body.callIo .gets
  | .each => body.callIo .each
  | .rewind =>
      match body.io with
      | some _ => body.callIo .rewind
      | none => (some .done, body)

/-- What some calls answer one after the other. -/
def run (body : RequestBody) : List StreamCall → List (Option StreamAnswer)
  | [] => []
  | next :: rest => (body.call next).1 :: (body.call next).2.run rest

/-- A call that asks for bytes of the body. -/
def Asks : StreamCall → Prop
  | .read none | .gets | .each => True
  | .read (some len) => 0 < len ∧ len < 2 ^ 63
  | .rewind => False

/-- A call that is passed to the `StringIO` from the beginning on. -/
def Opens : StreamCall → Prop
  | .gets | .each => True
  | .read _ | .rewind => False

/-- How far the calls read in the body itself: the position, and whether they go on there. -/
structure Reach where
  position : Nat
  direct : Bool

/-- How far a call reads in a body of some length. -/
def Reach.next (length : Nat) (reach : Reach) : StreamCall → Reach
  | .read none => if reach.direct then { reach with position := length } else reach
  | .read (some len) =>
      if reach.direct ∧ IsInt len then
        { reach with position := min length (reach.position + len.toNat) }
      else
        reach
  | .gets | .each => { reach with direct := false }
  | .rewind => reach

/-- The number of bytes that some calls take from the request before a line is asked for. -/
def taken (length : Nat) (calls : List StreamCall) : Nat :=
  (calls.foldl (Reach.next length) ⟨0, true⟩).position

/-- A length for which a read from the request and a read from a `StringIO` are always different:
negative, or too large for one of the two only. -/
def Odd (len : Int) : Prop := IsInt len ∧ len < 0 ∨ 2 ^ 31 ≤ len ∧ len < 2 ^ 63

/-! ### Reading from the request -/

variable {client : HttpReq.Input} {body : List UInt8}

theorem toSize_of_nonneg {len : Int} (int : IsInt len) (positive : 0 ≤ len) :
    Decimal.toSize len = len.toNat := by
  obtain ⟨-, small⟩ := int
  unfold Decimal.toSize
  omega

/-- A read of a length that is not negative gives the next bytes, or nil when there are none. -/
theorem readRequest_of_nonneg (readable : Readable client body) {len : Int} (int : IsInt len)
    (positive : 0 ≤ len) :
    (readRequest client len).1 =
        some (if (body.drop client.req.bytesRead).take len.toNat = [] then .nil
          else .string ((body.drop client.req.bytesRead).take len.toNat)) ∧
      Readable (readRequest client len).2 body ∧
      (readRequest client len).2.req.bytesRead =
        min body.length (client.req.bytesRead + len.toNat) := by
  obtain ⟨given, kept, moved⟩ := readable.read len.toNat
  have within := readable.within
  have reached : client.req.bytesRead + min len.toNat (body.length - client.req.bytesRead) =
      min body.length (client.req.bytesRead + len.toNat) := by omega
  have fits : ¬ max 128 len.toNat < ((body.drop client.req.bytesRead).take len.toNat).length := by
    rw [List.length_take]
    omega
  rw [reached] at moved
  unfold readRequest
  rw [if_pos int, toSize_of_nonneg int positive]
  simp only [given]
  rw [if_neg fits]
  by_cases last : (body.drop client.req.bytesRead).take len.toNat = []
  · rw [if_pos last, if_pos last]
    exact ⟨rfl, kept, moved⟩
  · rw [if_neg last, if_neg last]
    exact ⟨rfl, kept, moved⟩

/-- A read of a negative length is never refused. -/
theorem readRequest_of_neg (client : HttpReq.Input) {len : Int} (int : IsInt len) :
    (readRequest client len).1.map StreamAnswer.bytes ≠ some none := by
  unfold readRequest
  rw [if_pos int]
  simp only
  split
  · exact nofun
  · split
    · exact nofun
    · exact nofun

/-- Chunk by chunk all that is left is read, and the loop ends. -/
theorem readChunks_of_readable (fuel : Nat) (readable : Readable client body)
    (enough : body.length - client.req.bytesRead < fuel) :
    ∃ last, readChunks fuel client = some (body.drop client.req.bytesRead, last) ∧
      Readable last body ∧ last.req.bytesRead = body.length := by
  induction fuel generalizing client with
  | zero => omega
  | succ fuel ih =>
      have int : IsInt (10 * 1024) := by decide
      obtain ⟨given, kept, moved⟩ := readRequest_of_nonneg readable int (by decide)
      have within := readable.within
      have size : Int.toNat (10 * 1024) = 10240 := rfl
      rw [size] at given moved
      unfold readChunks
      generalize readRequest client (10 * 1024) = reply at given kept moved
      obtain ⟨answer, next⟩ := reply
      simp only at given kept moved
      subst given
      by_cases last : (body.drop client.req.bytesRead).take 10240 = []
      · rw [if_pos last]
        have nothing : body.drop client.req.bytesRead = [] := by
          rcases List.take_eq_nil_iff.mp last with impossible | nothing
          · cases impossible
          · exact nothing
        have all := List.drop_eq_nil_iff.mp nothing
        exact ⟨next, by rw [nothing], kept, by omega⟩
      · rw [if_neg last]
        have more : client.req.bytesRead < body.length := by
          refine Nat.lt_of_not_le fun all => last ?_
          rw [List.drop_of_length_le all, List.take_nil]
        obtain ⟨final, rest, readable', ended⟩ := ih kept (by omega)
        refine ⟨final, ?_, readable', ended⟩
        simp only [rest, Option.map_some, moved]
        congr 2
        have cut : body.drop (min body.length (client.req.bytesRead + 10240)) =
            (body.drop client.req.bytesRead).drop 10240 := by
          rw [List.drop_drop, List.drop_eq_drop_iff]
          omega
        rw [cut, List.take_append_drop]

theorem readRest_of_readable (readable : Readable client body) :
    ∃ last, readRest client = some (body.drop client.req.bytesRead, last) ∧
      Readable last body ∧ last.req.bytesRead = body.length := by
  refine readChunks_of_readable _ readable ?_
  rw [readable.length]
  omega

/-! ### Beside the stream over the whole body -/

variable {reach : Reach} {rb : RequestBody} {io : StringIo} {next : StreamCall}

/-- The object still reads from the request, where the stream over the whole body is. -/
structure Direct (body : List UInt8) (reach : Reach) (rb : RequestBody) (io : StringIo) :
    Prop where
  direct : reach.direct = true
  unopened : rb.io = none
  readable : Readable rb.client body
  position : rb.client.req.bytesRead = reach.position
  beside : io = ⟨body, reach.position⟩

/-- The object reads from a `StringIO` over what was left of the body, as far in it as the
stream over the whole body is. -/
structure Opened (body : List UInt8) (reach : Reach) (rb : RequestBody) (io : StringIo) :
    Prop where
  opened : reach.direct = false
  beside : ∃ pos, rb.io = some ⟨body.drop reach.position, pos⟩ ∧
    io = ⟨body, reach.position + pos⟩

/-- The object and the stream over the whole body are at the same byte. -/
def Aligned (body : List UInt8) (reach : Reach) (rb : RequestBody) (io : StringIo) : Prop :=
  Direct body reach rb io ∨ Opened body reach rb io

theorem call_of_io (given : rb.io = some io) (next : StreamCall) :
    rb.call next = (some (io.call next).1, ⟨rb.client, some (io.call next).2⟩) := by
  have passed : rb.callIo next = (some (io.call next).1, ⟨rb.client, some (io.call next).2⟩) := by
    rw [callIo, openIo, given]
  cases next with
  | read len =>
      simp only [call, given]
      exact passed
  | gets => exact passed
  | each => exact passed
  | rewind =>
      rw [call, given]
      exact passed

/-- The first call for lines opens the `StringIO`, which is passed the call. -/
theorem call_of_opens (readable : Readable rb.client body) (unopened : rb.io = none)
    (opens : Opens next) :
    ∃ last, rb.call next =
      (some ((⟨body.drop rb.client.req.bytesRead, 0⟩ : StringIo).call next).1,
        ⟨last, some ((⟨body.drop rb.client.req.bytesRead, 0⟩ : StringIo).call next).2⟩) := by
  obtain ⟨last, rest, -⟩ := readRest_of_readable readable
  have passed : rb.callIo next =
      (some ((⟨body.drop rb.client.req.bytesRead, 0⟩ : StringIo).call next).1,
        ⟨last, some ((⟨body.drop rb.client.req.bytesRead, 0⟩ : StringIo).call next).2⟩) := by
    rw [callIo, openIo, unopened]
    simp only [rest, Option.map_some]
  cases next with
  | read len => exact opens.elim
  | gets => exact ⟨last, passed⟩
  | each => exact ⟨last, passed⟩
  | rewind => exact opens.elim

/-- Streams that have the same bytes left answer the same and take the same. -/
theorem call_of_rest {first second : StringIo} (reading : next ≠ .rewind)
    (same : first.string.drop first.pos = second.string.drop second.pos) :
    ∃ answer used, first.call next = (answer, { first with pos := first.pos + used }) ∧
      second.call next = (answer, { second with pos := second.pos + used }) := by
  refine ⟨(StringIo.serve (first.string.drop first.pos) next).1,
    (StringIo.serve (first.string.drop first.pos) next).2, ?_, ?_⟩
  · simp only [StringIo.call, if_neg reading]
  · simp only [StringIo.call, if_neg reading, same]

theorem call_rewind (io : StringIo) : io.call .rewind = (.done, { io with pos := 0 }) := rfl

/-- A rewind is harmful when bytes were taken from the request, an odd length when it is read from
the request. -/
structure Harmless (reach : Reach) (next : StreamCall) : Prop where
  rewound : next = .rewind → reach.position = 0
  sized : ∀ len, next = .read (some len) → reach.direct = true → ¬ Odd len

/-- The two answers to a call: the same, but for a read of nothing from the request. -/
def Alike (reach : Reach) (next : StreamCall) (answer : Option StreamAnswer)
    (expected : StreamAnswer) : Prop :=
  answer = some expected ∨
    reach.direct = true ∧ next = .read (some 0) ∧ answer = some .nil ∧ expected = .string []

/-- A harmless call of an opened object is answered like that of the stream and keeps both at the
same byte. -/
theorem Opened.step (opened : Opened body reach rb io) (harmless : Harmless reach next) :
    (rb.call next).1 = some (io.call next).1 ∧
      Opened body (reach.next body.length next) (rb.call next).2 (io.call next).2 := by
  obtain ⟨closed, pos, given, beside⟩ := opened
  have stays : reach.next body.length next = reach := by
    obtain ⟨position, direct⟩ := reach
    obtain rfl : direct = false := closed
    cases next with
    | read len =>
        cases len with
        | none => rfl
        | some len => simp [Reach.next]
    | gets => rfl
    | each => rfl
    | rewind => rfl
  rw [stays, call_of_io given]
  subst beside
  by_cases back : next = .rewind
  · subst back
    have start := harmless.rewound rfl
    exact ⟨rfl, closed, 0, rfl, by rw [call_rewind, start]⟩
  · obtain ⟨answer, used, first, second⟩ :=
      @call_of_rest next ⟨body.drop reach.position, pos⟩ ⟨body, reach.position + pos⟩ back
        List.drop_drop
    rw [first, second]
    exact ⟨rfl, closed, pos + used, rfl, by rw [Nat.add_assoc]⟩

/-- What a request and a stream answer for the same bytes left: nil for none of them, or nil only
when some were asked for. -/
theorem alike_of_rest (straight : reach.direct = true) (rest : List UInt8) {len : Int}
    (positive : 0 ≤ len) :
    Alike reach (.read (some len))
      (some (if rest.take len.toNat = [] then .nil else .string (rest.take len.toNat)))
      (if 0 < len ∧ rest = [] then .nil else .string (rest.take len.toNat)) := by
  by_cases wanted : 0 < len
  · have taken : rest.take len.toNat = [] ↔ rest = [] := by
      rw [List.take_eq_nil_iff, or_iff_right (by omega)]
    by_cases nothing : rest = []
    · rw [if_pos (taken.mpr nothing), if_pos ⟨wanted, nothing⟩]
      exact Or.inl rfl
    · rw [if_neg (mt taken.mp nothing), if_neg fun both => nothing both.2]
      exact Or.inl rfl
  · obtain rfl : len = 0 := by omega
    have empty : rest.take (Int.toNat 0) = [] := List.take_zero
    rw [if_pos empty, if_neg fun both => wanted both.1, empty]
    exact Or.inr ⟨straight, rfl, rfl, rfl⟩

/-- Reading all that is left from the request. -/
theorem Direct.step_rest (direct : Direct body reach rb io) :
    (rb.call (.read none)).1 = some (io.call (.read none)).1 ∧
      Direct body { reach with position := body.length } (rb.call (.read none)).2
        (io.call (.read none)).2 := by
  obtain ⟨straight, unopened, readable, position, beside⟩ := direct
  obtain ⟨last, rest, kept, ended⟩ := readRest_of_readable readable
  have within := readable.within
  rw [position] at rest within
  have reached : reach.position + (body.drop reach.position).length = body.length := by
    rw [List.length_drop]
    omega
  subst beside
  simp only [call, unopened, rest]
  refine ⟨rfl, straight, rfl, kept, ended, ?_⟩
  simp only [StringIo.call, StringIo.serve, reduceCtorEq, ↓reduceIte, reached]

/-- Reading some bytes from the request. -/
theorem Direct.step_some (direct : Direct body reach rb io) {len : Int} (int : IsInt len)
    (positive : 0 ≤ len) :
    Alike reach (.read (some len)) (rb.call (.read (some len))).1
        (io.call (.read (some len))).1 ∧
      Direct body { reach with position := min body.length (reach.position + len.toNat) }
        (rb.call (.read (some len))).2 (io.call (.read (some len))).2 := by
  obtain ⟨straight, unopened, readable, position, beside⟩ := direct
  obtain ⟨given, kept, moved⟩ := readRequest_of_nonneg readable int positive
  have within := readable.within
  rw [position] at given moved within
  have used : reach.position + min len.toNat (body.drop reach.position).length =
      min body.length (reach.position + len.toNat) := by
    rw [List.length_drop]
    omega
  have small : len < 2 ^ 63 := by
    obtain ⟨-, small⟩ := int
    omega
  subst beside
  rw [StringIo.call_read _ positive small]
  simp only [call, unopened, given, used]
  exact ⟨alike_of_rest straight _ positive, straight, rfl, kept, moved, rfl⟩

/-- A length that is no `int` and not odd is refused by both. -/
theorem Direct.step_refused (direct : Direct body reach rb io) {len : Int} (wide : ¬ IsInt len)
    (even : ¬ Odd len) :
    (rb.call (.read (some len))).1 = some (io.call (.read (some len))).1 ∧
      Direct body reach (rb.call (.read (some len))).2 (io.call (.read (some len))).2 := by
  obtain ⟨straight, unopened, readable, position, beside⟩ := direct
  have refused : len < 0 ∨ 2 ^ 63 ≤ len := by
    unfold IsInt at wide
    unfold Odd at even
    omega
  rw [StringIo.call_read_refused io refused]
  simp only [call, unopened, readRequest, if_neg wide]
  exact ⟨trivial, straight, rfl, readable, position, beside⟩

/-- A harmless read of a direct object is answered like that of the stream. -/
theorem Direct.step_read (direct : Direct body reach rb io) {len : Option Int}
    (harmless : Harmless reach (.read len)) :
    Alike reach (.read len) (rb.call (.read len)).1 (io.call (.read len)).1 ∧
      Direct body (reach.next body.length (.read len)) (rb.call (.read len)).2
        (io.call (.read len)).2 := by
  have straight := direct.direct
  cases len with
  | none =>
      obtain ⟨same, kept⟩ := direct.step_rest
      rw [Reach.next, if_pos straight]
      exact ⟨Or.inl same, kept⟩
  | some len =>
      have even := harmless.sized len rfl straight
      by_cases int : IsInt len
      · have positive : 0 ≤ len := Int.not_lt.mp fun negative => even (Or.inl ⟨int, negative⟩)
        rw [Reach.next, if_pos ⟨straight, int⟩]
        exact direct.step_some int positive
      · obtain ⟨same, kept⟩ := direct.step_refused int even
        rw [Reach.next, if_neg fun both => int both.2]
        exact ⟨Or.inl same, kept⟩

/-- A call for lines of a direct object is answered like that of the stream and opens it. -/
theorem Direct.step_opens (direct : Direct body reach rb io) (opens : Opens next) :
    (rb.call next).1 = some (io.call next).1 ∧
      Opened body { reach with direct := false } (rb.call next).2 (io.call next).2 := by
  obtain ⟨straight, unopened, readable, position, beside⟩ := direct
  obtain ⟨last, given⟩ := call_of_opens readable unopened opens
  have reading : next ≠ .rewind := by
    rintro rfl
    exact opens
  subst beside
  obtain ⟨answer, used, first, second⟩ :=
    @call_of_rest next ⟨body.drop reach.position, 0⟩ ⟨body, reach.position⟩ reading List.drop_zero
  rw [given, position, first, second]
  exact ⟨rfl, rfl, used, by rw [Nat.zero_add], rfl⟩

/-- A harmless call is answered like that of the stream and keeps both at the same byte. -/
theorem Aligned.step (aligned : Aligned body reach rb io) (harmless : Harmless reach next) :
    Alike reach next (rb.call next).1 (io.call next).1 ∧
      Aligned body (reach.next body.length next) (rb.call next).2 (io.call next).2 := by
  rcases aligned with direct | opened
  · cases next with
    | read len =>
        obtain ⟨alike, kept⟩ := direct.step_read harmless
        exact ⟨alike, Or.inl kept⟩
    | gets =>
        obtain ⟨same, kept⟩ := @Direct.step_opens body reach rb io .gets direct trivial
        exact ⟨Or.inl same, Or.inr kept⟩
    | each =>
        obtain ⟨same, kept⟩ := @Direct.step_opens body reach rb io .each direct trivial
        exact ⟨Or.inl same, Or.inr kept⟩
    | rewind =>
        obtain ⟨straight, unopened, readable, position, beside⟩ := direct
        have start := harmless.rewound rfl
        subst beside
        have answered : rb.call .rewind = (some .done, rb) := by simp only [call, unopened]
        rw [answered, call_rewind]
        exact ⟨Or.inl rfl, Or.inl ⟨straight, unopened, readable, position, by rw [Reach.next, start]⟩⟩
  · obtain ⟨same, kept⟩ := opened.step harmless
    exact ⟨Or.inl same, Or.inr kept⟩

end RequestBody
