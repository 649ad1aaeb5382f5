import Webroar.Worker.RequestBody

/-! # Which calls see a rewindable stream

A rewind that comes while the request is still read does nothing, and one that comes later goes
back to where the first call for lines was made. Bytes taken from the request before are gone
then. Over a body whose first byte is nowhere else in it every call that asks for bytes shows
that, so the sequences of calls for which the body is the stream over all of it can be told
exactly.
-/

open HttpReq (Readable bufSize)

namespace RequestBody

variable {body : List UInt8} {reach : Reach} {rb : RequestBody} {io : StringIo} {next : StreamCall}

/-! ### Behind a rewind that brought nothing back -/

/-- The object is behind the start of the body and the stream over the whole body at it. -/
def Behind (body : List UInt8) (rb : RequestBody) (io : StringIo) : Prop :=
  io = ⟨body, 0⟩ ∧
    (rb.io = none ∧ Readable rb.client body ∧ 0 < rb.client.req.bytesRead ∨
      ∃ position, 0 < position ∧ rb.io = some ⟨body.drop position, 0⟩)

/-- The first byte of a body is nowhere else in it. -/
def Marked (body : List UInt8) : Prop :=
  ∀ byte rest, body = byte :: rest → byte ∉ rest

/-- The bytes of an answer to a call are bytes that were left. -/
theorem bytes_serve {rest bytes : List UInt8}
    (given : (StringIo.serve rest next).1.bytes = some bytes) : ∀ byte ∈ bytes, byte ∈ rest := by
  intro byte member
  cases next with
  | read len =>
      cases len with
      | none =>
          cases given
          exact member
      | some len =>
          rw [StringIo.serve] at given
          split at given
          · cases given
          · split at given
            · cases given
              cases member
            · cases given
              exact List.mem_of_mem_take member
  | gets =>
      rw [StringIo.serve] at given
      split at given
      · cases given
        cases member
      · cases given
        exact StringIo.mem_of_mem_line member
  | each =>
      cases given
      rw [StringIo.flatten_lines] at member
      exact member
  | rewind =>
      cases given
      cases member

/-- A call that asks for bytes is answered with the first byte that is left. -/
theorem bytes_serve_cons (asks : Asks next) (first : UInt8) (rest : List UInt8) :
    ∃ bytes, (StringIo.serve (first :: rest) next).1.bytes = some bytes ∧ first ∈ bytes := by
  cases next with
  | read len =>
      cases len with
      | none => exact ⟨_, rfl, List.mem_cons_self⟩
      | some len =>
          obtain ⟨positive, small⟩ := asks
          obtain ⟨more, taken⟩ : ∃ more, len.toNat = more + 1 := ⟨len.toNat - 1, by omega⟩
          refine ⟨first :: rest.take more, ?_, List.mem_cons_self⟩
          rw [StringIo.serve, if_neg (by omega), if_neg (by simp), taken]
          rfl
  | gets =>
      obtain ⟨more, line⟩ := StringIo.line_cons first rest
      refine ⟨first :: more, ?_, List.mem_cons_self⟩
      rw [StringIo.serve, if_neg (List.cons_ne_nil _ _), line]
      rfl
  | each =>
      refine ⟨first :: rest, ?_, List.mem_cons_self⟩
      rw [StringIo.serve, StreamAnswer.bytes, StringIo.flatten_lines]
  | rewind => exact asks.elim

/-- The bytes an object behind the start answers are bytes behind the first. -/
theorem Behind.bytes_call (behind : Behind body rb io) {bytes : List UInt8}
    (given : (rb.call next).1.map StreamAnswer.bytes = some (some bytes)) :
    ∀ byte ∈ bytes, byte ∈ body.drop 1 := by
  have later : ∀ position, 0 < position → ∀ byte, byte ∈ body.drop position →
      byte ∈ body.drop 1 := by
    intro position positive byte member
    have split : body.drop position = (body.drop 1).drop (position - 1) := by
      rw [List.drop_drop]
      congr 1
      omega
    rw [split] at member
    exact List.mem_of_mem_drop member
  intro byte member
  obtain ⟨-, ⟨unopened, readable, positive⟩ | ⟨position, positive, opened⟩⟩ := behind
  · apply later _ positive
    cases next with
    | read len =>
        cases len with
        | none =>
            obtain ⟨last, rest, -⟩ := readRest_of_readable readable
            simp only [call, unopened, rest] at given
            cases given
            exact member
        | some len =>
            simp only [call, unopened] at given
            by_cases int : IsInt len
            · have read := readable.read (Decimal.toSize len)
              rw [readRequest, if_pos int] at given
              simp only [read.1] at given
              split at given
              · cases given
              · split at given
                · cases given
                  cases member
                · cases given
                  exact List.mem_of_mem_take member
            · rw [readRequest, if_neg int] at given
              cases given
    | gets =>
        obtain ⟨last, called⟩ := @call_of_opens body rb .gets readable unopened trivial
        rw [called] at given
        exact @bytes_serve .gets _ bytes (Option.some.inj given) byte member
    | each =>
        obtain ⟨last, called⟩ := @call_of_opens body rb .each readable unopened trivial
        rw [called] at given
        exact @bytes_serve .each _ bytes (Option.some.inj given) byte member
    | rewind =>
        simp only [call, unopened] at given
        cases given
        cases member
  · apply later _ positive
    rw [call_of_io opened] at given
    exact bytes_serve (Option.some.inj given) byte member

/-! ### Runs -/

/-- A way to compare an answer with the expected one: equal answers pass, and what passes has the
expected bytes. -/
structure Comparison (R : Option StreamAnswer → StreamAnswer → Prop) : Prop where
  same : ∀ expected, R (some expected) expected
  bytes : ∀ answer expected, R answer expected →
    answer.map StreamAnswer.bytes = some expected.bytes

variable {R : Option StreamAnswer → StreamAnswer → Prop} {length : Nat}
  {calls after : List StreamCall}

/-- A call that is answered as expected, now and later, wherever the object is in the body. -/
structure Safe (R : Option StreamAnswer → StreamAnswer → Prop) (reach : Reach)
    (next : StreamCall) (after : List StreamCall) : Prop where
  rewound : next = .rewind → 0 < reach.position → ∀ call ∈ after, ¬ Asks call
  sized : ∀ len, next = .read (some len) → reach.direct = true → ¬ Odd len
  zero : next = .read (some 0) → reach.direct = true → R (some .nil) (.string [])

/-- Every one of some calls is safe where it is made. -/
def SafeRun (R : Option StreamAnswer → StreamAnswer → Prop) (length : Nat) (reach : Reach)
    (calls : List StreamCall) : Prop :=
  ∀ before next after, calls = before ++ next :: after →
    Safe R (before.foldl (Reach.next length) reach) next after

theorem safeRun_nil : SafeRun R length reach [] := by
  intro before next after split
  cases before with
  | nil => cases split
  | cons first rest => cases split

theorem safeRun_cons :
    SafeRun R length reach (next :: after) ↔
      Safe R reach next after ∧ SafeRun R length (reach.next length next) after := by
  constructor
  · intro run
    exact ⟨run [] next after rfl, fun before later rest split =>
      run (next :: before) later rest (by rw [split]; rfl)⟩
  · rintro ⟨safe, run⟩ before later rest split
    cases before with
    | nil =>
        cases split
        exact safe
    | cons first before =>
        rw [List.cons_append, List.cons.injEq] at split
        obtain ⟨rfl, split⟩ := split
        exact run before later rest split

/-- The object reads from the request or from its `StringIO`, wherever it is. -/
def Stands (body : List UInt8) (reach : Reach) (rb : RequestBody) : Prop :=
  reach.direct = true ∧ rb.io = none ∧ Readable rb.client body ∨
    reach.direct = false ∧ ∃ io, rb.io = some io

theorem Aligned.stands (aligned : Aligned body reach rb io) : Stands body reach rb := by
  rcases aligned with ⟨straight, unopened, readable, -, -⟩ | ⟨opened, pos, given, -⟩
  · exact Or.inl ⟨straight, unopened, readable⟩
  · exact Or.inr ⟨opened, _, given⟩

/-- A call that asks for nothing is one of three. -/
theorem idle_cases (idle : ¬ Asks next) :
    next = .rewind ∨ next = .read (some 0) ∨
      ∃ len, next = .read (some len) ∧ (len < 0 ∨ 2 ^ 63 ≤ len) := by
  cases next with
  | read len =>
      cases len with
      | none => exact absurd trivial idle
      | some len =>
          by_cases zero : len = 0
          · exact Or.inr (Or.inl (by rw [zero]))
          · refine Or.inr (Or.inr ⟨len, rfl, ?_⟩)
            by_cases negative : len < 0
            · exact Or.inl negative
            · exact Or.inr (Int.not_lt.mp fun small => idle ⟨by omega, small⟩)
  | gets => exact absurd trivial idle
  | each => exact absurd trivial idle
  | rewind => exact Or.inl rfl

/-- A read of nothing from the request answers nil. -/
theorem call_zero (unopened : rb.io = none) (readable : Readable rb.client body) :
    (rb.call (.read (some 0))).1 = some .nil ∧ (rb.call (.read (some 0))).2.io = none ∧
      Readable (rb.call (.read (some 0))).2.client body ∧
      (rb.call (.read (some 0))).2.client.req.bytesRead = rb.client.req.bytesRead := by
  obtain ⟨given, kept, moved⟩ := readRequest_of_nonneg readable (by decide : IsInt 0) (Int.le_refl 0)
  have empty : (body.drop rb.client.req.bytesRead).take (Int.toNat 0) = [] := List.take_zero
  have within := readable.within
  rw [if_pos empty] at given
  simp only [call, unopened]
  refine ⟨given, trivial, kept, moved.trans ?_⟩
  exact Nat.min_eq_right within

/-- A length that no stream takes is refused, or odd and read from the request. -/
theorem call_refused {len : Int} (stands : Stands body reach rb)
    (refused : len < 0 ∨ 2 ^ 63 ≤ len) (even : reach.direct = true → ¬ Odd len) :
    rb.call (.read (some len)) = (some .raised, rb) := by
  rcases stands with ⟨straight, unopened, -⟩ | ⟨-, io, given⟩
  · have wide : ¬ IsInt len := by
      intro int
      have even := even straight
      unfold Odd at even
      have bounds := int
      unfold IsInt at bounds
      rcases refused with negative | large
      · exact even (Or.inl ⟨int, negative⟩)
      · omega
    obtain ⟨client, opened⟩ := rb
    obtain rfl : opened = none := unopened
    simp only [call, readRequest, if_neg wide]
  · rw [call_of_io given, StringIo.call_read_refused io refused, ← given]

/-- A safe call that asks for nothing is answered as expected. -/
theorem Stands.idle (stands : Stands body reach rb) (comparison : Comparison R)
    (idle : ¬ Asks next) (safe : Safe R reach next after) (io : StringIo) :
    R (rb.call next).1 (io.call next).1 ∧
      Stands body (reach.next length next) (rb.call next).2 := by
  rcases idle_cases idle with rfl | rfl | ⟨len, rfl, refused⟩
  · rcases stands with ⟨straight, unopened, readable⟩ | ⟨opened, given, at'⟩
    · have answered : rb.call .rewind = (some .done, rb) := by simp only [call, unopened]
      rw [answered]
      exact ⟨comparison.same _, Or.inl ⟨straight, unopened, readable⟩⟩
    · rw [call_of_io at']
      exact ⟨comparison.same _, Or.inr ⟨opened, _, rfl⟩⟩
  · have read := StringIo.call_read io (Int.le_refl 0) (by decide)
    rcases stands with ⟨straight, unopened, readable⟩ | ⟨opened, given, at'⟩
    · obtain ⟨answered, closed, kept, -⟩ := call_zero unopened readable
      rw [answered, read]
      refine ⟨safe.zero rfl straight, Or.inl ⟨?_, closed, kept⟩⟩
      rw [Reach.next]
      split
      · exact straight
      · exact straight
    · have same := StringIo.call_read given (Int.le_refl 0) (by decide)
      rw [call_of_io at', read, same]
      refine ⟨comparison.same _, Or.inr ⟨?_, _, rfl⟩⟩
      rw [Reach.next, if_neg (by rw [opened]; exact fun both => Bool.false_ne_true both.1)]
      exact opened
  · have answered := call_refused stands refused (safe.sized len rfl)
    rw [answered, StringIo.call_read_refused io refused]
    refine ⟨comparison.same _, ?_⟩
    rcases stands with ⟨straight, unopened, readable⟩ | ⟨opened, given⟩
    · refine Or.inl ⟨?_, unopened, readable⟩
      rw [Reach.next]
      split
      · exact straight
      · exact straight
    · refine Or.inr ⟨?_, given⟩
      rw [Reach.next, if_neg (by rw [opened]; exact fun both => Bool.false_ne_true both.1)]
      exact opened

/-- Safe calls that ask for nothing are answered as expected. -/
theorem Stands.run (stands : Stands body reach rb) (comparison : Comparison R)
    (safe : SafeRun R length reach calls) (idle : ∀ call ∈ calls, ¬ Asks call) (io : StringIo) :
    List.Forall₂ R (rb.run calls) (io.run calls) := by
  induction calls generalizing reach rb io with
  | nil => exact .nil
  | cons next after ih =>
      obtain ⟨first, later⟩ := safeRun_cons.mp safe
      obtain ⟨answered, kept⟩ := stands.idle comparison (idle next List.mem_cons_self) first io
      exact .cons answered
        (ih kept later (fun call member => idle call (List.mem_cons_of_mem _ member)) _)

/-- Safe calls are answered as expected. -/
theorem Aligned.run (aligned : Aligned body reach rb io) (comparison : Comparison R)
    (safe : SafeRun R body.length reach calls) :
    List.Forall₂ R (rb.run calls) (io.run calls) := by
  induction calls generalizing reach rb io with
  | nil => exact .nil
  | cons next after ih =>
      obtain ⟨first, later⟩ := safeRun_cons.mp safe
      by_cases harmful : next = .rewind ∧ 0 < reach.position
      · obtain ⟨rfl, forward⟩ := harmful
        obtain ⟨answered, kept⟩ := @Stands.idle body reach rb .rewind R body.length after
          aligned.stands comparison id first io
        exact .cons answered (kept.run comparison later (first.rewound rfl forward) _)
      · have harmless : Harmless reach next :=
          ⟨fun back => Nat.eq_zero_of_not_pos fun forward => harmful ⟨back, forward⟩, first.sized⟩
        obtain ⟨alike, kept⟩ := aligned.step harmless
        refine .cons ?_ (ih kept later)
        rcases alike with same | ⟨straight, zero, answer, expected⟩
        · rw [same]
          exact comparison.same _
        · rw [answer, expected]
          exact first.zero zero straight

/-- A call that is answered as expected has no odd length, and passes as a read of nothing. -/
theorem Stands.head (stands : Stands body reach rb) (comparison : Comparison R)
    (answered : R (rb.call next).1 (io.call next).1) :
    (∀ len, next = .read (some len) → reach.direct = true → ¬ Odd len) ∧
      (next = .read (some 0) → reach.direct = true → R (some .nil) (.string [])) := by
  constructor
  · rintro len rfl straight odd
    obtain ⟨-, unopened, -⟩ | ⟨opened, -⟩ := stands
    · have bytes := comparison.bytes _ _ answered
      simp only [call, unopened] at bytes
      rcases odd with ⟨int, negative⟩ | ⟨large, small⟩
      · rw [StringIo.call_read_refused io (Or.inl negative)] at bytes
        exact readRequest_of_neg rb.client int bytes
      · have wide : ¬ IsInt len := by
          unfold IsInt
          omega
        rw [readRequest, if_neg wide, StringIo.call_read io (by omega) small] at bytes
        simp only [Option.map_some, Option.some.injEq] at bytes
        split at bytes
        · cases bytes
        · cases bytes
    · rw [straight] at opened
      cases opened
  · rintro rfl straight
    obtain ⟨-, unopened, readable⟩ | ⟨opened, -⟩ := stands
    · obtain ⟨nothing, -⟩ := call_zero unopened readable
      rw [nothing, StringIo.call_read io (Int.le_refl 0) (by decide)] at answered
      exact answered
    · rw [straight] at opened
      cases opened

/-- A call that asks for nothing leaves an object behind the start. -/
theorem Behind.idle (behind : Behind body rb io) (stands : Stands body reach rb)
    (idle : ¬ Asks next)
    (even : ∀ len, next = .read (some len) → reach.direct = true → ¬ Odd len) :
    Behind body (rb.call next).2 (io.call next).2 := by
  obtain ⟨rfl, place⟩ := behind
  rcases idle_cases idle with rfl | rfl | ⟨len, rfl, refused⟩
  · rcases place with ⟨unopened, readable, forward⟩ | ⟨position, forward, given⟩
    · have answered : rb.call .rewind = (some .done, rb) := by simp only [call, unopened]
      rw [answered]
      exact ⟨rfl, Or.inl ⟨unopened, readable, forward⟩⟩
    · rw [call_of_io given]
      exact ⟨rfl, Or.inr ⟨position, forward, rfl⟩⟩
  · rw [StringIo.call_read _ (Int.le_refl 0) (by decide)]
    refine ⟨by simp, ?_⟩
    rcases place with ⟨unopened, readable, forward⟩ | ⟨position, forward, given⟩
    · obtain ⟨-, closed, kept, same⟩ := call_zero unopened readable
      exact Or.inl ⟨closed, kept, by rw [same]; exact forward⟩
    · rw [call_of_io given, StringIo.call_read _ (Int.le_refl 0) (by decide)]
      exact Or.inr ⟨position, forward, by simp⟩
  · rw [call_refused stands refused (even len rfl), StringIo.call_read_refused _ refused]
    exact ⟨rfl, place⟩

/-- Over a marked body, calls on an object behind the start that are answered as expected ask for
nothing. -/
theorem Behind.run (behind : Behind body rb io) (marked : Marked body)
    (stands : Stands body reach rb) (comparison : Comparison R) (filled : body ≠ [])
    (answered : List.Forall₂ R (rb.run calls) (io.run calls)) :
    (∀ call ∈ calls, ¬ Asks call) ∧ SafeRun R length reach calls := by
  induction calls generalizing reach rb io with
  | nil => exact ⟨nofun, safeRun_nil⟩
  | cons next after ih =>
      rw [RequestBody.run, StringIo.run, List.forall₂_cons] at answered
      obtain ⟨first, later⟩ := answered
      obtain ⟨sized, zero⟩ := stands.head comparison first
      have idle : ¬ Asks next := by
        intro asks
        obtain ⟨byte, rest, shape⟩ := List.exists_cons_of_ne_nil filled
        obtain ⟨bytes, expected, member⟩ := bytes_serve_cons asks byte rest
        have given := comparison.bytes _ _ first
        have served : (io.call next).1 = (StringIo.serve (byte :: rest) next).1 := by
          rw [behind.1, shape]
          rfl
        rw [served, expected] at given
        have inside := behind.bytes_call given byte member
        rw [shape] at inside
        exact marked byte rest shape inside
      -- Where the object stands does not depend on the calls that come after.
      have now : Safe R reach next [] := ⟨fun _ _ => nofun, sized, zero⟩
      obtain ⟨-, kept⟩ := @Stands.idle body reach rb next R length [] stands comparison idle now io
      obtain ⟨quiet, run⟩ := ih (behind.idle stands idle sized) kept later
      exact ⟨List.forall_mem_cons.mpr ⟨idle, quiet⟩,
        safeRun_cons.mpr ⟨⟨fun _ _ => quiet, sized, zero⟩, run⟩⟩

/-- Over a marked body, calls that are answered as expected are safe. -/
theorem Aligned.safeRun (aligned : Aligned body reach rb io) (marked : Marked body)
    (within : reach.position ≤ body.length) (comparison : Comparison R)
    (answered : List.Forall₂ R (rb.run calls) (io.run calls)) :
    SafeRun R body.length reach calls := by
  induction calls generalizing reach rb io with
  | nil => exact safeRun_nil
  | cons next after ih =>
      rw [RequestBody.run, StringIo.run, List.forall₂_cons] at answered
      obtain ⟨first, later⟩ := answered
      obtain ⟨sized, zero⟩ := aligned.stands.head comparison first
      by_cases harmful : next = .rewind ∧ 0 < reach.position
      · obtain ⟨rfl, forward⟩ := harmful
        have now : Safe R reach .rewind [] := ⟨fun _ _ => nofun, sized, zero⟩
        have filled : body ≠ [] := by
          rintro rfl
          exact Nat.not_lt_of_le within forward
        have behind : Behind body (rb.call .rewind).2 (io.call .rewind).2 := by
          rcases aligned with ⟨-, unopened, readable, position, rfl⟩ | ⟨-, pos, given, rfl⟩
          · have same : rb.call .rewind = (some .done, rb) := by simp only [call, unopened]
            rw [same]
            exact ⟨rfl, Or.inl ⟨unopened, readable, by rw [position]; exact forward⟩⟩
          · rw [call_of_io given]
            exact ⟨rfl, Or.inr ⟨_, forward, rfl⟩⟩
        obtain ⟨-, kept⟩ := @Stands.idle body reach rb .rewind R body.length []
          aligned.stands comparison id now io
        obtain ⟨quiet, run⟩ := behind.run marked kept comparison filled later
        exact safeRun_cons.mpr ⟨⟨fun _ _ => quiet, sized, zero⟩, run⟩
      · have harmless : Harmless reach next :=
          ⟨fun back => Nat.eq_zero_of_not_pos fun forward => harmful ⟨back, forward⟩, sized⟩
        obtain ⟨-, kept⟩ := aligned.step harmless
        have within' : (reach.next body.length next).position ≤ body.length := by
          unfold Reach.next
          split
          · split
            · exact Nat.le_refl _
            · exact within
          · split
            · exact Nat.min_le_left _ _
            · exact within
          · exact within
          · exact within
          · exact within
        refine safeRun_cons.mpr ⟨⟨fun back forward => ?_, sized, zero⟩, ih kept within' later⟩
        exact absurd ⟨back, forward⟩ harmful

/-! ### Which calls see a rewindable stream -/

/-- A request that holds a body, in the buffer or in a file. -/
def stored (body : List UInt8) : HttpReq.Input where
  req :=
    { buf := (⟨bufSize, fun _ => 0, false⟩ : Block UInt8).write 0 body
      bytesRead := 0
      scgi := none
      file := if bufSize < body.length then some body else none
      scgiHeaderLen := 0
      reqLen := body.length
      reader := .stopped
      pending := []
      log := [] }
  position := 0

theorem readable_stored (small : body.length < 2 ^ 64) : Readable (stored body) body := by
  refine ⟨rfl, small, Nat.zero_le _, ?_⟩
  by_cases large : bufSize < body.length
  · exact Or.inl ⟨if_pos large, rfl⟩
  · exact Or.inr ⟨if_neg large, Block.slice_write_self _ _ _⟩

/-- A body of some length whose first byte is nowhere else in it. -/
def marked : Nat → List UInt8
  | 0 => []
  | rest + 1 => 1 :: List.replicate rest 0

theorem length_marked (length : Nat) : (marked length).length = length := by
  cases length with
  | zero => rfl
  | succ rest => rw [marked, List.length_cons, List.length_replicate]

theorem marked_spec (length : Nat) : Marked (marked length) := by
  intro byte rest shape inside
  cases length with
  | zero => cases shape
  | succ more =>
      cases shape
      have zero := List.eq_of_mem_replicate inside
      cases zero

/-- Over every body of a length, however it is stored, some calls are answered as by a stream over
the whole body. -/
def Streams (R : Option StreamAnswer → StreamAnswer → Prop) (length : Nat)
    (calls : List StreamCall) : Prop :=
  ∀ body client, body.length = length → Readable client body → client.req.bytesRead = 0 →
    List.Forall₂ R ((⟨client, none⟩ : RequestBody).run calls) ((⟨body, 0⟩ : StringIo).run calls)

theorem streams_iff (small : length < 2 ^ 64) (comparison : Comparison R) :
    Streams R length calls ↔ SafeRun R length ⟨0, true⟩ calls := by
  have aligned : ∀ body client, Readable client body → client.req.bytesRead = 0 →
      Aligned body ⟨0, true⟩ ⟨client, none⟩ ⟨body, 0⟩ :=
    fun body client readable start => Or.inl ⟨rfl, rfl, readable, start, rfl⟩
  constructor
  · intro streams
    have measured := length_marked length
    have readable := @readable_stored (marked length) (by rw [measured]; exact small)
    have safe := (aligned _ _ readable rfl).safeRun (marked_spec length) (Nat.zero_le _) comparison
      (streams _ _ measured readable rfl)
    rw [measured] at safe
    exact safe
  · rintro safe body client rfl readable start
    exact (aligned body client readable start).run comparison safe

/-- Both answer with the same bytes, or neither answers. -/
def SameBytes (answer : Option StreamAnswer) (expected : StreamAnswer) : Prop :=
  answer.map StreamAnswer.bytes = some expected.bytes

/-- Both answer the same. -/
def SameAnswer (answer : Option StreamAnswer) (expected : StreamAnswer) : Prop :=
  answer = some expected

/-- No rewind is to bring back bytes taken from the request, and no odd length is read from it. -/
structure Rewindable (length : Nat) (calls : List StreamCall) : Prop where
  rewound : ∀ before after, calls = before ++ .rewind :: after → 0 < taken length before →
    ∀ call ∈ after, ¬ Asks call
  sized : ∀ before len after, calls = before ++ .read (some len) :: after → Odd len →
    ∃ call ∈ before, Opens call

/-- Nothing is read from the request only as all that is left. -/
def NoEmptyRead (calls : List StreamCall) : Prop :=
  ∀ before after, calls = before ++ .read (some 0) :: after → ∃ call ∈ before, Opens call

/-- The calls go on in the request itself until one opens the `StringIO`. -/
theorem direct_foldl (length : Nat) (calls : List StreamCall) (reach : Reach) :
    (calls.foldl (Reach.next length) reach).direct = true ↔
      reach.direct = true ∧ ¬ ∃ call ∈ calls, Opens call := by
  induction calls generalizing reach with
  | nil => simp
  | cons next rest ih =>
      rw [List.foldl_cons, ih, List.exists_mem_cons_iff, not_or, ← and_assoc]
      refine and_congr_left fun _ => ?_
      cases next with
      | read len =>
          have same : (reach.next length (.read len)).direct = reach.direct := by
            cases len with
            | none =>
                rw [Reach.next]
                split
                · rfl
                · rfl
            | some len =>
                rw [Reach.next]
                split
                · rfl
                · rfl
          rw [same]
          exact (and_iff_left id).symm
      | gets => exact ⟨by rintro ⟨⟩, fun both => absurd trivial both.2⟩
      | each => exact ⟨by rintro ⟨⟩, fun both => absurd trivial both.2⟩
      | rewind => exact (and_iff_left id).symm

theorem safeRun_iff :
    SafeRun R length ⟨0, true⟩ calls ↔
      Rewindable length calls ∧ (R (some .nil) (.string []) ∨ NoEmptyRead calls) := by
  have straight : ∀ before : List StreamCall,
      (before.foldl (Reach.next length) ⟨0, true⟩).direct = true ↔
        ¬ ∃ call ∈ before, Opens call := by
    intro before
    rw [direct_foldl]
    exact and_iff_right rfl
  constructor
  · intro safe
    refine ⟨⟨fun before after split => (safe before _ after split).rewound rfl, ?_⟩, ?_⟩
    · intro before len after split odd
      by_contra direct
      exact (safe before _ after split).sized len rfl ((straight before).mpr direct) odd
    · by_cases passes : R (some .nil) (.string [])
      · exact Or.inl passes
      · refine Or.inr fun before after split => ?_
        by_contra direct
        exact passes ((safe before _ after split).zero rfl ((straight before).mpr direct))
  · rintro ⟨⟨rewound, sized⟩, zero⟩ before next after split
    refine ⟨?_, ?_, ?_⟩
    · rintro rfl
      exact rewound before after split
    · rintro len rfl direct odd
      exact (straight before).mp direct (sized before len after split odd)
    · rintro rfl direct
      rcases zero with passes | opened
      · exact passes
      · exact absurd (opened before after split) ((straight before).mp direct)

/-- The body is a rewindable stream exactly for these calls. Over every body of a length they
return the bytes that a stream over the whole body returns if and only if no rewind is to bring
back bytes taken from the request and no odd length is read from it; and they answer the same
altogether if and only if, besides, the request is not asked for zero bytes. -/
theorem rewindable_iff (length : Nat) (small : length < 2 ^ 64) (calls : List StreamCall) :
    (Streams SameBytes length calls ↔ Rewindable length calls) ∧
      (Streams SameAnswer length calls ↔ Rewindable length calls ∧ NoEmptyRead calls) := by
  have bytes : Comparison SameBytes := ⟨fun _ => rfl, fun _ _ same => same⟩
  have answers : Comparison SameAnswer :=
    ⟨fun _ => rfl, fun _ _ same => congrArg (Option.map StreamAnswer.bytes) same⟩
  constructor
  · rw [streams_iff small bytes, safeRun_iff]
    exact and_iff_left (Or.inl rfl)
  · rw [streams_iff small answers, safeRun_iff]
    exact and_congr_right fun _ => or_iff_right nofun

theorem rewindable_iff_two :
    2 < 2 ^ 64 ∧
      ((Streams SameBytes 2 [.read none, .rewind] ↔ Rewindable 2 [.read none, .rewind]) ∧
        (Streams SameAnswer 2 [.read none, .rewind] ↔
          Rewindable 2 [.read none, .rewind] ∧ NoEmptyRead [.read none, .rewind])) :=
  ⟨by decide, rewindable_iff 2 (by decide) [.read none, .rewind]⟩

/-- A body that was read from the request is not there again behind a rewind. -/
theorem not_rewindable :
    ¬ ∀ (body : List UInt8) (client : HttpReq.Input) (calls : List StreamCall),
      Readable client body → client.req.bytesRead = 0 →
        List.Forall₂ SameBytes ((⟨client, none⟩ : RequestBody).run calls)
          ((⟨body, 0⟩ : StringIo).run calls) := by
  intro streams
  have same := streams [97, 98] (stored [97, 98]) [.read none, .rewind, .read none]
    (readable_stored (by decide)) rfl
  have answers : (⟨stored [97, 98], none⟩ : RequestBody).run
      [.read none, .rewind, .read none] =
        [some (.string [97, 98]), some .done, some (.string [])] := by
    decide +kernel
  rw [answers] at same
  cases same with
  | cons first rest =>
      cases rest with
      | cons second rest =>
          cases rest with
          | cons third rest => cases third

end RequestBody
