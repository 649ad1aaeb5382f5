import Webroar.Worker.Handler

/-! # Whether a request is answered

Each request should be answered by one response, with all bytes of its body. What decides is the
length that is announced: a response of length 0 ends with its headers, and any other when its body
is written, so a body that raises on the way leaves its request without an answer. A body whose
length is not worked out, though there is one, is left away.
-/

namespace Worker

open Decimal (Numeral isDigit isSpace)

/-! ### Numbers in headers -/

theorem readInteger_of_digits {text : List UInt8} (digits : ∀ byte ∈ text, isDigit byte = true)
    (acc : Nat) : readInteger acc text = Decimal.readDigits acc text := by
  induction text generalizing acc with
  | nil => rfl
  | cons byte rest ih =>
      have digit := digits byte List.mem_cons_self
      have other : byte ≠ 95 := by
        rintro rfl
        cases digit
      have step : readInteger acc (byte :: rest) =
          readInteger (10 * acc + (byte.toNat - 48)) rest := by
        rw [readInteger, if_pos digit]
        exact fun _ _ same => absurd same other
      rw [step, ih fun later member => digits later (List.mem_cons_of_mem _ member),
        Decimal.readDigits, if_pos digit]

/-- A numeral stands for its number. -/
theorem toI_of_numeral {text : List UInt8} {n : Nat} (numeral : Numeral text n) : toI text = n := by
  obtain ⟨nonempty, digits, value⟩ := numeral
  cases text with
  | nil => exact absurd rfl nonempty
  | cons byte rest =>
      have digit := digits byte List.mem_cons_self
      obtain ⟨notSpace, notMinus, notPlus⟩ := Decimal.isDigit_plain digit
      have natural : readNatural (byte :: rest) = n := by
        rw [readNatural, if_pos digit, readInteger_of_digits fun later member =>
          digits later (List.mem_cons_of_mem _ member)]
        rw [Decimal.readDigits, if_pos digit, Nat.mul_zero, Nat.zero_add] at value
        exact value
      have unmarked : ∀ mark later, rest = mark :: later → mark ≠ 100 ∧ mark ≠ 68 := by
        intro mark later same
        have inside : mark ∈ byte :: rest := by
          rw [same]
          exact List.mem_cons_of_mem _ List.mem_cons_self
        have other := digits mark inside
        refine ⟨?_, ?_⟩
        · rintro rfl
          cases other
        · rintro rfl
          cases other
      have marked : readMarked (byte :: rest) = n := by
        rw [readMarked.eq_def]
        split
        · next same => exact absurd rfl (unmarked _ _ (List.cons.inj same).2).1
        · next same => exact absurd rfl (unmarked _ _ (List.cons.inj same).2).2
        · exact natural
      simp only [toI, List.dropWhile_cons, notSpace, Bool.false_eq_true, ↓reduceIte]
      split
      · next same => exact absurd (List.cons.inj same).1 notMinus
      · next same => exact absurd (List.cons.inj same).1 notPlus
      · rw [marked]

namespace Headers

/-- Setting a field changes what this field holds, and no other. -/
theorem get_set (headers : Headers) (field name : List UInt8) (values : Values) :
    (headers.set field values).get name = if name = field then some values else headers.get name := by
  unfold Headers.get Headers.set
  dsimp only
  induction headers.pairs with
  | nil =>
      by_cases same : name = field
      · subst same
        simp [setPairs]
      · simp [setPairs, same, Ne.symm same]
  | cons pair pairs ih =>
      rw [setPairs]
      by_cases here : pair.1 = field
      · rw [if_pos here]
        subst here
        by_cases same : name = pair.1
        · simp [same]
        · simp [same, Ne.symm same]
      · rw [if_neg here]
        by_cases found : pair.1 = name
        · subst found
          simp [here]
        · simp only [List.find?_cons, found, decide_false]
          exact ih

theorem get_serverHeaders (keepAlive : Bool) (headers : Headers) {name : List UInt8}
    (notConnection : name ≠ connection) (notServer : name ≠ serverField) :
    (serverHeaders keepAlive headers).get name = headers.get name := by
  rw [serverHeaders, get_set, if_neg notServer, get_set, if_neg notConnection]

end Headers

theorem lengthOf_serverHeaders (keepAlive : Bool) (headers : Headers) :
    lengthOf (serverHeaders keepAlive headers) = lengthOf headers := by
  unfold lengthOf
  rw [headers.get_serverHeaders keepAlive (by decide) (by decide)]

/-! ### Chunks -/

theorem flatten_fileChunks (content : List UInt8) : (fileChunks content).flatten = content := by
  fun_induction fileChunks content with
  | case1 => rfl
  | case2 content some ih => rw [List.flatten_cons, ih, List.take_append_drop]

namespace Client

variable {client : Client}

/-- The body of a response is so far what is held. -/
def hold (held : List UInt8) (client : Client) : Client :=
  { client with resp := { client.resp with bodyStr := some held, bodyLen := held.length } }

/-- Bytes that fit the buffer are put behind what it holds. -/
theorem reqWriteBody_hold {held chunk : List UInt8}
    (room : held.length + chunk.length ≤ client.bodySize) (small : client.bodySize < 2 ^ 64) :
    (client.hold held).reqWriteBody chunk = client.hold (held ++ chunk) := by
  have left : Decimal.sizeSub client.bodySize held.length = client.bodySize - held.length :=
    Decimal.sizeSub_of_le (by omega) small
  have all : min chunk.length (Decimal.sizeSub client.bodySize held.length) = chunk.length := by
    rw [left]
    omega
  simp only [reqWriteBody, hold, all, List.take_length, Option.map_some, List.length_append]

theorem foldl_hold (chunks : List (List UInt8)) {held : List UInt8}
    (room : held.length + chunks.flatten.length ≤ client.bodySize)
    (small : client.bodySize < 2 ^ 64) :
    chunks.foldl (fun client chunk => client.reqWriteBody chunk) (client.hold held) =
      client.hold (held ++ chunks.flatten) := by
  induction chunks generalizing held with
  | nil => rw [List.flatten_nil, List.append_nil, List.foldl_nil]
  | cons chunk chunks ih =>
      rw [List.flatten_cons, List.length_append] at room
      have next : (held ++ chunk).length + chunks.flatten.length ≤ client.bodySize := by
        rw [List.length_append]
        omega
      rw [List.foldl_cons, reqWriteBody_hold (by omega) small, ih next, List.flatten_cons,
        List.append_assoc]

/-- Writing bytes hands nothing over. -/
theorem completed_foldl (chunks : List (List UInt8)) :
    (chunks.foldl (fun client chunk => client.reqWriteBody chunk) client).completed =
      client.completed := by
  induction chunks generalizing client with
  | nil => rfl
  | cons chunk chunks ih => exact ih

/-- A body that can be read or iterated is written as what it yields. -/
theorem writeBody_eq (body : Body) (found : body ≠ .path none none) :
    client.writeBody body = (client.writeEach body.yields).map reqRespCompleted := by
  have bound : ∀ written : Except Client Client,
      (written >>= fun client => pure client.reqRespCompleted) = written.map reqRespCompleted := by
    rintro (after | after)
    · rfl
    · rfl
  cases body with
  | string text => rfl
  | each each => exact bound _
  | path file each =>
      cases file with
      | some file => exact bound _
      | none =>
          cases each with
          | some each => exact bound _
          | none => exact absurd rfl found

end Client

/-! ### What is announced -/

variable {keepAlive : Bool} {result : Result} {status : Int} {headers : Headers} {body : Body}

/-- The body is read when its response is written: its announced length is not 0. -/
def Result.written (result : Result) : Bool :=
  match result.headers.get contentLength with
  | some (.string text) => toI text ≠ 0
  | some (.each _) => false
  | none =>
      !chunked result.headers &&
        match result.body with
        | .string text => !text.isEmpty
        | .path (some file) (some _) => !file.content.isEmpty
        | .path (some _) none => false
        | .path none _ => false
        | .each _ => true

/-- A content length of the application is a numeral, for the number of bytes if the body can be
read to its end. -/
def Counted (result : Result) : Prop :=
  ∀ values, result.headers.get contentLength = some values →
    ∃ text n, values = .string text ∧ Numeral text n ∧
      (result.body.yields.raises = false → n = result.body.bytes.length)

/-- The response is one without a body, or its status fits an `int` and its body is not read if that
raises, and read if it has bytes, which are not too many. -/
def Answerable (result : Result) : Prop :=
  silent result.status.toI = true ∨
    FitsInt result.status.toI ∧
      (if result.body.yields.raises then result.written = false
      else result.body.bytes.length < 2 ^ 31 ∧
        (result.body.bytes = [] ∨ result.written = true))

instance (result : Result) : Decidable (Answerable result) :=
  inferInstanceAs (Decidable (_ ∨ _))

/-- A response carries the headers of the application, a content length that is the number of bytes
if there is one, and the bytes. -/
def Conveys (result : Result) (resp : HttpResp) : Prop :=
  ∃ headers : Headers, resp.header = respHeader headers result.status.toI ∧
    (∀ field, field ≠ contentLength → field ≠ connection → field ≠ serverField →
      headers.get field = result.headers.get field) ∧
    (∀ values, headers.get contentLength = some values →
      ∃ text, values = .string text ∧ Numeral text result.body.bytes.length) ∧
    Writer.Carries false resp result.body.bytes

/-- A request is answered by one response, and unless it has no body or the body raised it carries
all of it. -/
structure Answers (result : Result) (client : Client) : Prop where
  once : client.completed.length = 1
  whole : silent result.status.toI = false → result.body.yields.raises = false →
    ∀ resp ∈ client.completed, Conveys result resp

/-- What is known of the headers with a content length: the length `n` is announced, and `each` is
what is read when that is not 0. -/
structure Lengthed (result : Result) (headers : Headers) (each : Each) (n : Nat) : Prop where
  length : lengthOf headers = some (n : Int)
  kept : ∀ field, field ≠ contentLength → headers.get field = result.headers.get field
  written : 0 < n ↔ result.written = true ∧
    (result.body.yields.raises = true ∨ result.body.bytes ≠ [])
  raises : each.raises = result.body.yields.raises
  bytes : result.body.yields.raises = false → each.chunks.flatten = result.body.bytes ∧
    (result.written = true → n = result.body.bytes.length)
  announced : result.body.yields.raises = false → n = result.body.bytes.length → ∀ values,
    headers.get contentLength = some values →
      ∃ text, values = .string text ∧ Numeral text result.body.bytes.length

theorem toI_ofNat (n : Nat) : toI (Decimal.ofNat n) = n := toI_of_numeral (Decimal.numeral_ofNat n)

theorem lengthOf_set (headers : Headers) (n : Nat) :
    lengthOf (headers.set contentLength (.string (Decimal.ofNat n))) = some (n : Int) := by
  simp only [lengthOf, Headers.get_set, ↓reduceIte, toI_ofNat]

/-- A length that the handler works out itself. -/
theorem lengthed_set {each : Each} {n : Nat}
    (written : 0 < n ↔ result.written = true ∧
      (result.body.yields.raises = true ∨ result.body.bytes ≠ []))
    (raises : each.raises = result.body.yields.raises)
    (bytes : result.body.yields.raises = false → each.chunks.flatten = result.body.bytes ∧
      (result.written = true → n = result.body.bytes.length)) :
    Lengthed result (result.headers.set contentLength (.string (Decimal.ofNat n))) each n := by
  refine ⟨lengthOf_set _ n, fun field other => ?_, written, raises, bytes, ?_⟩
  · rw [Headers.get_set, if_neg other]
  · intro _ whole values found
    rw [Headers.get_set, if_pos rfl] at found
    obtain rfl := Option.some.inj found
    exact ⟨_, rfl, whole ▸ Decimal.numeral_ofNat n⟩

/-- A length that the application announced. -/
theorem lengthed_announced (counted : Counted result) {values : Values}
    (found : result.headers.get contentLength = some values) :
    ∃ n, Lengthed result result.headers result.body.yields n := by
  obtain ⟨text, n, rfl, numeral, whole⟩ := counted values found
  have read := toI_of_numeral numeral
  have written : result.written = true ↔ n ≠ 0 := by
    simp only [Result.written, found, read, ne_eq, Int.natCast_eq_zero, decide_eq_true_eq]
  refine ⟨n, ?_, fun _ _ => rfl, ?_, rfl, fun quiet => ⟨rfl, fun _ => whole quiet⟩, ?_⟩
  · simp only [lengthOf, found, read]
  · rw [written, Nat.pos_iff_ne_zero]
    refine (and_iff_left_of_imp fun some => ?_).symm
    cases raises : result.body.yields.raises with
    | true => exact Or.inl rfl
    | false =>
        refine Or.inr fun empty => some ?_
        rw [whole raises, empty]
        rfl
  · intro _ same other held
    rw [found] at held
    obtain rfl := Option.some.inj held
    exact ⟨text, rfl, same ▸ numeral⟩

/-- No length is announced. -/
theorem lengthed_none (absent : result.headers.get contentLength = none)
    (unread : result.written = false) :
    Lengthed result result.headers result.body.yields 0 := by
  refine ⟨?_, fun _ _ => rfl, ?_, rfl, fun _ => ⟨rfl, fun read => ?_⟩, ?_⟩
  · simp only [lengthOf, absent, Int.natCast_zero]
  · simp [unread]
  · rw [unread] at read
    cases read
  · intro _ _ values found
    rw [absent] at found
    cases found

/-- What is read from a body, or from the chunks it gave when its length was worked out. -/
def source (body : Body) : Option (List (List UInt8)) → Each
  | some chunks => ⟨chunks, false⟩
  | none => body.yields

/-- The length of a body is worked out unless that raises. -/
theorem calculate_cases (iterable : result.body.iterable = true)
    (absent : result.headers.get contentLength = none)
    (plain : chunked result.headers = false) :
    (calculateContentLength result.body = none ∧ result.body.yields.raises = true ∧
        result.written = true) ∨
      ∃ n actual, calculateContentLength result.body = some (Decimal.ofNat n, actual) ∧
        Lengthed result (result.headers.set contentLength (.string (Decimal.ofNat n)))
          (source result.body actual) n := by
  have written : result.written = match result.body with
      | .string text => !text.isEmpty
      | .path (some file) (some _) => !file.content.isEmpty
      | .path (some _) none => false
      | .path none _ => false
      | .each _ => true := by
    simp only [Result.written, absent, plain, Bool.not_false, Bool.true_and]
  cases kind : result.body with
  | string text =>
      simp only [kind] at written
      refine Or.inr ⟨text.length, none, rfl, lengthed_set ?_ ?_ ?_⟩
      · rw [written, kind, List.length_pos_iff]
        simp [Body.yields, Body.bytes]
      · rw [kind]
        rfl
      · rw [kind]
        simp [source, Body.yields, Body.bytes]
  | path file each =>
      have some : ∃ found, each = some found := by
        rw [kind] at iterable
        exact Option.isSome_iff_exists.mp iterable
      obtain ⟨found, rfl⟩ := some
      cases file with
      | none =>
          simp only [kind] at written
          refine Or.inr ⟨0, none, rfl, lengthed_set ?_ ?_ ?_⟩
          · simp [written]
          · rw [kind]
            rfl
          · rw [kind]
            exact fun _ => ⟨rfl, fun read => absurd read (by rw [written]; decide)⟩
      | some file =>
          simp only [kind] at written
          have read : file.reads.raises = false → file.reads.chunks.flatten = file.content := by
            unfold Stored.reads
            cases file.failsAfter with
            | none => exact fun _ => flatten_fileChunks file.content
            | some count => exact nofun
          refine Or.inr ⟨file.content.length, none, rfl, lengthed_set ?_ ?_ ?_⟩
          · rw [written, kind, List.length_pos_iff]
            simp only [Body.yields, Body.bytes, Bool.not_eq_true', List.isEmpty_eq_false_iff]
            refine (and_iff_left_of_imp fun some => ?_).symm
            cases raises : file.reads.raises with
            | true => exact Or.inl rfl
            | false =>
                rw [read raises]
                exact Or.inr some
          · rw [kind]
            rfl
          · rw [kind]
            exact fun quiet => ⟨rfl, fun _ => congrArg List.length (read quiet).symm⟩
  | each each =>
      simp only [kind] at written
      cases raises : each.raises with
      | true =>
          refine Or.inl ⟨?_, raises, written⟩
          simp only [calculateContentLength, raises, ↓reduceIte]
      | false =>
          have counted : (each.chunks.map List.length).sum = each.chunks.flatten.length :=
            List.length_flatten.symm
          refine Or.inr ⟨(each.chunks.map List.length).sum, some each.chunks, ?_,
            lengthed_set ?_ ?_ ?_⟩
          · simp only [calculateContentLength, raises, Bool.false_eq_true, ↓reduceIte]
          · rw [written, kind, counted, List.length_pos_iff]
            simp [Body.yields, Body.bytes, raises]
          · rw [kind]
            exact raises.symm
          · rw [kind]
            exact fun _ => ⟨rfl, fun _ => counted⟩

/-- The headers of a response that may have a body, with their length. -/
theorem lengthHeaders_cases (counted : Counted result) (loud : silent result.status.toI = false) :
    (lengthHeaders result.status.toI result.headers result.body = none ∧
        result.body.yields.raises = true ∧ result.written = true) ∨
      ∃ headers actual n,
        lengthHeaders result.status.toI result.headers result.body = some (headers, actual) ∧
        Lengthed result headers (source result.body actual) n := by
  unfold lengthHeaders needContentLength
  rw [loud]
  simp only [Bool.false_eq_true, ↓reduceIte]
  cases found : result.headers.get contentLength with
  | some values =>
      obtain ⟨n, known⟩ := lengthed_announced counted found
      exact Or.inr ⟨result.headers, none, n, rfl, known⟩
  | none =>
      simp only [Option.isSome_none, Bool.false_eq_true, ↓reduceIte]
      by_cases plain : chunked result.headers = true
      · have unread : result.written = false := by
          simp only [Result.written, found, plain, Bool.not_true, Bool.false_and]
        simp only [plain, ↓reduceIte]
        exact Or.inr ⟨result.headers, none, 0, rfl, lengthed_none found unread⟩
      · have plain := Bool.eq_false_iff.mpr plain
        simp only [plain, Bool.false_eq_true, ↓reduceIte]
        cases iterable : result.body.iterable with
        | true =>
            rcases calculate_cases iterable found plain with
              ⟨none, raises, written⟩ | ⟨n, actual, some, known⟩
            · refine Or.inl ⟨?_, raises, written⟩
              simp only [↓reduceIte, none, Option.map_none]
            · refine Or.inr ⟨_, actual, n, ?_, known⟩
              simp only [↓reduceIte, some, Option.map_some]
        | false =>
            have unread : result.written = false := by
              cases kind : result.body with
              | string text =>
                  rw [kind] at iterable
                  cases iterable
              | each each =>
                  rw [kind] at iterable
                  cases iterable
              | path file each =>
                  rw [kind] at iterable
                  cases each with
                  | some each => cases iterable
                  | none => cases file <;> simp [Result.written, found, plain, kind]
            exact Or.inr ⟨result.headers, none, 0, rfl, lengthed_none found unread⟩

/-! ### What comes of a request -/

namespace Client

/-- The response once its header block is there. -/
def headed (headers : Headers) (status : Int) : Client :=
  { new with resp := { HttpResp.new with
    respCode := UInt16.ofInt status
    header := respHeader headers status } }

/-- The header block and a buffer for the body are taken unless an `int` does not hold the status or
the length. -/
theorem writeHeaders_new (headers : Headers) {status : Int} {n : Nat} (fits : FitsInt status)
    (small : n < 2 ^ 31) :
    new.writeHeaders headers status n = .ok (if n = 0 then (headed headers status).reqRespCompleted
      else { headed headers status with bodySize := n }.hold []) := by
  have length : FitsInt n := ⟨by omega, by omega⟩
  have size : Decimal.toSize n = n := Decimal.toSize_natCast (by omega)
  unfold writeHeaders reqWriteHeaders
  simp only [fits, length, size, not_true_eq_false, ↓reduceIte]
  by_cases zero : n = 0
  · subst zero
    rfl
  · have positive : 0 < n := Nat.pos_of_ne_zero zero
    have some : ¬ (n : Int) ≤ 0 := by omega
    simp only [positive, zero, ↓reduceIte, bind, Except.bind, some]
    rfl

theorem writeHeaders_error (headers : Headers) {status : Int} {n : Nat}
    (bad : ¬ FitsInt status ∨ 2 ^ 31 ≤ n) :
    ∃ after, new.writeHeaders headers status n = .error after ∧ after.completed = [] := by
  unfold writeHeaders reqWriteHeaders
  by_cases fits : FitsInt status
  · have long := bad.resolve_left (not_not_intro fits)
    have length : ¬ FitsInt n := fun inside => by
      have upper := inside.2
      omega
    simp only [fits, length, not_true_eq_false, not_false_eq_true, ↓reduceIte]
    exact ⟨_, rfl, rfl⟩
  · simp only [fits, not_false_eq_true, ↓reduceIte]
    exact ⟨_, rfl, rfl⟩

end Client

/-- A response is the header block, and behind it what is read from the body. -/
theorem respond_eq (keepAlive : Bool) {actual : Option (List (List UInt8))} {n : Nat}
    (found : lengthHeaders result.status.toI result.headers result.body = some (headers, actual))
    (known : Lengthed result headers (source result.body actual) n) (client : Client) :
    respond keepAlive result client =
      (client.writeHeaders (serverHeaders keepAlive headers) result.status.toI n).bind fun client =>
        if n = 0 then
          .ok client
        else
          (client.writeEach (source result.body actual)).map Client.reqRespCompleted := by
  have readable : n ≠ 0 → actual = none → result.body ≠ .path none none := by
    intro some _ neither
    have read := (known.written.mp (Nat.pos_of_ne_zero some)).2
    rw [neither] at read
    rcases read with raises | bytes
    · cases raises
    · exact bytes rfl
  simp only [respond, found, lengthOf_serverHeaders, known.length]
  refine congrArg (Except.bind _) (funext fun client => ?_)
  by_cases zero : n = 0
  · subst zero
    rfl
  · have positive : (0 : Int) < n := by omega
    simp only [positive, zero, ↓reduceIte]
    cases actual with
    | some chunks => exact client.writeBody_eq (.each ⟨chunks, false⟩) nofun
    | none => exact client.writeBody_eq result.body (readable zero rfl)

/-- A response without bytes ends with its header block, any other with its body; else an `int`
does not hold the status or the length, or the body raises. -/
theorem respond_cases (keepAlive : Bool) {actual : Option (List (List UInt8))} {n : Nat}
    (found : lengthHeaders result.status.toI result.headers result.body = some (headers, actual))
    (known : Lengthed result headers (source result.body actual) n) :
    (FitsInt result.status.toI ∧ n = 0 ∧ respond keepAlive result Client.new =
        .ok (Client.headed (serverHeaders keepAlive headers) result.status.toI).reqRespCompleted) ∨
      (FitsInt result.status.toI ∧ 0 < n ∧ n < 2 ^ 31 ∧ result.body.yields.raises = false ∧
        respond keepAlive result Client.new =
          .ok ({ Client.headed (serverHeaders keepAlive headers) result.status.toI with
            bodySize := n }.hold result.body.bytes).reqRespCompleted) ∨
      (¬ FitsInt result.status.toI ∨ 2 ^ 31 ≤ n ∨ (0 < n ∧ result.body.yields.raises = true)) ∧
        ∃ after, respond keepAlive result Client.new = .error after ∧ after.completed = [] := by
  rw [respond_eq keepAlive found known]
  by_cases good : FitsInt result.status.toI ∧ n < 2 ^ 31
  · obtain ⟨fits, small⟩ := good
    rw [Client.writeHeaders_new _ fits small]
    by_cases zero : n = 0
    · subst zero
      exact Or.inl ⟨fits, rfl, rfl⟩
    · have positive := Nat.pos_of_ne_zero zero
      simp only [zero, ↓reduceIte, Except.bind, Client.writeEach, known.raises]
      cases raises : result.body.yields.raises with
      | true =>
          refine Or.inr (Or.inr ⟨Or.inr (Or.inr ⟨positive, rfl⟩), _, rfl, ?_⟩)
          rw [Client.completed_foldl]
          rfl
      | false =>
          have written := (known.written.mp positive).1
          obtain ⟨bytes, whole⟩ := known.bytes raises
          have measured := whole written
          refine Or.inr (Or.inl ⟨fits, positive, small, rfl, ?_⟩)
          rw [Client.foldl_hold _ (by rw [bytes, ← measured]; simp) (by dsimp only; omega), bytes]
          rfl
  · have bad : ¬ FitsInt result.status.toI ∨ 2 ^ 31 ≤ n := by
      rcases not_and_or.mp good with misfit | long
      · exact Or.inl misfit
      · exact Or.inr (Nat.le_of_not_lt long)
    obtain ⟨after, raised, empty⟩ := Client.writeHeaders_error (serverHeaders keepAlive headers) bad
    rw [raised]
    exact Or.inr (Or.inr ⟨bad.imp_right Or.inl, after, rfl, empty⟩)

/-- Closing the body hands nothing over. -/
theorem completed_process (keepAlive : Bool) (called : Option Result) (client : Client) :
    (process keepAlive called client).completed =
      match respond keepAlive (called.getD errorPage) client with
      | .ok client => client.completed
      | .error client => client.completed := by
  simp only [process]
  split
  · cases respond keepAlive (called.getD errorPage) client <;> rfl
  · cases respond keepAlive (called.getD errorPage) client <;> rfl

/-- A response without a body is always handed over. -/
theorem answers_silent (keepAlive : Bool) (quiet : silent result.status.toI = true) :
    (match respond keepAlive result Client.new with
      | .ok client => client.completed
      | .error client => client.completed).length = 1 := by
  have fits : FitsInt result.status.toI := by
    simp only [silent, Bool.or_eq_true, decide_eq_true_eq, Bool.and_eq_true] at quiet
    constructor <;> omega
  have zero : lengthOf (result.headers.set contentLength (.string (Decimal.ofNat 0))) =
      some ((0 : Nat) : Int) := lengthOf_set _ 0
  simp only [respond, lengthHeaders, quiet, ↓reduceIte, lengthOf_serverHeaders, zero]
  rw [Client.writeHeaders_new _ fits (by decide)]
  rfl

/-- The headers of a response of the right length convey the result. -/
theorem conveys_of_lengthed (keepAlive : Bool) {each : Each} {n : Nat} {resp : HttpResp}
    (known : Lengthed result headers each n) (raises : result.body.yields.raises = false)
    (whole : n = result.body.bytes.length)
    (header : resp.header = respHeader (serverHeaders keepAlive headers) result.status.toI)
    (carries : Writer.Carries false resp result.body.bytes) : Conveys result resp := by
  refine ⟨_, header, ?_, ?_, carries⟩
  · intro field notLength notConnection notServer
    rw [Headers.get_serverHeaders _ _ notConnection notServer]
    exact known.kept field notLength
  · intro values found
    rw [Headers.get_serverHeaders _ _ (by decide) (by decide)] at found
    exact known.announced raises whole values found

/-- A request is answered by one whole response exactly when its status fits an `int` and its body
is read if it has bytes, at most 2 ^ 31 - 1 of them, and is not read if it raises; or when the status
goes without a body. -/
theorem answers_iff (keepAlive : Bool) (called : Option Result)
    (counted : Counted (called.getD errorPage)) :
    Answers (called.getD errorPage) (process keepAlive called Client.new) ↔
      Answerable (called.getD errorPage) := by
  have handed := completed_process keepAlive called Client.new
  generalize process keepAlive called Client.new = after at handed
  generalize called.getD errorPage = result at *
  cases quiet : silent result.status.toI with
  | true =>
      refine ⟨fun _ => Or.inl quiet, fun _ => ⟨?_, fun loud => ?_⟩⟩
      · rw [handed]
        exact answers_silent keepAlive quiet
      · rw [quiet] at loud
        cases loud
  | false =>
      have loud : ¬ silent result.status.toI = true := Bool.eq_false_iff.mp quiet
      rcases lengthHeaders_cases counted quiet with
        ⟨none, raises, written⟩ | ⟨headers, actual, n, found, known⟩
      · -- The length of a body that raises cannot be worked out.
        have empty : after.completed = [] := by
          rw [handed]
          simp only [respond, none]
          rfl
        constructor
        · intro answers
          have once := answers.once
          rw [empty] at once
          cases once
        · intro answerable
          obtain ⟨-, rest⟩ := answerable.resolve_left loud
          rw [if_pos raises, written] at rest
          cases rest
      · rcases respond_cases keepAlive found known with
          ⟨fits, rfl, ended⟩ | ⟨fits, positive, small, raises, ended⟩ | ⟨bad, failed, raised, none⟩
        · rw [ended] at handed
          have unread : result.written = true →
              result.body.yields.raises = false ∧ result.body.bytes = [] := by
            intro written
            have nothing := mt known.written.mpr (Nat.lt_irrefl 0)
            simpa [written] using nothing
          constructor
          · intro answers
            refine Or.inr ⟨fits, ?_⟩
            cases raises : result.body.yields.raises with
            | true =>
                rw [if_pos rfl]
                refine Bool.eq_false_iff.mpr fun written => ?_
                rw [(unread written).1] at raises
                cases raises
            | false =>
                have member : (Client.headed (serverHeaders keepAlive headers)
                    result.status.toI).resp ∈ after.completed := by
                  rw [handed]
                  exact List.mem_cons_self
                obtain ⟨-, -, -, -, carries⟩ := answers.whole quiet raises _ member
                have empty : result.body.bytes = [] := List.length_eq_zero_iff.mp carries.1.symm
                rw [if_neg Bool.false_ne_true, empty]
                exact ⟨by decide, Or.inl rfl⟩
          · intro answerable
            obtain ⟨-, rest⟩ := answerable.resolve_left loud
            refine ⟨by rw [handed]; rfl, fun _ raises resp member => ?_⟩
            rw [raises, if_neg Bool.false_ne_true] at rest
            have empty : result.body.bytes = [] := rest.2.elim id fun written => (unread written).2
            rw [handed] at member
            obtain rfl := List.mem_singleton.mp member
            refine conveys_of_lengthed keepAlive known raises (by rw [empty]; rfl) rfl ?_
            rw [empty]
            exact ⟨rfl, Or.inr (Or.inl ⟨rfl, rfl⟩)⟩
        · rw [ended] at handed
          obtain ⟨written, -⟩ := known.written.mp positive
          have whole := (known.bytes raises).2 written
          refine ⟨fun _ => Or.inr ⟨fits, ?_⟩, fun _ => ⟨by rw [handed]; rfl, ?_⟩⟩
          · rw [raises, if_neg Bool.false_ne_true, ← whole]
            exact ⟨small, Or.inr written⟩
          · intro _ _ resp member
            rw [handed] at member
            obtain rfl := List.mem_singleton.mp member
            exact conveys_of_lengthed keepAlive known raises whole rfl ⟨rfl, Or.inl rfl⟩
        · have empty : after.completed = [] := by
            rw [handed, raised]
            exact none
          constructor
          · intro answers
            have once := answers.once
            rw [empty] at once
            cases once
          · intro answerable
            obtain ⟨fits, rest⟩ := answerable.resolve_left loud
            cases raises : result.body.yields.raises with
            | true =>
                rw [raises, if_pos rfl] at rest
                have zero : n = 0 := by
                  refine Nat.eq_zero_of_not_pos fun positive => ?_
                  rw [(known.written.mp positive).1] at rest
                  cases rest
                rcases bad with misfit | long | ⟨positive, -⟩
                · exact absurd fits misfit
                · omega
                · omega
            | false =>
                rw [raises, if_neg Bool.false_ne_true] at rest
                have short : n < 2 ^ 31 := by
                  rcases Nat.eq_zero_or_pos n with zero | positive
                  · omega
                  · rw [(known.bytes raises).2 (known.written.mp positive).1]
                    exact rest.1
                rcases bad with misfit | long | ⟨-, other⟩
                · exact absurd fits misfit
                · omega
                · rw [raises] at other
                  cases other

/-- A request whose application raises is answered with the error page. -/
theorem answerable_errorPage : Answerable errorPage := by decide +kernel

/-- A 200 response with a body and no headers. -/
def plainResult (body : Body) : Result where
  status := .number 200
  headers := ⟨[], List.nodup_nil⟩
  body := body
  closes := false

theorem counted_plainResult (body : Body) : Counted (plainResult body) := nofun

theorem answers_iff_sample :
    Counted (plainResult (.string (ascii "hi"))) ∧
      Answers (plainResult (.string (ascii "hi")))
        (process false (some (plainResult (.string (ascii "hi")))) Client.new) :=
  ⟨counted_plainResult _,
    (answers_iff false (some (plainResult (.string (ascii "hi")))) (counted_plainResult _)).mpr
      (by decide +kernel)⟩

/-- A request whose body yields a chunk and then raises is never answered. -/
theorem not_answers :
    Counted (plainResult (.each ⟨[ascii "hi"], true⟩)) ∧
      (process false (some (plainResult (.each ⟨[ascii "hi"], true⟩))) Client.new).completed = [] ∧
      ¬ Answers (plainResult (.each ⟨[ascii "hi"], true⟩))
        (process false (some (plainResult (.each ⟨[ascii "hi"], true⟩))) Client.new) := by
  have none : (process false (some (plainResult (.each ⟨[ascii "hi"], true⟩)))
      Client.new).completed = [] := by
    rw [completed_process]
    rfl
  refine ⟨counted_plainResult _, none, fun answers => ?_⟩
  have once := answers.once
  rw [none] at once
  cases once

end Worker
